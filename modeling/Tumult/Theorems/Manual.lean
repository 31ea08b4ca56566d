import Tumult.Lib.Decimal
import Tumult.Theorems.ManualEffects

/-!
# The life of manual evidence

Records move along their life and are locked when they are submitted. The audit trail of a record is one chain of hashes that replays
its life, and whoever reviews a record has not contributed to it.
-/

namespace Tumult.Manual

variable {Γ : ManualCtx}

/-! ## Trails -/

/-- The audit rows of a record. -/
def ManualDb.trail {F64 : Type} (db : ManualDb F64) (id : String) : List ManualAuditRow := db.audit.filter (·.experimentId = id)

/-- The attachments of a record. -/
def ManualDb.attachmentsOf {F64 : Type} (db : ManualDb F64) (id : String) : List AttachmentRow :=
  db.attachments.filter (·.experimentId = id)

/-- The lives of a record, each with the status it leaves. -/
inductive Life : List AuditAction → Status → Prop where
  | create : Life [.create] .draft
  | edit {as : List AuditAction} (h : Life as .draft) : Life (as ++ [.edit]) .draft
  | submit {as : List AuditAction} (h : Life as .draft) : Life (as ++ [.submit]) .submitted
  | attach {as : List AuditAction} {st : Status} (h : Life as st) (hopen : st = .draft ∨ st = .submitted) : Life (as ++ [.attach]) st
  | verify {as : List AuditAction} (h : Life as .submitted) : Life (as ++ [.verify]) .verified
  | reject {as : List AuditAction} (h : Life as .submitted) : Life (as ++ [.reject]) .rejected

/-- Audit rows that join: each starts from the hash the one before it ended with. -/
def Joined : Option String → List ManualAuditRow → Option String → Prop
  | p, [], q => p = q
  | p, a :: as, q => a.prevHash = p ∧ Joined (some a.newHash) as q

theorem Joined.concat {p q : Option String} {as : List ManualAuditRow} {a : ManualAuditRow} (h : Joined p as q) (ha : a.prevHash = q) :
    Joined p (as ++ [a]) (some a.newHash) := by
  induction as generalizing p with
  | nil => exact ⟨ha.trans h.symm, rfl⟩
  | cons b as ih => exact ⟨h.1, ih h.2⟩

/-- Rows that join end with the hash of the last of them. -/
theorem Joined.last {p q : Option String} {as : List ManualAuditRow} (h : Joined p as q) (hne : as ≠ []) :
    as.getLast?.map (·.newHash) = q := by
  induction as generalizing p with
  | nil => exact absurd rfl hne
  | cons a as ih =>
    cases as with
    | nil => exact h.2
    | cons b as =>
      rw [List.getLast?_cons_cons]
      exact ih h.2 (List.cons_ne_nil b as)

/-- Whether a record has been reviewed, and by whom. -/
inductive Reviewed {F64 : Type} (trail : List ManualAuditRow) (row : ManualRow F64) : Prop where
  | waiting (hstatus : row.status = .draft ∨ row.status = .submitted) (hnone : row.reviewedBy = none)
  | closed (a : ManualAuditRow) (hstatus : row.status = .verified ∨ row.status = .rejected)
      (hlast : trail.getLast? = some a) (hby : row.reviewedBy = some a.changedBy) (hnamed : Text.trim a.changedBy ≠ "")
      (hother : a.changedBy ≠ row.enteredBy) (honly : ∀ b ∈ trail, b.changedBy = a.changedBy → b = a)

/-- What the trail of a record accounts for. -/
structure Accounted (Γ : ManualCtx) (trail : List ManualAuditRow) (row : ManualRow Γ.F64) : Prop where
  life : Life (trail.map (·.action)) row.status
  joined : Joined none trail (some row.contentHash)
  author : ∃ a, trail.head? = some a ∧ a.changedBy = row.enteredBy
  hash : row.contentHash = contentHash Γ row.toCanonicalContent ∨ row.contentHash = rereadHash Γ row
  complete : Complete row.toManualContent ∧ Text.trim row.enteredBy ≠ ""
  reviewed : Reviewed trail row

/-- The tables are accounted for by the audit trail. -/
structure Audited (Γ : ManualCtx) (db : ManualDb Γ.F64) : Prop where
  unique : (db.experiments.map (·.id)).Nodup
  records : ∀ row ∈ db.experiments, Accounted Γ (db.trail row.id) row
  known : ∀ a ∈ db.audit, ∃ row ∈ db.experiments, row.id = a.experimentId
  attached : ∀ id, (db.attachmentsOf id).map (·.addedBy) = ((db.trail id).filter (·.action = .attach)).map (·.changedBy)

/-! ## Effects keep the account -/

/-- A life that is not over has no review in it. -/
theorem Life.unreviewed {as : List AuditAction} {st : Status} (h : Life as st) (hopen : st = .draft ∨ st = .submitted) :
    ∀ action ∈ as, action ≠ .verify ∧ action ≠ .reject := by
  induction h with
  | create => simp
  | edit h ih => exact List.forall_mem_append.mpr ⟨ih (.inl rfl), by simp⟩
  | submit h ih => exact List.forall_mem_append.mpr ⟨ih (.inl rfl), by simp⟩
  | attach h hopen' ih => exact List.forall_mem_append.mpr ⟨ih hopen', by simp⟩
  | verify h ih => simp at hopen
  | reject h ih => simp at hopen

theorem Life.ne_nil {as : List AuditAction} {st : Status} (h : Life as st) : as ≠ [] := by
  cases h <;> simp

theorem trail_append {F64 : Type} {db db' : ManualDb F64} {a : ManualAuditRow} (h : db'.audit = db.audit ++ [a]) (id : String) :
    db'.trail id = db.trail id ++ if a.experimentId = id then [a] else [] := by
  unfold ManualDb.trail
  rw [h, List.filter_append]
  by_cases hid : a.experimentId = id <;> simp [hid]

theorem mem_trail {F64 : Type} {db : ManualDb F64} {id : String} {a : ManualAuditRow} :
    a ∈ db.trail id ↔ a ∈ db.audit ∧ a.experimentId = id := by
  simp [ManualDb.trail]

/-- Who has not contributed to a record is in none of its rows that is not a review. -/
theorem contributed_eq_zero {F64 : Type} {db : ManualDb F64} {id actor : String} (h : db.contributed id actor = 0) {a : ManualAuditRow}
    (ha : a ∈ db.trail id) (hby : a.changedBy = actor) : a.action = .verify ∨ a.action = .reject := by
  obtain ⟨hmem, hid⟩ := mem_trail.mp ha
  have hnone := List.countP_eq_zero.mp h a hmem
  cases haction : a.action <;> simp [hid, hby, haction] at hnone ⊢

theorem head?_concat {α : Type} {as : List α} {a b : α} (h : as.head? = some b) : (as ++ [a]).head? = some b := by
  rw [List.head?_append, h, Option.some_or]

/-- A record that is not closed has no reviewer. -/
theorem Reviewed.none_of_open {F64 : Type} {trail : List ManualAuditRow} {row : ManualRow F64} (h : Reviewed trail row)
    (hopen : row.status = .draft ∨ row.status = .submitted) : row.reviewedBy = none := by
  rcases h with ⟨-, hnone⟩ | ⟨c, hclosed, -⟩
  · exact hnone
  · rcases hopen with hopen | hopen <;> rw [hopen] at hclosed <;> simp at hclosed

section

variable {db : ManualDb Γ.F64} {row row' : ManualRow Γ.F64} {a : ManualAuditRow}

/-- The action of an amendment goes on with the life of its record. -/
theorem Amends.life {as : List AuditAction} (h : Amends db row row' a) (hlife : Life as row.status) : Life (as ++ [a.action]) row'.status := by
  cases h with
  | edit hstatus haction hstatus' =>
    rw [hstatus] at hlife
    rw [haction, hstatus']
    exact hlife.edit
  | submit hstatus haction hstatus' =>
    rw [hstatus] at hlife
    rw [haction, hstatus']
    exact hlife.submit
  | review hstatus haction =>
    rw [hstatus] at hlife
    rcases haction with ⟨haction, hstatus'⟩ | ⟨haction, hstatus'⟩
    · rw [haction, hstatus']
      exact hlife.verify
    · rw [haction, hstatus']
      exact hlife.reject

/-- An amendment leaves content complete. -/
theorem Amends.complete (h : Amends db row row' a) (hcomplete : Complete row.toManualContent) : Complete row'.toManualContent := by
  cases h with
  | edit _ _ _ _ hcomplete' => exact hcomplete'
  | submit _ _ _ _ hattested hcontent =>
    obtain ⟨hname, hhypothesis, hmethod, -, htime⟩ := hcomplete
    rw [hcontent]
    exact ⟨hname, hhypothesis, hmethod, hattested, htime⟩
  | review _ _ hcontent => exact hcontent ▸ hcomplete

/-- Who reviews a record in an amendment is in no row of its trail but the last. -/
theorem Amends.reviewed (h : Amends db row row' a) (haccount : Accounted Γ (db.trail row.id) row) (hby : row'.enteredBy = row.enteredBy) :
    Reviewed (db.trail row.id ++ [a]) row' := by
  have hwaiting := haccount.reviewed.none_of_open
  cases h with
  | edit hstatus _ hstatus' hreviewed => exact .waiting (.inl hstatus') (hreviewed.trans (hwaiting (.inl hstatus)))
  | submit hstatus _ hstatus' hreviewed => exact .waiting (.inr hstatus') (hreviewed.trans (hwaiting (.inl hstatus)))
  | review hstatus haction _ hreviewed hnamed hother hnone =>
    refine .closed a (haction.imp And.right And.right) List.getLast?_concat hreviewed hnamed (hby ▸ hother) ?_
    intro c hc hsame
    rcases List.mem_append.mp hc with hc | hc
    · have hreview := contributed_eq_zero hnone hc hsame
      obtain ⟨hverify, hreject⟩ := haccount.life.unreviewed (.inr hstatus) c.action (List.mem_map_of_mem hc)
      exact absurd hreview (not_or.mpr ⟨hverify, hreject⟩)
    · exact List.mem_singleton.mp hc

/-- No amendment is an attachment. -/
theorem Amends.action_ne_attach (h : Amends db row row' a) : a.action ≠ .attach := by
  cases h with
  | edit _ haction => simp [haction]
  | submit _ haction => simp [haction]
  | review _ haction => rcases haction with ⟨haction, -⟩ | ⟨haction, -⟩ <;> simp [haction]

/-- An account is kept when its record is amended. -/
theorem Accounted.amended (h : Accounted Γ (db.trail row.id) row) (hby : row'.enteredBy = row.enteredBy)
    (hhash : row'.contentHash = rereadHash Γ row') (hchain : a.prevHash = some row.contentHash ∧ a.newHash = row'.contentHash)
    (hamends : Amends db row row' a) : Accounted Γ (db.trail row.id ++ [a]) row' := by
  obtain ⟨b, hfirst, hauthor⟩ := h.author
  refine ⟨?_, hchain.2 ▸ h.joined.concat hchain.1, ⟨b, head?_concat hfirst, hauthor.trans hby.symm⟩, .inr hhash,
    ⟨hamends.complete h.complete.1, hby ▸ h.complete.2⟩, hamends.reviewed h hby⟩
  rw [List.map_append, List.map_singleton]
  exact hamends.life h.life

end

/-- An account is kept when something is attached to its record. -/
theorem Accounted.attach {trail : List ManualAuditRow} {row : ManualRow Γ.F64} {a : ManualAuditRow} (h : Accounted Γ trail row)
    (hopen : row.status = .draft ∨ row.status = .submitted) (haction : a.action = .attach)
    (hchain : a.prevHash = some row.contentHash ∧ a.newHash = row.contentHash) : Accounted Γ (trail ++ [a]) row := by
  obtain ⟨b, hfirst, hauthor⟩ := h.author
  refine ⟨?_, ?_, ⟨b, head?_concat hfirst, hauthor⟩, h.hash, h.complete, ?_⟩
  · rw [List.map_append, List.map_singleton, haction]
    exact h.life.attach hopen
  · exact hchain.2 ▸ h.joined.concat hchain.1
  · exact .waiting hopen (h.reviewed.none_of_open hopen)

/-- The attachments of each record and the rows of the audit that say so. -/
theorem attached_append {db db' : ManualDb Γ.F64} {a : ManualAuditRow}
    (h : ∀ id, (db.attachmentsOf id).map (·.addedBy) = ((db.trail id).filter (·.action = .attach)).map (·.changedBy))
    (haudit : db'.audit = db.audit ++ [a]) {atts : List AttachmentRow} (hatts : db'.attachments = db.attachments ++ atts)
    (hsame : ∀ id, (atts.filter (·.experimentId = id)).map (·.addedBy) =
      ((if a.experimentId = id then [a] else []).filter (·.action = .attach)).map (·.changedBy)) (id : String) :
    (db'.attachmentsOf id).map (·.addedBy) = ((db'.trail id).filter (·.action = .attach)).map (·.changedBy) := by
  have hnow : db'.attachmentsOf id = db.attachmentsOf id ++ atts.filter (·.experimentId = id) := by
    unfold ManualDb.attachmentsOf
    rw [hatts, List.filter_append]
  rw [hnow, trail_append haudit, List.filter_append, List.map_append, List.map_append, h, hsame]

/-- An audit row that is not about an attachment. -/
theorem no_attachment {a : ManualAuditRow} (haction : a.action ≠ .attach) (id : String) :
    (([] : List AttachmentRow).filter (·.experimentId = id)).map (·.addedBy) =
      ((if a.experimentId = id then [a] else []).filter (·.action = .attach)).map (·.changedBy) := by
  by_cases hid : a.experimentId = id <;> simp [hid, haction]

/-- A record and its rows stay known when records keep their identifiers and a row about one of them is appended. -/
theorem known_append {db db' : ManualDb Γ.F64} {a : ManualAuditRow} (h : ∀ b ∈ db.audit, ∃ row ∈ db.experiments, row.id = b.experimentId)
    (haudit : db'.audit = db.audit ++ [a]) (hids : ∀ row ∈ db.experiments, row.id ∈ db'.experiments.map (·.id))
    (ha : a.experimentId ∈ db'.experiments.map (·.id)) : ∀ b ∈ db'.audit, ∃ row ∈ db'.experiments, row.id = b.experimentId := by
  intro b hb
  rw [haudit] at hb
  rcases List.mem_append.mp hb with hb | hb
  · obtain ⟨row, hrow, hid⟩ := h b hb
    exact List.mem_map.mp (hid ▸ hids row hrow)
  · obtain rfl := List.mem_singleton.mp hb
    exact List.mem_map.mp ha

section

variable {db : ManualDb Γ.F64} {row : ManualRow Γ.F64} {a : ManualAuditRow}

/-- A new record has no rows yet. -/
theorem Audited.trail_new (h : Audited Γ db) (hnew : ∀ r ∈ db.experiments, r.id ≠ row.id) : db.trail row.id = [] := by
  refine List.eq_nil_iff_forall_not_mem.mpr fun b hb => ?_
  obtain ⟨hmem, hsame⟩ := mem_trail.mp hb
  obtain ⟨r, hr, hrid⟩ := h.known b hmem
  exact hnew r hr (hrid.trans hsame)

/-- A new record is accounted for by the row of its creation. -/
theorem Audited.create (h : Audited Γ db) (hnew : ∀ r ∈ db.experiments, r.id ≠ row.id) (hid : a.experimentId = row.id)
    (haction : a.action ≠ .attach) (haccount : Accounted Γ [a] row) :
    Audited Γ { db with experiments := db.experiments ++ [row], audit := db.audit ++ [a] } := by
  refine ⟨nodup_concat h.unique hnew, ?_, known_append h.known rfl ?_ ?_,
    attached_append h.attached rfl (List.append_nil _).symm (no_attachment haction)⟩
  · intro r hr
    rw [trail_append rfl, hid]
    rcases List.mem_append.mp hr with hr | hr
    · rw [if_neg fun hsame => hnew r hr hsame.symm, List.append_nil]
      exact h.records r hr
    · obtain rfl := List.mem_singleton.mp hr
      rw [h.trail_new hnew, if_pos rfl, List.nil_append]
      exact haccount
  · exact fun r hr => List.mem_map_of_mem (List.mem_append_left _ hr)
  · exact hid ▸ List.mem_map_of_mem (List.mem_append_right _ (List.mem_singleton_self row))

/-- A record that is amended stays accounted for. -/
theorem Audited.amend {row' : ManualRow Γ.F64} (h : Audited Γ db) (hrow : row ∈ db.experiments) (hid : row'.id = row.id)
    (haudit : a.experimentId = row.id) (haction : a.action ≠ .attach) (haccount : Accounted Γ (db.trail row.id ++ [a]) row') :
    Audited Γ (db.amended row' a) := by
  refine ⟨(map_id_amended row' a).symm ▸ h.unique, ?_, known_append h.known rfl ?_ ?_,
    attached_append h.attached rfl (List.append_nil _).symm (no_attachment haction)⟩
  · intro r' hr'
    obtain ⟨r, hr, rfl⟩ := List.mem_map.mp hr'
    rw [trail_append rfl, haudit]
    by_cases hsame : r.id = row'.id
    · simp only [hsame, if_true, hid]
      exact haccount
    · have hother : row.id ≠ r.id := fun hrow' => hsame (hrow'.symm.trans hid.symm)
      simp only [hsame, hother, if_false, List.append_nil]
      exact h.records r hr
  · exact fun r hr => (map_id_amended row' a).symm ▸ List.mem_map_of_mem hr
  · exact (map_id_amended row' a).symm ▸ haudit ▸ List.mem_map_of_mem hrow

/-- A record that something is attached to stays accounted for. -/
theorem Audited.attach {att : AttachmentRow} (h : Audited Γ db) (hrow : row ∈ db.experiments)
    (haudit : a.experimentId = row.id ∧ a.action = .attach) (hatt : att.experimentId = row.id ∧ att.addedBy = a.changedBy)
    (haccount : Accounted Γ (db.trail row.id ++ [a]) row) :
    Audited Γ { db with attachments := db.attachments ++ [att], audit := db.audit ++ [a] } := by
  refine ⟨h.unique, ?_, known_append h.known rfl ?_ ?_, attached_append h.attached rfl rfl fun id => ?_⟩
  · intro r hr
    rw [trail_append rfl, haudit.1]
    by_cases hid : row.id = r.id
    · obtain rfl := List.inj_on_of_nodup_map h.unique hrow hr hid
      rw [if_pos rfl]
      exact haccount
    · rw [if_neg hid, List.append_nil]
      exact h.records r hr
  · exact fun r hr => List.mem_map_of_mem hr
  · exact haudit.1 ▸ List.mem_map_of_mem hrow
  · by_cases hid : row.id = id <;> simp [hatt.1, hatt.2, haudit.1, haudit.2, hid]

end

/-- An effect keeps the account of the tables. -/
theorem Audited.effect {db db' : ManualDb Γ.F64} (h : Audited Γ db) (he : Effect db db') : Audited Γ db' := by
  cases he with
  | batch b => exact ⟨h.unique, h.records, h.known, h.attached⟩
  | create row a hnew hcomplete hstatus hreviewed hhash haudit hchain =>
    obtain ⟨hid, hby, haction⟩ := haudit
    refine h.create hnew hid (by simp [haction]) ⟨?_, ⟨hchain.1, by rw [hchain.2]; rfl⟩, ⟨a, rfl, hby⟩, .inl hhash, hcomplete,
      .waiting (.inl hstatus) hreviewed⟩
    rw [List.map_singleton, haction, hstatus]
    exact .create
  | amend row row' a hrow hsame hhash haudit hchain hamends =>
    exact h.amend hrow hsame.1 haudit hamends.action_ne_attach ((h.records row hrow).amended hsame.2.1 hhash hchain hamends)
  | attach row att a hrow hopen haudit hatt hchain =>
    exact h.attach hrow haudit hatt ((h.records row hrow).attach hopen haudit.2 hchain)

/-! ## What a record may become -/

/-- How far a status is in the life of a record. -/
def Status.stage : Status → Nat
  | .draft => 0
  | .submitted => 1
  | .verified => 2
  | .rejected => 2

/-- What a record may become: who entered it and when stay, its status moves on or stays, its content is locked once it is submitted,
and all of it once it is reviewed. -/
structure Becomes {F64 : Type} (row row' : ManualRow F64) : Prop where
  same : row'.id = row.id ∧ row'.enteredBy = row.enteredBy ∧ row'.enteredAtNs = row.enteredAtNs
  onward : row'.status = row.status ∨ row.status.stage < row'.status.stage
  locked : row.status ≠ .draft → row'.toManualContent = row.toManualContent
  closed : row.status.stage = 2 → row' = row

theorem Becomes.refl {F64 : Type} (row : ManualRow F64) : Becomes row row := ⟨⟨rfl, rfl, rfl⟩, .inl rfl, fun _ => rfl, fun _ => rfl⟩

theorem Becomes.trans {F64 : Type} {row row' row'' : ManualRow F64} (h : Becomes row row') (h' : Becomes row' row'') :
    Becomes row row'' := by
  obtain ⟨hid, hby, hat⟩ := h.same
  obtain ⟨hid', hby', hat'⟩ := h'.same
  refine ⟨⟨hid'.trans hid, hby'.trans hby, hat'.trans hat⟩, ?_, fun hstatus => ?_, fun hstage => ?_⟩
  · rcases h.onward with hsame | hlt
    · exact hsame ▸ h'.onward
    · rcases h'.onward with hsame' | hlt'
      · exact .inr (hsame' ▸ hlt)
      · exact .inr (hlt.trans hlt')
  · refine (h'.locked ?_).trans (h.locked hstatus)
    intro hdraft
    rcases h.onward with hsame | hlt
    · exact hstatus (hsame.symm.trans hdraft)
    · rw [hdraft] at hlt
      exact Nat.not_lt_zero _ hlt
  · have hrow' := h.closed hstage
    subst hrow'
    exact h'.closed hstage

/-- A record that is amended was not closed. -/
theorem Amends.stage_ne_two {db : ManualDb Γ.F64} {row row' : ManualRow Γ.F64} {a : ManualAuditRow} (h : Amends db row row' a) :
    row.status.stage ≠ 2 := by
  cases h with
  | edit hstatus => simp [hstatus, Status.stage]
  | submit hstatus => simp [hstatus, Status.stage]
  | review hstatus => simp [hstatus, Status.stage]

/-- An amendment moves a record on. -/
theorem Amends.becomes {db : ManualDb Γ.F64} {row row' : ManualRow Γ.F64} {a : ManualAuditRow} (h : Amends db row row' a)
    (hsame : row'.id = row.id ∧ row'.enteredBy = row.enteredBy ∧ row'.enteredAtNs = row.enteredAtNs) : Becomes row row' := by
  have hopen := h.stage_ne_two
  cases h with
  | edit hstatus _ hstatus' =>
    exact ⟨hsame, .inl (hstatus'.trans hstatus.symm), fun h => absurd hstatus h, fun hstage => absurd hstage hopen⟩
  | submit hstatus _ hstatus' =>
    exact ⟨hsame, .inr (by simp [hstatus, hstatus', Status.stage]), fun h => absurd hstatus h, fun hstage => absurd hstage hopen⟩
  | review hstatus haction hcontent =>
    refine ⟨hsame, .inr ?_, fun _ => hcontent, fun hstage => absurd hstage hopen⟩
    rcases haction with ⟨-, hstatus'⟩ | ⟨-, hstatus'⟩ <;> simp [hstatus, hstatus', Status.stage]

/-- What the tables may become: rows of the audit and attachments are only added, no record is lost, and nothing is added to a record
that has been reviewed. -/
structure Evolves {F64 : Type} (db db' : ManualDb F64) : Prop where
  audit : db.audit <+: db'.audit
  attachments : db.attachments <+: db'.attachments
  importBatches : db.importBatches <+: db'.importBatches
  records : ∀ row ∈ db.experiments, ∃ row' ∈ db'.experiments, Becomes row row' ∧
    (row.status.stage = 2 → db'.trail row.id = db.trail row.id ∧ db'.attachmentsOf row.id = db.attachmentsOf row.id)

theorem Evolves.refl {F64 : Type} (db : ManualDb F64) : Evolves db db :=
  ⟨List.prefix_refl _, List.prefix_refl _, List.prefix_refl _, fun row hrow => ⟨row, hrow, .refl row, fun _ => ⟨rfl, rfl⟩⟩⟩

theorem Evolves.trans {F64 : Type} {db db' db'' : ManualDb F64} (h : Evolves db db') (h' : Evolves db' db'') : Evolves db db'' := by
  refine ⟨h.audit.trans h'.audit, h.attachments.trans h'.attachments, h.importBatches.trans h'.importBatches, fun row hrow => ?_⟩
  obtain ⟨row', hrow', hbecomes, hclosed⟩ := h.records row hrow
  obtain ⟨row'', hrow'', hbecomes', hclosed'⟩ := h'.records row' hrow'
  refine ⟨row'', hrow'', hbecomes.trans hbecomes', fun hstage => ?_⟩
  obtain ⟨htrail, hatts⟩ := hclosed hstage
  have hsame := hbecomes.closed hstage
  subst hsame
  obtain ⟨htrail', hatts'⟩ := hclosed' hstage
  exact ⟨htrail'.trans htrail, hatts'.trans hatts⟩

/-- An effect moves the tables on, and keeps the identifiers of the records different. -/
theorem Effect.evolves {db db' : ManualDb Γ.F64} (he : Effect db db') (hunique : (db.experiments.map (·.id)).Nodup) :
    Evolves db db' ∧ (db'.experiments.map (·.id)).Nodup := by
  cases he with
  | batch b =>
    exact ⟨⟨List.prefix_refl _, List.prefix_refl _, List.prefix_append _ _, fun row hrow => ⟨row, hrow, .refl row, fun _ => ⟨rfl, rfl⟩⟩⟩,
      hunique⟩
  | create row a hnew hcomplete hstatus hreviewed hhash haudit hchain =>
    refine ⟨⟨List.prefix_append _ _, List.prefix_refl _, List.prefix_refl _, fun r hr => ?_⟩, ?_⟩
    · refine ⟨r, List.mem_append_left _ hr, .refl r, fun _ => ⟨?_, rfl⟩⟩
      rw [trail_append rfl, haudit.1, if_neg fun hsame => hnew r hr hsame.symm, List.append_nil]
    · exact nodup_concat hunique hnew
  | amend row row' a hrow hsame hhash haudit hchain hamends =>
    refine ⟨⟨List.prefix_append _ _, List.prefix_refl _, List.prefix_refl _, fun r hr => ?_⟩, (map_id_amended row' a).symm ▸ hunique⟩
    refine ⟨_, List.mem_map_of_mem hr, ?_, fun hstage => ⟨?_, rfl⟩⟩
    · by_cases hid : r.id = row'.id
      · obtain rfl := List.inj_on_of_nodup_map hunique hr hrow (hid.trans hsame.1)
        rw [if_pos hid]
        exact hamends.becomes hsame
      · rw [if_neg hid]
        exact .refl r
    · have hid : row.id ≠ r.id := by
        intro hid
        obtain rfl := List.inj_on_of_nodup_map hunique hrow hr hid
        exact hamends.stage_ne_two hstage
      rw [trail_append rfl, haudit, if_neg hid, List.append_nil]
  | attach row att a hrow hopen haudit hatt hchain =>
    refine ⟨⟨List.prefix_append _ _, List.prefix_append _ _, List.prefix_refl _, fun r hr => ?_⟩, hunique⟩
    refine ⟨r, hr, .refl r, fun hstage => ?_⟩
    have hid : row.id ≠ r.id := by
      intro hid
      obtain rfl := List.inj_on_of_nodup_map hunique hrow hr hid
      rcases hopen with hopen | hopen <;> simp [hopen, Status.stage] at hstage
    refine ⟨by rw [trail_append rfl, haudit.1, if_neg hid, List.append_nil], ?_⟩
    unfold ManualDb.attachmentsOf
    rw [List.filter_append]
    simp [hatt.1, hid]

/-! ## Runs -/

/-- Several effects keep the account of the tables. -/
theorem Audited.effects {db db' : ManualDb Γ.F64} (h : Audited Γ db) (he : Effects db db') : Audited Γ db' := by
  induction he with
  | refl => exact h
  | tail _ hstep ih => exact ih.effect hstep

/-- Several effects move the tables on. -/
theorem evolves_effects {db db' : ManualDb Γ.F64} (he : Effects db db') (hunique : (db.experiments.map (·.id)).Nodup) :
    Evolves db db' ∧ (db'.experiments.map (·.id)).Nodup := by
  induction he with
  | refl => exact ⟨.refl db, hunique⟩
  | tail _ hstep ih =>
    obtain ⟨hevolves, hunique'⟩ := ih
    obtain ⟨hevolves', hunique''⟩ := hstep.evolves hunique'
    exact ⟨hevolves.trans hevolves', hunique''⟩

/-- No tables yet. -/
def emptyTables (F64 : Type) : ManualDb F64 := ⟨[], [], [], []⟩

theorem known_empty (tick : Nat) : Known Γ ⟨emptyTables Γ.F64, tick⟩ := ⟨.nil, fun _ hr => absurd hr List.not_mem_nil⟩

theorem audited_empty : Audited Γ (emptyTables Γ.F64) :=
  ⟨.nil, fun _ hr => absurd hr List.not_mem_nil, fun _ ha => absurd ha List.not_mem_nil, fun _ => rfl⟩

/-- A session in which nothing is refused, with a digest that is its text. -/
def plainCtx : ManualCtx where
  clock tick := tick
  fails _ := false
  F64 := Int
  f64Json x := toString x
  ulid tick := String.ofList (List.replicate tick '0')
  sha256Hex text := text
  readBack content := content

theorem plainCtx_ulid : Function.Injective plainCtx.ulid := by
  intro a b h
  have hlength := congrArg List.length (String.ofList_injective h)
  rwa [List.length_replicate, List.length_replicate] at hlength

def failoverDrill : NewManualExperiment Int :=
  { experimentName := "failover", exerciseType := .failover, executedAtNs := 1, hypothesis := "h", method := "m", outcome := .passed,
    hypothesisMet := some true, findings := none, actionItems := [], targetSystem := none, targetEnvironment := none,
    blastRadius := none, recoveryTimeS := some 3, durationS := none, attestation := "a", renewalDueNs := none, frameworkRefs := [],
    enteredBy := "ann" }

/-- A drill that its author submits, with something attached. -/
def drillOps : List (ManualOp plainCtx) :=
  [.create failoverDrill, .attach (plainCtx.ulid 1) .url "u" none none "ann", .submit (plainCtx.ulid 1) none "ann"]

/-- The author tries to verify it, a colleague does, and the author tries to edit it. -/
def reviewOps : List (ManualOp plainCtx) :=
  [.verify (plainCtx.ulid 1) "ann" none, .verify (plainCtx.ulid 1) "bob" none, .update (plainCtx.ulid 1) failoverDrill "ann"]

/-- The session after the drill. -/
def submitted : Db.Session (ManualDb plainCtx.F64) := runOps plainCtx drillOps ⟨emptyTables Int, 0⟩

/-- Mutations keep the account of the tables. -/
theorem Audited.runOps (hulid : Function.Injective Γ.ulid) {s : Db.Session (ManualDb Γ.F64)} (hs : Known Γ s) (h : Audited Γ s.store)
    (ops : List (ManualOp Γ)) : Audited Γ (Manual.runOps Γ ops s).store :=
  h.effects (runOps_effects hulid ops hs).1

section Json

open JsonText

variable {F64 : Type} {f64Json : F64 → String}

/-- What is printed of a record: its content, with the numbers as their texts. -/
def CanonicalContent.printed (f64Json : F64 → String) (c : CanonicalContent F64) : CanonicalContent String :=
  { c with
    recoveryTimeS := some (c.recoveryTimeS.elim "null" f64Json)
    durationS := some (c.durationS.elim "null" f64Json) }

/-- A text without commas determines itself and where it ends. -/
theorem orNull_inj {α : Type} {text : α → String} (htext : ∀ x, ',' ∉ (text x).toList) {x y : Option α} {rest rest' : List Char}
    (h : orNull text x ++ rest = orNull text y ++ rest') : x.elim "null" text = y.elim "null" text ∧ rest = rest' := by
  have hcomma (z : Option α) : ',' ∉ (z.elim "null" text).toList := by
    cases z with
    | none =>
      have hnull : ',' ∉ "null".toList := by decide
      exact hnull
    | some z => exact htext z
  unfold orNull at h
  rw [List.append_assoc, List.append_assoc] at h
  obtain ⟨heq, hrest⟩ := split_at_separator (hcomma x) (hcomma y) h
  exact ⟨String.toList_inj.mp heq, hrest⟩

/-- A list of strings determines itself and where it ends. -/
theorem stringList_prefixFree : PrefixFree stringList := by
  have htail (ss : List String) : ∀ (ts : List String) (x y : List Char),
      ss.flatMap (fun t => ',' :: quote t) ++ ']' :: x = ts.flatMap (fun t => ',' :: quote t) ++ ']' :: y → ss = ts ∧ x = y := by
    induction ss with
    | nil =>
      intro ts x y h
      cases ts with
      | nil => exact ⟨rfl, (List.cons.inj h).2⟩
      | cons t ts => cases (List.cons.inj h).1
    | cons s ss ih =>
      intro ts x y h
      cases ts with
      | nil => cases (List.cons.inj h).1
      | cons t ts =>
        simp only [List.flatMap_cons, List.cons_append, List.append_assoc, List.cons.injEq, true_and] at h
        obtain ⟨rfl, hrest⟩ := quote_prefixFree _ _ _ _ h
        obtain ⟨rfl, hxy⟩ := ih ts x y hrest
        exact ⟨rfl, hxy⟩
  intro ss ts x y h
  cases ss with
  | nil =>
    cases ts with
    | nil => exact ⟨rfl, List.append_cancel_left h⟩
    | cons t ts => simp [stringList, quote] at h
  | cons s ss =>
    cases ts with
    | nil => simp [stringList, quote] at h
    | cons t ts =>
      simp only [stringList, List.cons_append, List.append_assoc, List.cons.injEq, true_and] at h
      obtain ⟨rfl, hrest⟩ := quote_prefixFree _ _ _ _ h
      obtain ⟨rfl, hxy⟩ := htail ss ts x y hrest
      exact ⟨rfl, hxy⟩

theorem ExerciseType.asStr_inj {e e' : ExerciseType} (h : e.asStr = e'.asStr) : e = e' := by
  cases e <;> cases e' <;> first | rfl | exact absurd h (by decide)

theorem ManualOutcome.asStr_inj {o o' : ManualOutcome} (h : o.asStr = o'.asStr) : o = o' := by
  cases o <;> cases o' <;> first | rfl | exact absurd h (by decide)

theorem Status.asStr_inj {st st' : Status} (h : st.asStr = st'.asStr) : st = st' := by
  cases st <;> cases st' <;> first | rfl | exact absurd h (by decide)

theorem bool_inj {x y : Option Bool} (h : x.elim "null" (fun b => if b then "true" else "false") =
    y.elim "null" fun b => if b then "true" else "false") : x = y := by
  rcases x with _ | _ | _ <;> rcases y with _ | _ | _ <;> first | rfl | exact absurd h (by decide)

theorem int_inj {x y : Option Int} (h : x.elim "null" toString = y.elim "null" toString) : x = y := by
  have hread (z : Option Int) : Decimal.readInt (z.elim "null" toString).toList = z := by
    cases z with
    | none =>
      have hnull : Decimal.readInt "null".toList = none := by decide
      exact hnull
    | some z => exact Decimal.readInt_toString z
  rw [← hread x, h, hread]

/-- The canonical JSON of two records is the same exactly when all that is printed of them is. -/
theorem toJson_eq_iff (hnumber : ∀ x, ',' ∉ (f64Json x).toList) (c c' : CanonicalContent F64) :
    c.toJson f64Json = c'.toJson f64Json ↔ c.printed f64Json = c'.printed f64Json := by
  have hprinted (c : CanonicalContent F64) : (c.printed f64Json).toJson id = c.toJson f64Json := rfl
  have hfield {α : Type} {text : α → String} (htext : ∀ x, ',' ∉ (text x).toList) {name : String} {x y : Option α}
      {rest rest' : List Char} (h : field name (orNull text x) ++ rest = field name (orNull text y) ++ rest') :
      x.elim "null" text = y.elim "null" text ∧ rest = rest' := by
    simp only [field, List.append_assoc] at h
    exact orNull_inj htext (List.append_cancel_left h)
  have hbool (b : Bool) : ',' ∉ (if b then "true" else "false").toList := by cases b <;> decide
  constructor
  · intro h
    unfold CanonicalContent.toJson at h
    obtain ⟨hname, h⟩ := quote_prefixFree.field _ _ _ _ _ h
    obtain ⟨htype, h⟩ := quote_prefixFree.field _ _ _ _ _ h
    obtain ⟨hat, h⟩ := intComma_prefixFree.field _ _ _ _ _ h
    obtain ⟨hhypothesis, h⟩ := quote_prefixFree.field _ _ _ _ _ h
    obtain ⟨hmethod, h⟩ := quote_prefixFree.field _ _ _ _ _ h
    obtain ⟨houtcome, h⟩ := quote_prefixFree.field _ _ _ _ _ h
    obtain ⟨hmet, h⟩ := hfield hbool h
    obtain ⟨hfindings, h⟩ := quoteOrNull_prefixFree.field _ _ _ _ _ h
    obtain ⟨hitems, h⟩ := stringList_prefixFree.field _ _ _ _ _ h
    obtain ⟨hsystem, h⟩ := quoteOrNull_prefixFree.field _ _ _ _ _ h
    obtain ⟨henvironment, h⟩ := quoteOrNull_prefixFree.field _ _ _ _ _ h
    obtain ⟨hradius, h⟩ := quoteOrNull_prefixFree.field _ _ _ _ _ h
    obtain ⟨hrecovery, h⟩ := hfield hnumber h
    obtain ⟨hduration, h⟩ := hfield hnumber h
    obtain ⟨hby, h⟩ := quote_prefixFree.field _ _ _ _ _ h
    obtain ⟨hattestation, h⟩ := quote_prefixFree.field _ _ _ _ _ h
    obtain ⟨hrenewal, h⟩ := hfield comma_not_mem_int h
    obtain ⟨hrefs, h⟩ := stringList_prefixFree.field _ _ _ _ _ h
    obtain ⟨hstatus, -⟩ := quote_prefixFree.field _ _ _ _ _ h
    have htype := ExerciseType.asStr_inj htype
    have houtcome := ManualOutcome.asStr_inj houtcome
    have hmet := bool_inj hmet
    have hrenewal := int_inj hrenewal
    have hstatus := Status.asStr_inj hstatus
    unfold CanonicalContent.printed
    rw [hname, htype, hat, hhypothesis, hmethod, houtcome, hmet, hfindings, hitems, hsystem, henvironment, hradius, hrecovery, hduration,
      hby, hattestation, hrenewal, hrefs, hstatus]
  · intro h
    rw [← hprinted, h, hprinted]

end Json

/-- Content whose hash is the hash of other content is printed as it is, unless the digest collides. -/
theorem contentHash_inj (hnumber : ∀ x, ',' ∉ (Γ.f64Json x).toList) {c c' : CanonicalContent Γ.F64}
    (h : contentHash Γ c = contentHash Γ c') :
    c.printed Γ.f64Json = c'.printed Γ.f64Json ∨ ∃ x y, x ≠ y ∧ Γ.sha256Hex x = Γ.sha256Hex y := by
  by_cases hjson : c.toJson Γ.f64Json = c'.toJson Γ.f64Json
  · exact .inl ((toJson_eq_iff hnumber c c').mp hjson)
  · exact .inr ⟨_, _, fun heq => hjson (String.ofList_injective heq), h⟩

end Tumult.Manual
