import Tumult.Lake.Manual

/-!
# What the mutations of manual evidence do

Each mutation has one of a few effects on the tables, several when it imports, and none when it reports an error.
-/

namespace Tumult.Manual

open Db (Tx Env Later)

variable {Γ : ManualCtx}

/-! ## Content -/

/-- Content with all its required texts and a time. -/
structure Complete {F64 : Type} (c : ManualContent F64) : Prop where
  experimentName : Text.trim c.experimentName ≠ ""
  hypothesis : Text.trim c.hypothesis ≠ ""
  method : Text.trim c.method ≠ ""
  attestation : Text.trim c.attestation ≠ ""
  executedAt : 0 < c.executedAtNs

/-- What `validate` accepts is complete, and has an author. -/
theorem validate_ok {F64 : Type} {new : NewManualExperiment F64} (h : new.validate = .ok ()) :
    Complete new.toManualContent ∧ Text.trim new.enteredBy ≠ "" := by
  unfold NewManualExperiment.validate at h
  split at h
  · cases h
  · rename_i hnone
    split at h
    · cases h
    · rename_i htime
      simp only [List.find?_eq_none, List.mem_cons, List.not_mem_nil, or_false, forall_eq_or_imp, forall_eq,
        decide_eq_true_eq] at hnone
      obtain ⟨hname, hhypothesis, hmethod, hby, hattestation⟩ := hnone
      exact ⟨⟨hname, hhypothesis, hmethod, hattestation, by omega⟩, hby⟩

/-! ## What a mutation does -/

/-- The tables when a record has been replaced and an audit row appended. -/
def ManualDb.amended {F64 : Type} (db : ManualDb F64) (row' : ManualRow F64) (a : ManualAuditRow) : ManualDb F64 :=
  { db with experiments := db.experiments.map fun r => if r.id = row'.id then row' else r, audit := db.audit ++ [a] }

/-- How a record is amended, by an audit row. -/
inductive Amends (db : ManualDb Γ.F64) (row row' : ManualRow Γ.F64) (a : ManualAuditRow) : Prop where
  | edit (hstatus : row.status = .draft) (haction : a.action = .edit) (hstatus' : row'.status = .draft)
      (hreviewed : row'.reviewedBy = row.reviewedBy) (hcomplete : Complete row'.toManualContent)
  | submit (hstatus : row.status = .draft) (haction : a.action = .submit) (hstatus' : row'.status = .submitted)
      (hreviewed : row'.reviewedBy = row.reviewedBy) (hattested : Text.trim row'.attestation ≠ "")
      (hcontent : row'.toManualContent = { row.toManualContent with attestation := row'.attestation })
  | review (hstatus : row.status = .submitted)
      (haction : a.action = .verify ∧ row'.status = .verified ∨ a.action = .reject ∧ row'.status = .rejected)
      (hcontent : row'.toManualContent = row.toManualContent) (hreviewed : row'.reviewedBy = some a.changedBy)
      (hnamed : Text.trim a.changedBy ≠ "") (hother : a.changedBy ≠ row.enteredBy) (hnone : db.contributed row.id a.changedBy = 0)

/-- The effects of mutations. -/
inductive Effect (db : ManualDb Γ.F64) : ManualDb Γ.F64 → Prop where
  | batch (b : ImportBatchRow) : Effect db { db with importBatches := db.importBatches ++ [b] }
  | create (row : ManualRow Γ.F64) (a : ManualAuditRow) (hnew : ∀ r ∈ db.experiments, r.id ≠ row.id)
      (hcomplete : Complete row.toManualContent ∧ Text.trim row.enteredBy ≠ "") (hstatus : row.status = .draft)
      (hreviewed : row.reviewedBy = none) (hhash : row.contentHash = contentHash Γ row.toCanonicalContent)
      (haudit : a.experimentId = row.id ∧ a.changedBy = row.enteredBy ∧ a.action = .create)
      (hchain : a.prevHash = none ∧ a.newHash = row.contentHash) :
      Effect db { db with experiments := db.experiments ++ [row], audit := db.audit ++ [a] }
  | amend (row row' : ManualRow Γ.F64) (a : ManualAuditRow) (hrow : row ∈ db.experiments)
      (hsame : row'.id = row.id ∧ row'.enteredBy = row.enteredBy ∧ row'.enteredAtNs = row.enteredAtNs)
      (hhash : row'.contentHash = rereadHash Γ row') (haudit : a.experimentId = row.id)
      (hchain : a.prevHash = some row.contentHash ∧ a.newHash = row'.contentHash) (hamends : Amends db row row' a) :
      Effect db (db.amended row' a)
  | attach (row : ManualRow Γ.F64) (att : AttachmentRow) (a : ManualAuditRow) (hrow : row ∈ db.experiments)
      (hopen : row.status = .draft ∨ row.status = .submitted)
      (haudit : a.experimentId = row.id ∧ a.action = .attach) (hatt : att.experimentId = row.id ∧ att.addedBy = a.changedBy)
      (hchain : a.prevHash = some row.contentHash ∧ a.newHash = row.contentHash) :
      Effect db { db with attachments := db.attachments ++ [att], audit := db.audit ++ [a] }

/-- Several effects. -/
abbrev Effects (db db' : ManualDb Γ.F64) : Prop := Relation.ReflTransGen (Effect (Γ := Γ)) db db'

/-- The identifiers of the records are different, and were all made before. -/
structure Known (Γ : ManualCtx) (s : Db.Session (ManualDb Γ.F64)) : Prop where
  unique : (s.store.experiments.map (·.id)).Nodup
  made : ∀ r ∈ s.store.experiments, ∃ tick < s.tick, r.id = Γ.ulid tick

/-! ## Programs -/

section

variable {s s' : Db.Session (ManualDb Γ.F64)} {id : String}

theorem fetchFor_ok {action : String} {allowed : Status → Bool} {row : ManualRow Γ.F64}
    (h : fetchFor Γ id action allowed s = (.ok row, s')) :
    s.store.row? Γ id = some row ∧ allowed row.status = true ∧ s' = s.next := by
  obtain ⟨found, s₁, hfetch, hrest⟩ := Db.bind_ok.mp h
  obtain ⟨-, rfl, rfl⟩ := Db.query_ok.mp hfetch
  cases hrow : s.store.row? Γ id with
  | none =>
    rw [hrow] at hrest
    exact absurd hrest Db.throw_ok
  | some row' =>
    rw [hrow] at hrest
    dsimp only at hrest
    split at hrest
    · rename_i hallowed
      obtain ⟨rfl, rfl⟩ := Db.pure_ok.mp hrest
      exact ⟨rfl, hallowed, rfl⟩
    · exact absurd hrest Db.throw_ok

theorem row?_some {db : ManualDb Γ.F64} {row : ManualRow Γ.F64} (h : db.row? Γ id = some row) : row ∈ db.experiments ∧ row.id = id := by
  have hid := List.find?_some h
  exact ⟨List.mem_of_find?_eq_some h, of_decide_eq_true hid⟩

theorem row?_of_mem {db : ManualDb Γ.F64} {row : ManualRow Γ.F64} (hunique : (db.experiments.map (·.id)).Nodup)
    (h : row ∈ db.experiments) : db.row? Γ row.id = some row := by
  cases hfind : db.row? Γ row.id with
  | none =>
    have hnone := List.find?_eq_none.mp hfind row h
    simp at hnone
  | some row' =>
    obtain ⟨hmem, hid⟩ := row?_some hfind
    rw [List.inj_on_of_nodup_map hunique hmem h hid]

/-- One audit row is appended. -/
theorem appendAudit_ok {changedBy newHash : String} {action : AuditAction} {diff : AuditDiff} {prevHash : Option String}
    (h : appendAudit Γ id changedBy action diff prevHash newHash s = (.ok (), s')) :
    ∃ a : ManualAuditRow, a.experimentId = id ∧ a.changedBy = changedBy ∧ a.action = action ∧ a.prevHash = prevHash ∧ a.newHash = newHash ∧
      s' = ⟨{ s.store with audit := s.store.audit ++ [a] }, s.tick + 3⟩ := by
  obtain ⟨auditId, s₁, hid, hrest⟩ := Db.bind_ok.mp h
  obtain ⟨rfl, rfl⟩ := Db.observe_ok.mp hid
  obtain ⟨at_, s₂, hat, hrest⟩ := Db.bind_ok.mp hrest
  obtain ⟨rfl, rfl⟩ := Db.now_ok.mp hat
  obtain ⟨-, st, hst, rfl⟩ := Db.execute_ok.mp hrest
  split at hst
  · cases hst
  · obtain rfl := Option.some.inj hst
    exact ⟨_, rfl, rfl, rfl, rfl, rfl, rfl⟩

/-- A draft is appended, under a new identifier. -/
theorem insertDraft_ok {new : NewManualExperiment Γ.F64} {batchId : Option String} {out : String × String}
    (h : insertDraft Γ new batchId s = (.ok out, s')) :
    ∃ row : ManualRow Γ.F64, row.id = Γ.ulid s.tick ∧ row.id = out.1 ∧ row.contentHash = out.2 ∧ row.status = .draft ∧
      row.toManualContent = new.toManualContent ∧ row.enteredBy = new.enteredBy ∧ row.reviewedBy = none ∧ row.contentHash = contentHash Γ row.toCanonicalContent ∧
      s' = ⟨{ s.store with experiments := s.store.experiments ++ [row] }, s.tick + 3⟩ := by
  obtain ⟨id, s₁, hid, hrest⟩ := Db.bind_ok.mp h
  obtain ⟨rfl, rfl⟩ := Db.observe_ok.mp hid
  obtain ⟨at_, s₂, hat, hrest⟩ := Db.bind_ok.mp hrest
  obtain ⟨rfl, rfl⟩ := Db.now_ok.mp hat
  obtain ⟨_, s₃, hexec, hrest⟩ := Db.bind_ok.mp hrest
  obtain ⟨-, st, hst, rfl⟩ := Db.execute_ok.mp hexec
  obtain rfl := Option.some.inj hst
  obtain ⟨rfl, rfl⟩ := Db.pure_ok.mp hrest
  exact ⟨_, rfl, rfl, rfl, rfl, rfl, rfl, rfl, rfl, rfl⟩

/-- A record that has been changed is read back as changed. -/
theorem row?_updateWhere {db : ManualDb Γ.F64} {row : ManualRow Γ.F64} {change : ManualRow Γ.F64 → ManualRow Γ.F64}
    (hunique : (db.experiments.map (·.id)).Nodup) (hrow : row ∈ db.experiments) (hchange : ∀ r, (change r).id = r.id) :
    ManualDb.row? Γ { db with experiments := Db.updateWhere (·.id = row.id) change db.experiments } row.id = some (change row) := by
  have hfind := Db.find?_updateWhere (p := fun r => r.id = row.id) (q := fun r => r.id = row.id)
    (fun r => by rw [hchange]) db.experiments
  have hrow? := row?_of_mem hunique hrow
  unfold ManualDb.row? at hrow? ⊢
  rw [hfind, hrow?]
  simp

/-- A change of a record and then of its hash replace it. -/
theorem updateWhere_hash {rows : List (ManualRow Γ.F64)} {row : ManualRow Γ.F64} {change : ManualRow Γ.F64 → ManualRow Γ.F64}
    (hunique : (rows.map (·.id)).Nodup) (hrow : row ∈ rows) (hchange : ∀ r, (change r).id = r.id) (hash : String) :
    Db.updateWhere (·.id = row.id) (fun r => { r with contentHash := hash }) (Db.updateWhere (·.id = row.id) change rows) =
      rows.map fun r => if r.id = (change row).id then { change row with contentHash := hash } else r := by
  unfold Db.updateWhere
  rw [List.map_map]
  refine List.map_congr_left fun r hr => ?_
  by_cases hsame : r.id = row.id
  · obtain rfl := List.inj_on_of_nodup_map hunique hr hrow hsame
    simp [hchange]
  · simp [hchange, hsame]

/-- A record is changed, with the hash of what it is read back as, and an audit row is appended. -/
theorem amend_ok {row : ManualRow Γ.F64} {change : ManualRow Γ.F64 → ManualRow Γ.F64} {changedBy : String} {action : AuditAction}
    {diff : AuditDiff} (hunique : (s.store.experiments.map (·.id)).Nodup) (hrow : row ∈ s.store.experiments)
    (hchange : ∀ r, (change r).id = r.id) (h : amend Γ row change changedBy action diff s = (.ok (), s')) :
    ∃ a : ManualAuditRow, a.experimentId = row.id ∧ a.changedBy = changedBy ∧ a.action = action ∧ a.prevHash = some row.contentHash ∧
      a.newHash = rereadHash Γ (change row) ∧ s.tick ≤ s'.tick ∧
      s'.store = s.store.amended { change row with contentHash := rereadHash Γ (change row) } a := by
  obtain ⟨_, s₁, hupdate, hrest⟩ := Db.bind_ok.mp h
  obtain ⟨-, st, hst, rfl⟩ := Db.execute_ok.mp hupdate
  obtain rfl := Option.some.inj hst
  obtain ⟨hash, s₂, hrehash, hrest⟩ := Db.bind_ok.mp hrest
  obtain ⟨found, s₃, hfetch, hfound⟩ := Db.bind_ok.mp hrehash
  obtain ⟨-, rfl, rfl⟩ := Db.query_ok.mp hfetch
  rw [row?_updateWhere hunique hrow hchange] at hfound
  obtain ⟨rfl, rfl⟩ := Db.pure_ok.mp hfound
  obtain ⟨_, s₄, hset, hrest⟩ := Db.bind_ok.mp hrest
  obtain ⟨-, st, hst, rfl⟩ := Db.execute_ok.mp hset
  obtain rfl := Option.some.inj hst
  obtain ⟨a, hid, hby, haction, hprev, hnew, rfl⟩ := appendAudit_ok hrest
  refine ⟨a, hid, hby, haction, hprev, hnew, Nat.le_add_right s.tick 6, ?_⟩
  exact congrArg (fun rows => { s.store with experiments := rows, audit := s.store.audit ++ [a] })
    (updateWhere_hash hunique hrow hchange (rereadHash Γ (change row)))

theorem Known.later (h : Known Γ s) (hrows : s'.store.experiments = s.store.experiments) (htick : s.tick ≤ s'.tick) : Known Γ s' where
  unique := hrows ▸ h.unique
  made r hr := by
    obtain ⟨tick, hlt, hid⟩ := h.made r (hrows ▸ hr)
    exact ⟨tick, by omega, hid⟩

/-- The records of an amended store have the identifiers they had. -/
theorem map_id_amended {db : ManualDb Γ.F64} (row' : ManualRow Γ.F64) (a : ManualAuditRow) :
    (db.amended row' a).experiments.map (·.id) = db.experiments.map (·.id) := by
  unfold ManualDb.amended
  rw [List.map_map]
  refine List.map_congr_left fun r _ => ?_
  by_cases hid : r.id = row'.id <;> simp [hid]

theorem Known.amended (h : Known Γ s) {row' : ManualRow Γ.F64} {a : ManualAuditRow} (hstore : s'.store = s.store.amended row' a)
    (htick : s.tick ≤ s'.tick) : Known Γ s' where
  unique := by
    rw [hstore, map_id_amended]
    exact h.unique
  made r hr := by
    have hmem : r.id ∈ (s.store.amended row' a).experiments.map (·.id) := List.mem_map_of_mem (hstore ▸ hr)
    rw [map_id_amended] at hmem
    obtain ⟨r₀, hr₀, hid⟩ := List.mem_map.mp hmem
    obtain ⟨tick, hlt, hmade⟩ := h.made r₀ hr₀
    exact ⟨tick, by omega, hid ▸ hmade⟩

/-- The amendment of a record that was found is an effect. -/
theorem amend_effect {row : ManualRow Γ.F64} {change : ManualRow Γ.F64 → ManualRow Γ.F64} {changedBy : String} {action : AuditAction}
    {diff : AuditDiff} (h : amend Γ row change changedBy action diff s = (.ok (), s')) (hs : Known Γ s) (hrow : row ∈ s.store.experiments)
    (hchange : ∀ r, (change r).id = r.id) (hsame : (change row).enteredBy = row.enteredBy ∧ (change row).enteredAtNs = row.enteredAtNs)
    (hamends : ∀ a hash, a.changedBy = changedBy → a.action = action →
      Amends s.store row { change row with contentHash := hash } a) : Effects s.store s'.store ∧ Known Γ s' := by
  obtain ⟨a, hid, hby, haction, hprev, hnew, htick, hstore⟩ := amend_ok hs.unique hrow hchange h
  refine ⟨?_, hs.amended hstore htick⟩
  rw [hstore]
  exact .single (.amend row _ a hrow ⟨hchange row, hsame⟩ rfl hid ⟨hprev, hnew⟩ (hamends a _ hby haction))

theorem updateManualDraft_effects {new : NewManualExperiment Γ.F64} {changedBy : String} (hs : Known Γ s)
    (h : updateManualDraft Γ id new changedBy s = (.ok (), s')) : Effects s.store s'.store ∧ Known Γ s' := by
  obtain ⟨_, s₁, hvalid, htx⟩ := Db.bind_ok.mp h
  obtain ⟨hok, rfl⟩ := Db.ofExcept_ok.mp hvalid
  obtain ⟨-, s₂, hbody, -, rfl⟩ := Db.withTx_ok.mp htx
  obtain ⟨row, s₃, hfetch, hamend⟩ := Db.bind_ok.mp hbody
  obtain ⟨hfound, hstatus, rfl⟩ := fetchFor_ok hfetch
  obtain ⟨hrow, -⟩ := row?_some hfound
  have hdraft : row.status = .draft := of_decide_eq_true hstatus
  obtain ⟨heffects, hknown⟩ := amend_effect hamend (hs.later rfl (Nat.le_add_right s₁.tick 2)) hrow (fun _ => rfl) ⟨rfl, rfl⟩
    fun a hash _ haction => .edit hdraft haction hdraft rfl (validate_ok hok).1
  exact ⟨heffects, hknown.later rfl (Nat.le_succ s₂.tick)⟩

theorem submitManual_effects {attestation : Option String} {by_ : String} (hs : Known Γ s)
    (h : submitManual Γ id attestation by_ s = (.ok (), s')) : Effects s.store s'.store ∧ Known Γ s' := by
  obtain ⟨-, s₂, hbody, -, rfl⟩ := Db.withTx_ok.mp h
  obtain ⟨row, s₃, hfetch, hrest⟩ := Db.bind_ok.mp hbody
  obtain ⟨hfound, hstatus, rfl⟩ := fetchFor_ok hfetch
  obtain ⟨hrow, -⟩ := row?_some hfound
  have hdraft : row.status = .draft := of_decide_eq_true hstatus
  obtain ⟨hattested, hamend⟩ := Db.guarded_ok hrest
  obtain ⟨heffects, hknown⟩ := amend_effect hamend (hs.later rfl (Nat.le_add_right s.tick 2)) hrow (fun _ => rfl) ⟨rfl, rfl⟩
    fun a hash _ haction => .submit hdraft haction rfl rfl hattested rfl
  exact ⟨heffects, hknown.later rfl (Nat.le_succ s₂.tick)⟩

theorem review_effects {reviewer : String} {note : Option String} {approve : Bool} (hs : Known Γ s)
    (h : review Γ id reviewer note approve s = (.ok (), s')) : Effects s.store s'.store ∧ Known Γ s' := by
  obtain ⟨-, s₂, hbody, -, rfl⟩ := Db.withTx_ok.mp h
  obtain ⟨row, s₃, hfetch, hrest⟩ := Db.bind_ok.mp hbody
  obtain ⟨hfound, hstatus, rfl⟩ := fetchFor_ok hfetch
  obtain ⟨hrow, rfl⟩ := row?_some hfound
  have hsubmitted : row.status = .submitted := of_decide_eq_true hstatus
  obtain ⟨hnamed, hrest⟩ := Db.guarded_ok hrest
  obtain ⟨contributed, s₄, hquery, hrest⟩ := Db.bind_ok.mp hrest
  obtain ⟨-, rfl, rfl⟩ := Db.query_ok.mp hquery
  obtain ⟨hother, hrest⟩ := Db.guarded_ok hrest
  obtain ⟨hauthor, hnone⟩ := not_or.mp hother
  obtain ⟨at_, s₅, hat, hamend⟩ := Db.bind_ok.mp hrest
  obtain ⟨rfl, rfl⟩ := Db.now_ok.mp hat
  obtain ⟨heffects, hknown⟩ := amend_effect hamend (hs.later rfl (Nat.le_add_right s.tick 4)) hrow (fun _ => rfl) ⟨rfl, rfl⟩
    fun a hash hby haction => by
      subst hby
      refine .review hsubmitted ?_ rfl rfl hnamed hauthor (Nat.eq_zero_of_not_pos hnone)
      cases approve with
      | true => exact .inl ⟨haction, rfl⟩
      | false => exact .inr ⟨haction, rfl⟩
  exact ⟨heffects, hknown.later rfl (Nat.le_succ s₂.tick)⟩

theorem rejectManual_effects {reviewer note : String} (hs : Known Γ s) (h : rejectManual Γ id reviewer note s = (.ok (), s')) :
    Effects s.store s'.store ∧ Known Γ s' := by
  obtain ⟨-, hreview⟩ := Db.guarded_ok h
  exact review_effects hs hreview

theorem addManualAttachment_effects {kind : AttachmentKind} {uri : String} {label fileHash : Option String} {addedBy out : String}
    (hs : Known Γ s) (h : addManualAttachment Γ id kind uri label fileHash addedBy s = (.ok out, s')) :
    Effects s.store s'.store ∧ Known Γ s' := by
  obtain ⟨-, htx⟩ := Db.guarded_ok h
  obtain ⟨-, s₂, hbody, -, rfl⟩ := Db.withTx_ok.mp htx
  obtain ⟨row, s₃, hfetch, hrest⟩ := Db.bind_ok.mp hbody
  obtain ⟨hfound, hstatus, rfl⟩ := fetchFor_ok hfetch
  obtain ⟨hrow, rfl⟩ := row?_some hfound
  have hopen : row.status = .draft ∨ row.status = .submitted := by simpa using hstatus
  obtain ⟨attachmentId, s₄, hid, hrest⟩ := Db.bind_ok.mp hrest
  obtain ⟨rfl, rfl⟩ := Db.observe_ok.mp hid
  obtain ⟨at_, s₅, hat, hrest⟩ := Db.bind_ok.mp hrest
  obtain ⟨rfl, rfl⟩ := Db.now_ok.mp hat
  obtain ⟨_, s₆, hexec, hrest⟩ := Db.bind_ok.mp hrest
  obtain ⟨-, st, hst, rfl⟩ := Db.execute_ok.mp hexec
  split at hst
  · cases hst
  · obtain rfl := Option.some.inj hst
    obtain ⟨_, s₇, haudit, hpure⟩ := Db.bind_ok.mp hrest
    obtain ⟨rfl, rfl⟩ := Db.pure_ok.mp hpure
    obtain ⟨a, ha, hby, haction, hprev, hnew, rfl⟩ := appendAudit_ok haudit
    exact ⟨.single (.attach row _ a hrow hopen ⟨ha, haction⟩ ⟨rfl, hby.symm⟩ ⟨hprev, hnew⟩), hs.later rfl (Nat.le_add_right s.tick 9)⟩

end

/-! ## New records -/

section

variable {s s' : Db.Session (ManualDb Γ.F64)}

/-- A record with a new identifier. -/
theorem nodup_concat {F64 : Type} {rows : List (ManualRow F64)} {row : ManualRow F64} (h : (rows.map (·.id)).Nodup)
    (hnew : ∀ r ∈ rows, r.id ≠ row.id) : ((rows ++ [row]).map (·.id)).Nodup := by
  rw [List.map_append, List.nodup_append']
  refine ⟨h, List.nodup_singleton _, ?_⟩
  intro id hmem hlast
  obtain ⟨r, hr, rfl⟩ := List.mem_map.mp hmem
  exact hnew r hr (List.mem_singleton.mp hlast)

/-- A new draft and its audit row are an effect when identifiers are made once. -/
theorem create_effect (hulid : Function.Injective Γ.ulid) (hs : Known Γ s) {new : NewManualExperiment Γ.F64} {batchId : Option String}
    {out : String × String} {s₁ : Db.Session (ManualDb Γ.F64)} {diff : AuditDiff} (hvalid : new.validate = .ok ())
    (h : insertDraft Γ new batchId s = (.ok out, s₁))
    (haudit : appendAudit Γ out.1 new.enteredBy .create diff none out.2 s₁ = (.ok (), s')) :
    Effects s.store s'.store ∧ Known Γ s' := by
  obtain ⟨row, hid, hout, hhash, hstatus, hcontent, hby, hreviewed, hdigest, rfl⟩ := insertDraft_ok h
  obtain ⟨a, ha, hwho, haction, hprev, hnew, rfl⟩ := appendAudit_ok haudit
  have hfresh : ∀ r ∈ s.store.experiments, r.id ≠ row.id := by
    intro r hr hsame
    obtain ⟨tick, hlt, hmade⟩ := hs.made r hr
    have htick := hulid (hmade.symm.trans (hsame.trans hid))
    omega
  have hcomplete : Complete row.toManualContent ∧ Text.trim row.enteredBy ≠ "" := by
    rw [hcontent, hby]
    exact validate_ok hvalid
  refine ⟨.single (.create row a hfresh hcomplete hstatus hreviewed hdigest ⟨ha.trans hout.symm, hwho.trans hby.symm, haction⟩
    ⟨hprev, hnew.trans hhash.symm⟩), ?_, ?_⟩
  · exact nodup_concat hs.unique hfresh
  · intro r hr
    rcases List.mem_append.mp hr with hr | hr
    · obtain ⟨tick, hlt, hmade⟩ := hs.made r hr
      exact ⟨tick, Nat.lt_add_right 6 hlt, hmade⟩
    · obtain rfl := List.mem_singleton.mp hr
      exact ⟨s.tick, Nat.lt_add_right 5 (Nat.lt_succ_self s.tick), hid⟩

theorem createManualDraft_effects (hulid : Function.Injective Γ.ulid) (hs : Known Γ s) {new : NewManualExperiment Γ.F64} {out : String}
    (h : createManualDraft Γ new s = (.ok out, s')) : Effects s.store s'.store ∧ Known Γ s' := by
  obtain ⟨_, s₁, hvalid, htx⟩ := Db.bind_ok.mp h
  obtain ⟨hok, rfl⟩ := Db.ofExcept_ok.mp hvalid
  obtain ⟨-, s₂, hbody, -, rfl⟩ := Db.withTx_ok.mp htx
  obtain ⟨made, s₃, hinsert, hrest⟩ := Db.bind_ok.mp hbody
  obtain ⟨_, s₄, haudit, hpure⟩ := Db.bind_ok.mp hrest
  obtain ⟨-, rfl⟩ := Db.pure_ok.mp hpure
  have hbegun : Known Γ s₁.next := hs.later rfl (Nat.le_succ s₁.tick)
  obtain ⟨heffects, hknown⟩ := create_effect hulid hbegun hok hinsert haudit
  exact ⟨heffects, hknown.later rfl (Nat.le_succ s₂.tick)⟩

/-- The records of an import are created one after the other. -/
theorem importItems_effects (hulid : Function.Injective Γ.ulid) {batchId : String} {items : List (NewManualExperiment Γ.F64)}
    {out : List String} (hvalid : ∀ item ∈ items, item.validate = .ok ()) (h : importItems Γ batchId items s = (.ok out, s')) (hs : Known Γ s) :
    Effects s.store s'.store ∧ Known Γ s' := by
  induction items generalizing s out with
  | nil =>
    obtain ⟨-, rfl⟩ := Db.pure_ok.mp h
    exact ⟨.refl, hs⟩
  | cons item items ih =>
    obtain ⟨made, s₁, hinsert, hrest⟩ := Db.bind_ok.mp h
    obtain ⟨_, s₂, haudit, hrest⟩ := Db.bind_ok.mp hrest
    obtain ⟨ids, s₃, hitems, hpure⟩ := Db.bind_ok.mp hrest
    obtain ⟨-, rfl⟩ := Db.pure_ok.mp hpure
    obtain ⟨hfirst, hknown⟩ := create_effect hulid hs (hvalid item List.mem_cons_self) hinsert haudit
    obtain ⟨hothers, hknown⟩ := ih (fun item' h => hvalid item' (List.mem_cons_of_mem _ h)) hitems hknown
    exact ⟨hfirst.trans hothers, hknown⟩

theorem forM_validate {items : List (NewManualExperiment Γ.F64)} (h : (items.forM fun item => item.validate) = .ok ()) :
    ∀ item ∈ items, item.validate = .ok () := by
  induction items with
  | nil => exact fun item hitem => absurd hitem List.not_mem_nil
  | cons first items ih =>
    change (first.validate >>= fun _ => items.forM fun item => item.validate) = .ok () at h
    cases hfirst : first.validate with
    | error e =>
      rw [hfirst] at h
      cases h
    | ok u =>
      rw [hfirst] at h
      intro item hitem
      rcases List.mem_cons.mp hitem with rfl | hitem
      · exact hfirst
      · exact ih h item hitem

theorem importManualDrafts_effects (hulid : Function.Injective Γ.ulid) (hs : Known Γ s) {items : List (NewManualExperiment Γ.F64)}
    {label : Option String} {out : String × List String} (h : importManualDrafts Γ items label s = (.ok out, s')) :
    Effects s.store s'.store ∧ Known Γ s' := by
  obtain ⟨-, hrest⟩ := Db.guarded_ok h
  obtain ⟨_, s₁, hvalid, htx⟩ := Db.bind_ok.mp hrest
  obtain ⟨hok, rfl⟩ := Db.ofExcept_ok.mp hvalid
  obtain ⟨-, s₂, hbody, -, rfl⟩ := Db.withTx_ok.mp htx
  obtain ⟨ulid, s₃, hid, hrest⟩ := Db.bind_ok.mp hbody
  obtain ⟨rfl, rfl⟩ := Db.observe_ok.mp hid
  obtain ⟨at_, s₄, hat, hrest⟩ := Db.bind_ok.mp hrest
  obtain ⟨rfl, rfl⟩ := Db.now_ok.mp hat
  obtain ⟨_, s₅, hexec, hrest⟩ := Db.bind_ok.mp hrest
  obtain ⟨-, st, hst, rfl⟩ := Db.execute_ok.mp hexec
  obtain rfl := Option.some.inj hst
  obtain ⟨ids, s₆, hitems, hpure⟩ := Db.bind_ok.mp hrest
  obtain ⟨-, rfl⟩ := Db.pure_ok.mp hpure
  obtain ⟨heffects, hknown⟩ := importItems_effects hulid (forM_validate hok) hitems (hs.later rfl (Nat.le_add_right s₁.tick 4))
  exact ⟨.head (.batch _) heffects, hknown.later rfl (Nat.le_succ s₂.tick)⟩

end

/-! ## Mutations -/

section

variable {s s' : Db.Session (ManualDb Γ.F64)}

theorem review_undone {id reviewer : String} {note : Option String} {approve : Bool} : Db.Undone (review Γ id reviewer note approve) :=
  .withTx

/-- A mutation that reports an error leaves the tables as they were. -/
theorem run_undone (op : ManualOp Γ) : Db.Undone (op.run Γ) := by
  have hvalid (new : NewManualExperiment Γ.F64) : Db.Reads (Db.ofExcept new.validate : ManualTx Γ Unit) fun _ _ => True :=
    .ofExcept fun _ _ _ => trivial
  cases op with
  | create new => exact .map (.after (hvalid new) fun _ => .withTx)
  | update id new changedBy => exact .after (hvalid new) fun _ => .withTx
  | submit id attestation by_ => exact .withTx
  | verify id reviewer note => exact review_undone
  | reject id reviewer note => exact .guarded review_undone
  | attach experimentId kind uri label fileHash addedBy => exact .map (.guarded .withTx)
  | importDrafts items label =>
    have hitems : Db.Reads (Db.ofExcept (items.forM fun item => item.validate) : ManualTx Γ Unit) fun _ _ => True :=
      .ofExcept fun _ _ _ => trivial
    exact .map (.guarded (.after hitems fun _ => .withTx))

theorem appendAudit_later {id changedBy newHash : String} {action : AuditAction} {diff : AuditDiff} {prevHash : Option String} :
    Db.Later (appendAudit Γ id changedBy action diff prevHash newHash) := .bind .observe fun _ => .bind .now fun _ => .execute

theorem insertDraft_later {new : NewManualExperiment Γ.F64} {batchId : Option String} : Db.Later (insertDraft Γ new batchId) :=
  .bind .observe fun _ => .bind .now fun _ => .bind .execute fun _ => .pure

theorem fetchFor_later {id action : String} {allowed : Status → Bool} : Db.Later (fetchFor Γ id action allowed) := by
  refine .bind .query fun found => ?_
  cases found with
  | none => exact .throw
  | some row =>
    dsimp only
    split
    · exact .pure
    · exact .throw

theorem rehash_later {id : String} : Db.Later (rehash Γ id) := by
  refine .bind .query fun found => ?_
  cases found with
  | none => exact .throw
  | some row => exact .pure

theorem amend_later {row : ManualRow Γ.F64} {change : ManualRow Γ.F64 → ManualRow Γ.F64} {changedBy : String} {action : AuditAction}
    {diff : AuditDiff} : Db.Later (amend Γ row change changedBy action diff) :=
  .bind .execute fun _ => .bind rehash_later fun _ => .bind .execute fun _ => appendAudit_later

theorem importItems_later {batchId : String} (items : List (NewManualExperiment Γ.F64)) : Db.Later (importItems Γ batchId items) := by
  induction items with
  | nil => exact .pure
  | cons item items ih =>
    exact .bind insertDraft_later fun _ => .bind appendAudit_later fun _ => .bind ih fun _ => .pure

theorem review_later {id reviewer : String} {note : Option String} {approve : Bool} : Db.Later (review Γ id reviewer note approve) :=
  .withTx (.bind fetchFor_later fun _ => .guarded (.bind .query fun _ => .guarded (.bind .now fun _ => amend_later)))

/-- A mutation takes time, whatever it returns. -/
theorem run_later (op : ManualOp Γ) : Db.Later (op.run Γ) := by
  cases op with
  | create new =>
    exact .bind (.bind .ofExcept fun _ => .withTx (.bind insertDraft_later fun _ => .bind appendAudit_later fun _ => .pure)) fun _ => .pure
  | update id new changedBy => exact .bind .ofExcept fun _ => .withTx (.bind fetchFor_later fun _ => amend_later)
  | submit id attestation by_ => exact .withTx (.bind fetchFor_later fun _ => .guarded amend_later)
  | verify id reviewer note => exact review_later
  | reject id reviewer note => exact .guarded review_later
  | attach experimentId kind uri label fileHash addedBy =>
    exact .bind (.guarded (.withTx (.bind fetchFor_later fun _ => .bind .observe fun _ => .bind .now fun _ => .bind .execute fun _ =>
      .bind appendAudit_later fun _ => .pure))) fun _ => .pure
  | importDrafts items label =>
    exact .bind (.guarded (.bind .ofExcept fun _ => .withTx (.bind .observe fun _ => .bind .now fun _ => .bind .execute fun _ =>
      .bind (importItems_later items) fun _ => .pure))) fun _ => .pure

/-- What a mutation does to the tables: some effects, or nothing. -/
theorem run_effects (hulid : Function.Injective Γ.ulid) (hs : Known Γ s) (op : ManualOp Γ) :
    Effects s.store (Db.after (op.run Γ) s).store ∧ Known Γ (Db.after (op.run Γ) s) := by
  have hlater := run_later op s
  have hundone := run_undone op s
  unfold Db.after
  rcases hrun : op.run Γ s with ⟨e | u, s'⟩
  · rw [hrun] at hlater
    have hstore := hundone e s' hrun
    exact ⟨hstore ▸ .refl, hs.later (congrArg ManualDb.experiments hstore) hlater⟩
  · cases op with
    | create new =>
      obtain ⟨out, s₁, hcreate, hpure⟩ := Db.bind_ok.mp hrun
      obtain ⟨-, rfl⟩ := Db.pure_ok.mp hpure
      exact createManualDraft_effects hulid hs hcreate
    | update id new changedBy => exact updateManualDraft_effects hs hrun
    | submit id attestation by_ => exact submitManual_effects hs hrun
    | verify id reviewer note => exact review_effects hs hrun
    | reject id reviewer note => exact rejectManual_effects hs hrun
    | attach experimentId kind uri label fileHash addedBy =>
      obtain ⟨out, s₁, hattach, hpure⟩ := Db.bind_ok.mp hrun
      obtain ⟨-, rfl⟩ := Db.pure_ok.mp hpure
      exact addManualAttachment_effects hs hattach
    | importDrafts items label =>
      obtain ⟨out, s₁, himport, hpure⟩ := Db.bind_ok.mp hrun
      obtain ⟨-, rfl⟩ := Db.pure_ok.mp hpure
      exact importManualDrafts_effects hulid hs himport

/-- What a run of mutations does. -/
theorem runOps_effects (hulid : Function.Injective Γ.ulid) (ops : List (ManualOp Γ)) (hs : Known Γ s) :
    Effects s.store (runOps Γ ops s).store ∧ Known Γ (runOps Γ ops s) := by
  induction ops generalizing s with
  | nil => exact ⟨.refl, hs⟩
  | cons op ops ih =>
    obtain ⟨hfirst, hknown⟩ := run_effects hulid hs op
    obtain ⟨hothers, hknown⟩ := ih hknown
    exact ⟨hfirst.trans hothers, hknown⟩

end

end Tumult.Manual
