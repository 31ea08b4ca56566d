import Tumult.Lake.Audit

/-!
# What the audit chain guarantees

Two statements about `verifyRunAuditChain`. An accepted trail is determined by the hash of its last chained row
(`chainedRows_eq_of_last_hash`). A trail written by `insert_run_audit` alone is accepted exactly when the clock never went
backward between two events of the run (`verifyRunAuditChain_insertAudits_iff`): the insert chains on the row with the latest
time, the verifier on the row before in time, and the two are one row only while the times never decrease.
-/

namespace Tumult

variable {Γ : Ctx}

/-- The verifier accepts a trail exactly when its chained rows, in its order, form a hash chain. -/
theorem verifyRunAuditChain_iff_linked (table : List AuditRow) (runId : String) :
    verifyRunAuditChain Γ table runId = true ↔ HashChain.Linked (auditChainHash Γ) none (auditLinks table runId) :=
  verifyLinks_iff Γ (fun _ hr => (mem_auditOf.mp (mem_byAtNs.mp hr)).2) none

/-! ## A sample trail -/

/-- Two events of one run: enqueued, then claimed for validation. -/
def sampleEvents : List AuditEvent :=
  [⟨"run-1", 1700000000000000000, "enqueued", none, some "alice"⟩, ⟨"run-1", 1700000000000000005, "validating", none, none⟩]

/-- The SHA-256 digest of the first sample link. -/
def sampleHash : String := "66022ce286536a75f3a25480edb5f3a089e59fbb4c3b53daaa9cd4d0f03b727d"

/-- The SHA-256 digest of the second sample link, which chains on the first. -/
def sampleHash' : String := "e0533c018b7c7f1ea5f2667e5986b0ac5a03e93159d26ab12fa722c81e7a358c"

/-- The canonical JSON of the first sample link. -/
def sampleJson : String := String.ofList (AuditLink.toJson ⟨⟨"run-1", 1700000000000000000, "enqueued", none, some "alice"⟩, none⟩)

/-- The canonical JSON of the second sample link. -/
def sampleJson' : String :=
  String.ofList (AuditLink.toJson ⟨⟨"run-1", 1700000000000000005, "validating", none, none⟩, some sampleHash⟩)

/-- A collision-free digest that is SHA-256 on the two sample links. -/
def sampleSha256Hex (s : String) : String :=
  if s = sampleJson then sampleHash else if s = sampleJson' then sampleHash' else "x" ++ s

/-- A store with that digest. -/
def sampleCtx : Ctx where
  sha256Hex := sampleSha256Hex
  clock := fun n => 1700000000000000000 + n
  fails := fun _ => false

/-- The sample digest is collision-free: off the two sample links it marks its argument with a letter no digest starts with. -/
theorem sampleSha256Hex_injective : Function.Injective sampleSha256Hex := by
  have hmark : ∀ s : String, "x" ++ s ≠ sampleHash ∧ "x" ++ s ≠ sampleHash' := by
    intro s
    constructor <;> intro h <;> simpa [sampleHash, sampleHash'] using congrArg (fun t => t.toList.head?) h
  have hne : sampleHash ≠ sampleHash' := by decide
  intro a b h
  simp only [sampleSha256Hex] at h
  split_ifs at h with ha hb hb' ha' hb hb' hb hb'
  · rw [ha, hb]
  · exact absurd h hne
  · exact absurd h.symm (hmark b).1
  · exact absurd h.symm hne
  · rw [ha', hb']
  · exact absurd h.symm (hmark b).2
  · exact absurd h (hmark a).1
  · exact absurd h (hmark a).2
  · exact String.toList_inj.mp (by simpa using congrArg String.toList h)

/-- The first sample link hashes to its SHA-256 digest. -/
theorem auditChainHash_sample :
    auditChainHash sampleCtx ⟨"run-1", 1700000000000000000, "enqueued", none, some "alice"⟩ none = sampleHash := by
  have hsha : sampleSha256Hex sampleJson = sampleHash := if_pos rfl
  simpa only [auditChainHash, sampleCtx, sampleJson] using hsha

/-- The second sample link hashes to its SHA-256 digest. -/
theorem auditChainHash_sample' :
    auditChainHash sampleCtx ⟨"run-1", 1700000000000000005, "validating", none, none⟩ (some sampleHash) = sampleHash' := by
  have hne : sampleJson' ≠ sampleJson := by
    intro h
    have hlink := AuditLink.toJson_injective (String.ofList_injective h)
    exact absurd (congrArg AuditLink.prevHash hlink) (by simp)
  have hsha : sampleSha256Hex sampleJson' = sampleHash' := by rw [sampleSha256Hex, if_neg hne, if_pos rfl]
  simpa only [auditChainHash, sampleCtx, sampleJson'] using hsha

/-- The rows the sample events leave. -/
theorem insertAudits_sample : insertAudits sampleCtx [] sampleEvents =
    [⟨⟨"run-1", 1700000000000000000, "enqueued", none, some "alice"⟩, none, some sampleHash⟩,
      ⟨⟨"run-1", 1700000000000000005, "validating", none, none⟩, some sampleHash, some sampleHash'⟩] := by
  simp [insertAudits, sampleEvents, insertAudit, latestHash, byAtNsDesc, auditOf, auditChainHash_sample,
    auditChainHash_sample']

/-! ## Tamper evidence -/

/-- Two accepted trails of a run whose last chained rows carry the same hash (or that hold no chained row) hold the same
chained rows in the same order, whatever legacy rows stand between them. -/
theorem chainedRows_eq_of_last_hash (hinj : Function.Injective Γ.sha256Hex) (table table' : List AuditRow) (runId : String)
    (hv : verifyRunAuditChain Γ table runId = true) (hv' : verifyRunAuditChain Γ table' runId = true)
    (hlast : (chainedRows table runId).getLast?.map AuditRow.newHash =
      (chainedRows table' runId).getLast?.map AuditRow.newHash) :
    chainedRows table runId = chainedRows table' runId := by
  have hl := (verifyRunAuditChain_iff_linked table runId).mp hv
  have hl' := (verifyRunAuditChain_iff_linked table' runId).mp hv'
  have hend : HashChain.lastHash none (auditLinks table runId) = HashChain.lastHash none (auditLinks table' runId) := by
    rw [chainedRows_eq, chainedRows_eq, List.getLast?_map, List.getLast?_map, Option.map_map, Option.map_map] at hlast
    simp only [HashChain.lastHash, Option.or_none]
    cases h : (auditLinks table runId).getLast? <;> cases h' : (auditLinks table' runId).getLast? <;>
      simp_all [AuditRow.ofLink]
  rw [chainedRows_eq, chainedRows_eq, hl.eq_of_last (auditChainHash_injective hinj) hl' hend]

/-- The sample trail, and the same trail behind a legacy row that the verifier skips. -/
theorem chainedRows_sample_legacy :
    chainedRows (insertAudits sampleCtx [] sampleEvents) "run-1" =
      chainedRows (⟨⟨"run-1", 1600000000000000000, "enqueued", none, none⟩, none, none⟩ ::
        insertAudits sampleCtx [] sampleEvents) "run-1" := by
  refine chainedRows_eq_of_last_hash (Γ := sampleCtx) sampleSha256Hex_injective _ _ _ ?_ ?_ ?_
  · simp [insertAudits_sample, verifyRunAuditChain, byAtNs, auditOf, verifyLinks, auditChainHash_sample,
      auditChainHash_sample']
  · simp [insertAudits_sample, verifyRunAuditChain, byAtNs, auditOf, verifyLinks, auditChainHash_sample,
      auditChainHash_sample']
  · simp [insertAudits_sample, chainedRows, byAtNs, auditOf]

/-! ## Trails written by the insert -/

namespace AuditChainAux

/-- The row an insert appends. -/
def rowOf (Γ : Ctx) (table : List AuditRow) (e : AuditEvent) : AuditRow :=
  { e with prevHash := latestHash table e.runId, newHash := some (auditChainHash Γ e (latestHash table e.runId)) }

theorem insertAudits_concat (table : List AuditRow) (events : List AuditEvent) (e : AuditEvent) :
    insertAudits Γ table (events ++ [e]) = insertAudits Γ table events ++ [rowOf Γ (insertAudits Γ table events) e] := by
  simp [insertAudits, insertAudit, rowOf]

/-- Later inserts only append. -/
theorem insertAudits_append (table : List AuditRow) (events events' : List AuditEvent) :
    insertAudits Γ table events <+: insertAudits Γ table (events ++ events') := by
  induction events' using List.reverseRecOn with
  | nil => simp
  | append_singleton events' e ih =>
    rw [← List.append_assoc, insertAudits_concat]
    exact ih.trans (List.prefix_append _ _)

/-- Every inserted row carries the hash of its own content. -/
theorem newHash_of_mem_insertAudits {events : List AuditEvent} {r : AuditRow} (hr : r ∈ insertAudits Γ [] events) :
    r.newHash = some (auditChainHash Γ r.toAuditEvent r.prevHash) := by
  induction events using List.reverseRecOn with
  | nil => simp [insertAudits] at hr
  | append_singleton events e ih =>
    rw [insertAudits_concat, List.mem_append, List.mem_singleton] at hr
    rcases hr with hr | rfl
    · exact ih hr
    · rfl

/-- The rows of a run are the events inserted for it, in the order of the inserts. -/
theorem auditOf_insertAudits_events (events : List AuditEvent) (runId : String) :
    (auditOf (insertAudits Γ [] events) runId).map AuditRow.toAuditEvent = events.filter (fun e => e.runId = runId) := by
  induction events using List.reverseRecOn with
  | nil => rfl
  | append_singleton events e ih =>
    rw [insertAudits_concat, auditOf, List.filter_append, List.map_append, List.filter_append]
    refine congrArg₂ _ ih ?_
    by_cases he : e.runId = runId <;> simp [rowOf, he]

/-- An insert adds its row to the trail of its run. -/
theorem auditOf_insertAudits_concat (events : List AuditEvent) (e : AuditEvent) (runId : String) :
    auditOf (insertAudits Γ [] (events ++ [e])) runId = auditOf (insertAudits Γ [] events) runId ++
      if e.runId = runId then [rowOf Γ (insertAudits Γ [] events) e] else [] := by
  rw [insertAudits_concat, auditOf, List.filter_append, ← auditOf]
  by_cases he : e.runId = runId <;> simp [rowOf, he]

/-- The latest hash of a run that has a row is the hash of a row at least as late as every row of the run. -/
theorem latestHash_of_mem {table : List AuditRow} {runId : String} {r : AuditRow} (hr : r ∈ auditOf table runId) :
    ∃ q ∈ auditOf table runId, latestHash table runId = q.newHash ∧ r.atNs ≤ q.atNs := by
  have hsort := pairwise_byAtNsDesc (auditOf table runId)
  have hr' := mem_byAtNsDesc.mpr hr
  cases hd : byAtNsDesc (auditOf table runId) with
  | nil => simp [hd] at hr'
  | cons q rest =>
    rw [hd] at hsort hr'
    refine ⟨q, mem_byAtNsDesc.mp (by simp [hd]), by simp [latestHash, hd], ?_⟩
    rcases List.mem_cons.mp hr' with rfl | hr'
    · exact le_refl _
    · exact (List.pairwise_cons.mp hsort).1 r hr'

/-- Rows whose times never decrease are walked in the order of their inserts. -/
theorem byAtNs_of_pairwise {rows : List AuditRow} (h : rows.Pairwise (fun a b => a.atNs ≤ b.atNs)) : byAtNs rows = rows :=
  h.insertionSort_eq

/-- When the times of a run never decrease, the next insert chains on the run's last row. -/
theorem latestHash_of_pairwise {table : List AuditRow} {runId : String}
    (h : (auditOf table runId).Pairwise (fun a b => a.atNs ≤ b.atNs)) :
    latestHash table runId = (auditOf table runId).getLast?.bind AuditRow.newHash := by
  have hdesc : byAtNsDesc (auditOf table runId) = (auditOf table runId).reverse :=
    (List.pairwise_reverse.mpr h).insertionSort_eq
  rw [latestHash, hdesc, List.head?_reverse]

/-- Rows that all carry a hash end in the hash of the last one. -/
theorem lastHash_filterMap_link {rows : List AuditRow} (h : ∀ r ∈ rows, r.newHash.isSome) :
    HashChain.lastHash none (rows.filterMap AuditRow.link?) = rows.getLast?.bind AuditRow.newHash := by
  cases rows using List.reverseRecOn with
  | nil => rfl
  | append_singleton rows r =>
    obtain ⟨e, p, hash⟩ := r
    obtain ⟨hash, rfl⟩ := Option.isSome_iff_exists.mp (h ⟨e, p, hash⟩ (by simp))
    simp [List.filterMap_append]

/-- Inserts at times that never decrease write a hash chain (induction on the inserts, from the end). -/
theorem linked_of_pairwise {events : List AuditEvent} {runId : String}
    (h : (auditOf (insertAudits Γ [] events) runId).Pairwise (fun a b => a.atNs ≤ b.atNs)) :
    HashChain.Linked (auditChainHash Γ) none ((auditOf (insertAudits Γ [] events) runId).filterMap AuditRow.link?) := by
  induction events using List.reverseRecOn with
  | nil => trivial
  | append_singleton events e ih =>
    rw [auditOf_insertAudits_concat] at h ⊢
    have hinit := (List.pairwise_append.mp h).1
    by_cases he : e.runId = runId
    · rw [if_pos he, List.filterMap_append]
      refine (HashChain.linked_concat_iff _ _ _ _).mpr ⟨ih hinit, ?_, rfl⟩
      have hchained : ∀ r ∈ auditOf (insertAudits Γ [] events) runId, r.newHash.isSome := by
        intro r hr
        rw [newHash_of_mem_insertAudits (mem_auditOf.mp hr).1]
        rfl
      rw [lastHash_filterMap_link hchained, ← latestHash_of_pairwise hinit, ← he]
      rfl
    · rw [if_neg he, List.append_nil]
      exact ih hinit

/-- A link of an accepted trail that names the hash of a row of the trail does not stand before that row in time: the verifier
finds the row right before the link, and under an injective digest no other row has its hash. -/
theorem atNs_le_of_prev {table : List AuditRow} {runId : String} (hinj : Function.Injective Γ.sha256Hex)
    (hl : HashChain.Linked (auditChainHash Γ) none (auditLinks table runId)) {r : AuditRow} (hr : r ∈ auditOf table runId)
    (hhash : r.newHash.isSome) {q : AuditEvent} {p : Option String} (hprev : r.prevHash = some (auditChainHash Γ q p)) :
    q.atNs ≤ r.atNs := by
  have hsort := pairwise_byAtNs (auditOf table runId)
  obtain ⟨before, after, hsplit⟩ := List.append_of_mem (mem_byAtNs.mpr hr)
  obtain ⟨e, prev, hash⟩ := r
  obtain ⟨hash, rfl⟩ := Option.isSome_iff_exists.mp hhash
  have hlinks : auditLinks table runId =
      before.filterMap AuditRow.link? ++ ⟨e, prev, hash⟩ :: after.filterMap AuditRow.link? := by
    rw [auditLinks, hsplit, List.filterMap_append, List.filterMap_cons, AuditRow.link?_chained]
  have hlast := hl.prev_mem hlinks
  simp only at hprev hlast
  rw [hprev] at hlast
  cases hb : before.filterMap AuditRow.link? using List.reverseRecOn with
  | nil => rw [hb] at hlast; simp at hlast
  | append_singleton init l =>
    rw [hb, HashChain.lastHash_concat, Option.some.injEq] at hlast
    have hmem : l ∈ before.filterMap AuditRow.link? := by simp [hb]
    have hlmem : l ∈ auditLinks table runId := by rw [hlinks]; exact List.mem_append_left _ hmem
    rw [hl.hash_eq hlmem] at hlast
    obtain ⟨hbody, -⟩ := auditChainHash_injective hinj hlast
    obtain ⟨x, hx, hxl⟩ := List.mem_filterMap.mp hmem
    have hxe : x.toAuditEvent = l.body := by
      obtain ⟨xe, xp, xh⟩ := x
      cases xh with
      | none => simp at hxl
      | some xh => simp only [AuditRow.link?_chained, Option.some.injEq] at hxl; rw [← hxl]
    rw [hsplit] at hsort
    have hle : x.atNs ≤ e.atNs := (List.pairwise_append.mp hsort).2.2 x hx _ List.mem_cons_self
    rw [hbody, ← hxe]
    exact hle

/-- The times of the run's rows, when the verifier accepts what the inserts wrote, never decrease (induction on the inserts,
from the end: the last row chains on the latest row, which an accepting verifier has before it in time). -/
theorem pairwise_of_linked (hinj : Function.Injective Γ.sha256Hex) {table : List AuditRow} {runId : String}
    (hl : HashChain.Linked (auditChainHash Γ) none (auditLinks table runId)) {events : List AuditEvent}
    (hpre : insertAudits Γ [] events <+: table) :
    (auditOf (insertAudits Γ [] events) runId).Pairwise (fun a b => a.atNs ≤ b.atNs) := by
  induction events using List.reverseRecOn with
  | nil => exact List.Pairwise.nil
  | append_singleton events e ih =>
    have hgrow := insertAudits_append (Γ := Γ) [] events [e]
    have ih := ih (hgrow.trans hpre)
    have hmem := (hpre.sublist.filter (fun r => r.runId = runId)).subset
    rw [← auditOf, ← auditOf, auditOf_insertAudits_concat] at hmem
    rw [auditOf_insertAudits_concat]
    by_cases he : e.runId = runId
    · rw [if_pos he] at hmem ⊢
      refine List.pairwise_append.mpr ⟨ih, List.pairwise_singleton _ _, ?_⟩
      intro r hr x hx
      obtain rfl := List.mem_singleton.mp hx
      obtain ⟨q, hq, hlatest, hrq⟩ := latestHash_of_mem hr
      rw [newHash_of_mem_insertAudits (mem_auditOf.mp hq).1] at hlatest
      exact hrq.trans (atNs_le_of_prev hinj hl (hmem (by simp)) rfl (by rw [← hlatest, ← he]; rfl))
    · rw [if_neg he, List.append_nil]
      exact ih

/-- The times of a run's rows are the clock readings of its inserts. -/
theorem pairwise_auditOf_iff (events : List AuditEvent) (runId : String) :
    (auditOf (insertAudits Γ [] events) runId).Pairwise (fun a b => a.atNs ≤ b.atNs) ↔
      ((events.filter (fun e => e.runId = runId)).map AuditEvent.atNs).Pairwise (· ≤ ·) := by
  rw [← auditOf_insertAudits_events (Γ := Γ), List.map_map, List.pairwise_map]
  rfl

end AuditChainAux

open AuditChainAux in
/-- A trail written by inserts alone is accepted exactly when the clock readings of the run's inserts never decrease. -/
theorem verifyRunAuditChain_insertAudits_iff (hinj : Function.Injective Γ.sha256Hex) (events : List AuditEvent)
    (runId : String) :
    verifyRunAuditChain Γ (insertAudits Γ [] events) runId = true ↔
      ((events.filter (fun e => e.runId = runId)).map AuditEvent.atNs).Pairwise (· ≤ ·) := by
  rw [verifyRunAuditChain_iff_linked, ← pairwise_auditOf_iff]
  constructor
  · intro hl
    exact pairwise_of_linked hinj hl (List.prefix_refl _)
  · intro h
    rw [auditLinks, byAtNs_of_pairwise h]
    exact linked_of_pairwise h

/-- The sample trail is accepted. -/
theorem verifyRunAuditChain_sample : verifyRunAuditChain sampleCtx (insertAudits sampleCtx [] sampleEvents) "run-1" = true :=
  (verifyRunAuditChain_insertAudits_iff (Γ := sampleCtx) sampleSha256Hex_injective sampleEvents "run-1").mpr (by decide)

/-- Two honest inserts, the second after the clock was set back: the verifier rejects the trail, whatever the digest. -/
theorem verifyRunAuditChain_backward_false :
    ¬ ∃ Γ : Ctx, verifyRunAuditChain Γ (insertAudits Γ []
      [⟨"run-1", 10, "enqueued", none, none⟩, ⟨"run-1", 5, "validating", none, none⟩]) "run-1" = true := by
  rintro ⟨Γ, h⟩
  have hfalse : verifyRunAuditChain Γ (insertAudits Γ []
      [⟨"run-1", 10, "enqueued", none, none⟩, ⟨"run-1", 5, "validating", none, none⟩]) "run-1" = false := rfl
  rw [hfalse] at h
  exact Bool.false_ne_true h

end Tumult
