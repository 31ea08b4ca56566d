import Tumult.Lib.Db
import Tumult.Lib.Json
import Tumult.Lib.HashChain

/-!
# The run audit trail

`run_audit` is an append-only table; every row of it is a link in a hash chain per run (schema v7). This file holds the table's
rows, the hash of a link, the insert and the verifier, and reads a run's chained rows as the links of a hash chain.
-/

namespace Tumult

/-- What the store takes from outside: the readings of the wall clock, which statements the database refuses, and the digest it
hashes with. -/
structure Ctx extends Db.Env where
  sha256Hex : String → String

/-- The content of one event of a run's trail. -/
structure AuditEvent where
  runId : String
  atNs : Int
  event : String
  detail : Option String
  actor : Option String
  deriving DecidableEq, Repr

/-- One link of the `run_audit` hash chain: the event and the previous link's hash. -/
structure AuditLink extends AuditEvent where
  prevHash : Option String
  deriving DecidableEq, Repr

/-- One row of `run_audit`. Rows written before schema v7 carry no hashes. -/
structure AuditRow extends AuditEvent where
  prevHash : Option String
  newHash : Option String
  deriving DecidableEq, Repr

/-! ## The hash of a link -/

/-- The canonical JSON of a link: the fields in declaration order, absent ones as nulls. -/
def AuditLink.toJson (l : AuditLink) : List Char :=
  open JsonText in
  field "\x7b\"run_id\":" (quote l.runId) ++ (field ",\"at_ns\":" (intComma l.atNs) ++
    (field "\"event\":" (quote l.event) ++ (field ",\"detail\":" (quoteOrNull l.detail) ++
      (field ",\"actor\":" (quoteOrNull l.actor) ++ (field ",\"prev_hash\":" (quoteOrNull l.prevHash) ++ ['\x7d'])))))

/-- The `new_hash` of one row: the digest of the event's content and the previous link's hash. -/
def auditChainHash (Γ : Ctx) (e : AuditEvent) (prevHash : Option String) : String :=
  Γ.sha256Hex (String.ofList (AuditLink.toJson { e with prevHash := prevHash }))

/-- The canonical JSON of a link determines the link: its fields are read back one after the other. -/
theorem AuditLink.toJson_injective : Function.Injective AuditLink.toJson := by
  intro a b h
  obtain ⟨hrun, h⟩ := JsonText.quote_prefixFree.field _ _ _ _ _ h
  obtain ⟨hat, h⟩ := JsonText.intComma_prefixFree.field _ _ _ _ _ h
  obtain ⟨hevent, h⟩ := JsonText.quote_prefixFree.field _ _ _ _ _ h
  obtain ⟨hdetail, h⟩ := JsonText.quoteOrNull_prefixFree.field _ _ _ _ _ h
  obtain ⟨hactor, h⟩ := JsonText.quoteOrNull_prefixFree.field _ _ _ _ _ h
  obtain ⟨hprev, -⟩ := JsonText.quoteOrNull_prefixFree.field _ _ _ _ _ h
  obtain ⟨⟨run, atNs, event, detail, actor⟩, prev⟩ := a
  obtain ⟨⟨run', atNs', event', detail', actor'⟩, prev'⟩ := b
  simp only at hrun hat hevent hdetail hactor hprev
  rw [hrun, hat, hevent, hdetail, hactor, hprev]

/-- Under an injective digest the hash of a link determines the event and the previous link's hash. -/
theorem auditChainHash_injective {Γ : Ctx} (hinj : Function.Injective Γ.sha256Hex) :
    Function.Injective2 (auditChainHash Γ) := by
  intro e e' p p' h
  have hlink := AuditLink.toJson_injective (String.ofList_injective (hinj h))
  simp only [AuditLink.mk.injEq] at hlink
  exact hlink

/-! ## Inserting and verifying -/

/-- `ORDER BY at_ns, rowid`: a stable sort of rows that stand in the order of their row ids. -/
def byAtNs (rows : List AuditRow) : List AuditRow := rows.insertionSort (fun a b => a.atNs ≤ b.atNs)

/-- `ORDER BY at_ns DESC, rowid DESC`. -/
def byAtNsDesc (rows : List AuditRow) : List AuditRow := rows.reverse.insertionSort (fun a b => b.atNs ≤ a.atNs)

/-- The rows of one run. -/
def auditOf (table : List AuditRow) (runId : String) : List AuditRow := table.filter (fun r => r.runId = runId)

/-- The hash a new row of the run chains on: the `new_hash` of the run's latest row, `None` when the run has no row. -/
def latestHash (table : List AuditRow) (runId : String) : Option String :=
  (byAtNsDesc (auditOf table runId)).head?.bind (·.newHash)

/-- `insert_run_audit` at the clock reading `e.atNs`, when its two statements succeed. -/
def insertAudit (Γ : Ctx) (table : List AuditRow) (e : AuditEvent) : List AuditRow :=
  let prevHash := latestHash table e.runId
  table ++ [{ e with prevHash := prevHash, newHash := some (auditChainHash Γ e prevHash) }]

/-- The table after a sequence of inserts, each at its own clock reading. -/
def insertAudits (Γ : Ctx) (table : List AuditRow) (events : List AuditEvent) : List AuditRow :=
  events.foldl (insertAudit Γ) table

/-- The verifier's loop over the sorted rows; `expectedPrev` is the hash the next chained row has to name. -/
def verifyLinks (Γ : Ctx) (runId : String) : Option String → List AuditRow → Bool
  | _, [] => true
  | expectedPrev, row :: rows =>
    match row.newHash with
    | none => verifyLinks Γ runId expectedPrev rows -- legacy pre-v7 row
    | some newHash =>
      if row.prevHash ≠ expectedPrev then false
      else if auditChainHash Γ { row.toAuditEvent with runId := runId } row.prevHash ≠ newHash then false
      else verifyLinks Γ runId (some newHash) rows

/-- Re-verify a run's audit hash chain. -/
def verifyRunAuditChain (Γ : Ctx) (table : List AuditRow) (runId : String) : Bool :=
  verifyLinks Γ runId none (byAtNs (auditOf table runId))

/-- One table is the other after further inserts. -/
def AuditGrows (Γ : Ctx) (table table' : List AuditRow) : Prop := ∃ events, table' = insertAudits Γ table events

/-- No insert at all. -/
theorem AuditGrows.refl (Γ : Ctx) (table : List AuditRow) : AuditGrows Γ table table := ⟨[], rfl⟩

/-- One insert. -/
theorem AuditGrows.one (Γ : Ctx) (table : List AuditRow) (e : AuditEvent) : AuditGrows Γ table (insertAudit Γ table e) :=
  ⟨[e], rfl⟩

/-- Inserts followed by inserts. -/
theorem AuditGrows.trans {Γ : Ctx} {a b c : List AuditRow} (h : AuditGrows Γ a b) (h' : AuditGrows Γ b c) :
    AuditGrows Γ a c := by
  obtain ⟨es, rfl⟩ := h
  obtain ⟨es', rfl⟩ := h'
  exact ⟨es ++ es', by simp [insertAudits]⟩

/-! ## The chained rows as a hash chain -/

/-- A chained row as a link; a legacy row is none. -/
def AuditRow.link? (r : AuditRow) : Option (HashChain.Link AuditEvent String) :=
  r.newHash.map (fun h => ⟨r.toAuditEvent, r.prevHash, h⟩)

/-- The row a link was read from. -/
def AuditRow.ofLink (l : HashChain.Link AuditEvent String) : AuditRow :=
  { l.body with prevHash := l.prev, newHash := some l.hash }

/-- The chained rows of a run's trail, in the order the verifier walks them. -/
def chainedRows (table : List AuditRow) (runId : String) : List AuditRow :=
  (byAtNs (auditOf table runId)).filter (fun r => r.newHash.isSome)

/-- The links of a run's trail, in the order the verifier walks them. -/
def auditLinks (table : List AuditRow) (runId : String) : List (HashChain.Link AuditEvent String) :=
  (byAtNs (auditOf table runId)).filterMap AuditRow.link?

/-- A legacy row is no link. -/
@[simp] theorem AuditRow.link?_legacy (e : AuditEvent) (p : Option String) : AuditRow.link? ⟨e, p, none⟩ = none := rfl

/-- A chained row is a link. -/
@[simp] theorem AuditRow.link?_chained (e : AuditEvent) (p : Option String) (h : String) :
    AuditRow.link? ⟨e, p, some h⟩ = some ⟨e, p, h⟩ := rfl

/-- The rows with a hash are the links, read back as rows. -/
theorem filter_isSome_eq_map_link (rows : List AuditRow) :
    rows.filter (fun r => r.newHash.isSome) = (rows.filterMap AuditRow.link?).map AuditRow.ofLink := by
  induction rows with
  | nil => rfl
  | cons r rows ih =>
    obtain ⟨e, p, h⟩ := r
    cases h with
    | none => simpa [List.filterMap_cons] using ih
    | some h => simpa [List.filterMap_cons, AuditRow.ofLink] using ih

/-- The chained rows are the links, read back as rows. -/
theorem chainedRows_eq (table : List AuditRow) (runId : String) :
    chainedRows table runId = (auditLinks table runId).map AuditRow.ofLink :=
  filter_isSome_eq_map_link _

/-- Sorting keeps the rows. -/
@[simp] theorem mem_byAtNs {rows : List AuditRow} {r : AuditRow} : r ∈ byAtNs rows ↔ r ∈ rows := List.mem_insertionSort _

/-- Sorting keeps the rows. -/
@[simp] theorem mem_byAtNsDesc {rows : List AuditRow} {r : AuditRow} : r ∈ byAtNsDesc rows ↔ r ∈ rows := by
  simp [byAtNsDesc]

/-- The verifier's order is by time. -/
theorem pairwise_byAtNs (rows : List AuditRow) : (byAtNs rows).Pairwise (fun a b => a.atNs ≤ b.atNs) := by
  have : Std.Total (fun a b : AuditRow => a.atNs ≤ b.atNs) := ⟨fun a b => le_total a.atNs b.atNs⟩
  have : IsTrans AuditRow (fun a b => a.atNs ≤ b.atNs) := ⟨fun a b c hab hbc => hab.trans hbc⟩
  exact List.pairwise_insertionSort _ _

/-- The insert's order is by time, latest first. -/
theorem pairwise_byAtNsDesc (rows : List AuditRow) : (byAtNsDesc rows).Pairwise (fun a b => b.atNs ≤ a.atNs) := by
  have : Std.Total (fun a b : AuditRow => b.atNs ≤ a.atNs) := ⟨fun a b => le_total b.atNs a.atNs⟩
  have : IsTrans AuditRow (fun a b => b.atNs ≤ a.atNs) := ⟨fun a b c hab hbc => hbc.trans hab⟩
  exact List.pairwise_insertionSort _ _

/-- A row of a run's trail is a row of the table, of the run. -/
theorem mem_auditOf {table : List AuditRow} {runId : String} {r : AuditRow} :
    r ∈ auditOf table runId ↔ r ∈ table ∧ r.runId = runId := by
  simp [auditOf]

/-- The loop accepts rows of the run exactly when their links form a chain (induction on the rows; a legacy row is skipped by
both). -/
theorem verifyLinks_iff (Γ : Ctx) {runId : String} {rows : List AuditRow} (hrun : ∀ r ∈ rows, r.runId = runId)
    (p : Option String) :
    verifyLinks Γ runId p rows = true ↔ HashChain.Linked (auditChainHash Γ) p (rows.filterMap AuditRow.link?) := by
  induction rows generalizing p with
  | nil => simp [verifyLinks, HashChain.Linked]
  | cons r rows ih =>
    have hr : r.runId = runId := hrun r (by simp)
    have ih := ih (fun x hx => hrun x (List.mem_cons_of_mem _ hx))
    obtain ⟨e, prev, h⟩ := r
    have he : { e with runId := runId } = e := by rw [← hr]
    cases h with
    | none => simpa [verifyLinks, List.filterMap_cons] using ih p
    | some h =>
      simp only [verifyLinks, List.filterMap_cons, AuditRow.link?_chained, HashChain.Linked, he, ← ih]
      by_cases hp : prev = p
      · by_cases hh : auditChainHash Γ e prev = h
        · simp [hp, ← hh]
        · simp [hp, hp ▸ hh, Ne.symm (hp ▸ hh)]
      · simp [hp]

end Tumult
