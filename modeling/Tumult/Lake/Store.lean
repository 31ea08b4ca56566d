import Tumult.Lake.Audit

/-!
# The run tables

The tables behind daemon runs (schemas v5 to v15): the registry, the runs, their approvals, recovery plans, execution pins and
audit trail. None of them has a primary key; a table is a list of rows in the order of their row ids. A `Writer` is a program
on the daemon's one write session.
-/

namespace Tumult

/-! ## Run states -/

/-- The values `run_state` names, as they stand in `runs.state`. -/
def runStateNames : List String :=
  ["queued", "validating", "running", "stopping", "passed", "deviated", "failed", "aborted", "orphaned", "rollback_pending",
    "pending_approval", "rejected", "expired"]

/-- A text in `runs.state` that `run_state` does not name. -/
structure OtherState where
  text : String
  unnamed : text ∉ runStateNames
  deriving DecidableEq

/-- Run states (`runs.state`, a text column): the thirteen the daemon names, and any other text. -/
inductive RunState where
  | queued
  | validating
  | running
  | stopping
  | passed
  | deviated
  | failed
  | aborted
  | orphaned
  | rollbackPending
  | pendingApproval
  | rejected
  | expired
  | other (s : OtherState)
  deriving DecidableEq

/-- The text of a state. -/
def RunState.text : RunState → String
  | .queued => "queued"
  | .validating => "validating"
  | .running => "running"
  | .stopping => "stopping"
  | .passed => "passed"
  | .deviated => "deviated"
  | .failed => "failed"
  | .aborted => "aborted"
  | .orphaned => "orphaned"
  | .rollbackPending => "rollback_pending"
  | .pendingApproval => "pending_approval"
  | .rejected => "rejected"
  | .expired => "expired"
  | .other s => s.text

/-- The state a text is. -/
def RunState.ofText (s : String) : RunState :=
  if h : s ∈ runStateNames then
    if s = "queued" then .queued
    else if s = "validating" then .validating
    else if s = "running" then .running
    else if s = "stopping" then .stopping
    else if s = "passed" then .passed
    else if s = "deviated" then .deviated
    else if s = "failed" then .failed
    else if s = "aborted" then .aborted
    else if s = "orphaned" then .orphaned
    else if s = "rollback_pending" then .rollbackPending
    else if s = "pending_approval" then .pendingApproval
    else if s = "rejected" then .rejected
    else .expired
  else .other ⟨s, h⟩

/-- A state is read back from its text. -/
theorem RunState.ofText_text (s : RunState) : RunState.ofText s.text = s := by
  cases s with
  | other s => exact dif_neg s.unnamed
  | _ => rfl

/-- States and the texts of the column are the same thing: comparing states is comparing texts. -/
theorem RunState.text_bijective : Function.Bijective RunState.text := by
  refine ⟨Function.LeftInverse.injective RunState.ofText_text, fun s => ?_⟩
  by_cases h : s ∈ runStateNames
  · simp only [runStateNames, List.mem_cons, List.not_mem_nil, or_false] at h
    rcases h with rfl | rfl | rfl | rfl | rfl | rfl | rfl | rfl | rfl | rfl | rfl | rfl | rfl
    · exact ⟨.queued, rfl⟩
    · exact ⟨.validating, rfl⟩
    · exact ⟨.running, rfl⟩
    · exact ⟨.stopping, rfl⟩
    · exact ⟨.passed, rfl⟩
    · exact ⟨.deviated, rfl⟩
    · exact ⟨.failed, rfl⟩
    · exact ⟨.aborted, rfl⟩
    · exact ⟨.orphaned, rfl⟩
    · exact ⟨.rollbackPending, rfl⟩
    · exact ⟨.pendingApproval, rfl⟩
    · exact ⟨.rejected, rfl⟩
    · exact ⟨.expired, rfl⟩
  · exact ⟨.other ⟨s, h⟩, rfl⟩

/-- `run_state::ACTIVE`: states in which a run from a previous process lifetime is an orphan. -/
def RunState.isActive (s : RunState) : Bool :=
  s ∈ [.queued, .validating, .running, .stopping, .orphaned, .rollbackPending]

/-- `run_state::TERMINAL`: a run in one of these can never transition again. -/
def RunState.isTerminal (s : RunState) : Bool :=
  s ∈ [.passed, .deviated, .failed, .aborted, .rejected, .expired]

/-- No state is both active and terminal. -/
theorem RunState.not_isTerminal_of_isActive {s : RunState} (h : s.isActive = true) : s.isTerminal = false := by
  simp only [RunState.isActive, List.mem_cons, List.not_mem_nil, or_false, decide_eq_true_eq] at h
  rcases h with rfl | rfl | rfl | rfl | rfl | rfl <;> rfl

/-! ## Rows -/

/-- A definition in `run_registry`. -/
structure RegisteredDefinition where
  id : String
  name : String
  definitionToon : String
  contentHash : String
  kind : Option String
  deriving DecidableEq, Repr

/-- A row of `runs`. -/
structure RunRow where
  id : String
  registryId : String
  state : RunState
  paramsJson : Option String
  experimentId : Option String
  rollbackStatus : Option String
  error : Option String
  queuedAtNs : Int
  startedAtNs : Option Int
  endedAtNs : Option Int
  gamedayId : Option String
  deriving DecidableEq

/-- A row of `approval_requests`. -/
structure ApprovalRow where
  runId : String
  tier : String
  pinHash : String
  env : String
  target : Option String
  quorumRequired : Int
  requestedBy : String
  requestedAtNs : Int
  expiresAtNs : Int
  consumedAtNs : Option Int
  breakGlass : Bool
  breakGlassBy : Option String
  breakGlassJustification : Option String
  deriving DecidableEq, Repr

/-- `approval_decisions.decision`. -/
inductive Decision where
  | approved
  | rejected
  deriving DecidableEq, Repr

/-- A row of `approval_decisions`. -/
structure ApprovalDecision where
  runId : String
  approver : String
  decision : Decision
  note : Option String
  decidedAtNs : Int
  deriving DecidableEq, Repr

/-- A row of `run_recovery_plans`. -/
structure RecoveryPlan where
  runId : String
  planJson : String
  deriving DecidableEq, Repr

/-- A row of `run_execution_pins`. -/
structure ExecutionPin where
  runId : String
  executionHash : String
  deriving DecidableEq, Repr

/-- The run tables. -/
structure Store where
  registry : List RegisteredDefinition
  runs : List RunRow
  approvals : List ApprovalRow
  decisions : List ApprovalDecision
  plans : List RecoveryPlan
  pins : List ExecutionPin
  audit : List AuditRow

/-- The store before any write. -/
def Store.empty : Store := ⟨[], [], [], [], [], [], []⟩

/-! ## The writer -/

/-- What a write reports: the database refused a statement, or the store's own check did. -/
inductive StoreError where
  | database
  | internal (message : String)
  deriving DecidableEq, Repr

/-- A program on the write session. -/
abbrev Writer (α : Type) : Type := Db.Tx StoreError Store α

/-- A write session. -/
abbrev Session : Type := Db.Session Store

variable (Γ : Ctx)

/-- One statement that writes; it returns the number of rows it changed. -/
def execute (update : Store → Nat × Store) : Writer Nat := Db.statement Γ.toEnv .database update

/-- One statement that reads. -/
def query {α : Type} (read : Store → α) : Writer α := Db.query Γ.toEnv .database read

/-- `now_ns`: the wall clock. -/
def nowNs : Writer Int := Db.now Γ.toEnv

/-- Run a body inside a transaction. -/
def withTx {α : Type} (body : Writer α) : Writer α := Db.withTx Γ.toEnv .database body

/-- `UPDATE runs SET f WHERE p`. -/
def updateRuns (p : RunRow → Bool) (f : RunRow → RunRow) (st : Store) : Nat × Store :=
  (st.runs.countP p, { st with runs := Db.updateWhere p f st.runs })

/-- `UPDATE approval_requests SET f WHERE p`. -/
def updateApprovals (p : ApprovalRow → Bool) (f : ApprovalRow → ApprovalRow) (st : Store) : Nat × Store :=
  (st.approvals.countP p, { st with approvals := Db.updateWhere p f st.approvals })

/-- `require_transition`: refuse unless exactly one row changed. -/
def requireTransition (changed : Nat) (runId : String) : Writer Unit :=
  if changed ≠ 1 then
    Db.throw (.internal s!"run {runId}: state changed or approval unavailable; refusing execution")
  else pure ()

/-- Append one event to a run's audit trail, chained on the run's latest row. -/
def insertRunAudit (runId event : String) (detail actor : Option String) : Writer Unit := do
  let atNs ← nowNs Γ
  let prevHash ← query Γ (fun st => latestHash st.audit runId)
  let newHash := auditChainHash Γ ⟨runId, atNs, event, detail, actor⟩ prevHash
  let _ ← execute Γ (fun st => (1, { st with audit := st.audit ++ [⟨⟨runId, atNs, event, detail, actor⟩, prevHash, some newHash⟩] }))

/-! ## Rules of the writer -/

variable {Γ}

/-- A guard that returned saw exactly one changed row. -/
@[simp] theorem requireTransition_ok {n : Nat} {runId : String} {u : Unit} {s s' : Session} :
    requireTransition n runId s = (.ok u, s') ↔ n = 1 ∧ s' = s := by
  unfold requireTransition
  by_cases hn : n = 1 <;> simp [hn]

/-- An audit insert that returned appended one event, at the clock reading it took; nothing else changed. -/
theorem insertRunAudit_ok {runId event : String} {detail actor : Option String} {u : Unit} {s s' : Session}
    (h : insertRunAudit Γ runId event detail actor s = (.ok u, s')) :
    s'.store = { s.store with
      audit := insertAudit Γ s.store.audit ⟨runId, Γ.clock s.tick, event, detail, actor⟩ } := by
  unfold insertRunAudit nowNs query execute at h
  obtain ⟨atNs, s1, h1, h⟩ := Db.bind_ok.mp h
  obtain ⟨rfl, rfl⟩ := Db.now_ok.mp h1
  obtain ⟨prevHash, s2, h2, h⟩ := Db.bind_ok.mp h
  obtain ⟨-, rfl, rfl⟩ := Db.query_ok.mp h2
  obtain ⟨n, s3, h3, h⟩ := Db.bind_ok.mp h
  obtain ⟨-, rfl, rfl⟩ := Db.statement_ok.mp h3
  obtain ⟨-, rfl⟩ := Db.pure_ok.mp h
  rfl

/-- What a write does to the store: nothing when it is refused, else its update. -/
theorem execute_store {Q : Store → Store → Prop} {update : Store → Nat × Store} {s : Session} (hrefused : Q s.store s.store)
    (hdone : Q s.store (update s.store).2) : Q s.store (execute Γ update s).2.store := Db.statement_store hrefused hdone

/-- A read does nothing to the store. -/
theorem query_store {Q : Store → Store → Prop} {α : Type} {read : Store → α} {s : Session} (h : Q s.store s.store) :
    Q s.store (query Γ read s).2.store := Db.statement_store h h

/-- An audit insert outside a transaction leaves everything but the trail as it was, also when a statement of it is refused. -/
theorem insertRunAudit_store {Q : Store → Store → Prop} {runId event : String} {detail actor : Option String} {s : Session}
    (h : ∀ audit', Q s.store { s.store with audit := audit' }) : Q s.store (insertRunAudit Γ runId event detail actor s).2.store := by
  have hgrow : ∃ audit', (insertRunAudit Γ runId event detail actor s).2.store = { s.store with audit := audit' } := by
    have htrans : ∀ a b c : Store, (∃ x, b = { a with audit := x }) → (∃ y, c = { b with audit := y }) →
        ∃ z, c = { a with audit := z } := by
      rintro a _ _ ⟨x, rfl⟩ ⟨y, rfl⟩
      exact ⟨y, rfl⟩
    refine Db.bind_store (Q := fun st st' : Store => ∃ audit', st' = { st with audit := audit' }) htrans ⟨_, rfl⟩ ?_
    intro atNs s1 _
    refine Db.bind_store htrans (query_store (Q := fun st st' : Store => ∃ x, st' = { st with audit := x }) ⟨_, rfl⟩) ?_
    intro prevHash s2 _
    refine Db.bind_store htrans
      (execute_store (Q := fun st st' : Store => ∃ x, st' = { st with audit := x }) ⟨_, rfl⟩ ⟨_, rfl⟩) ?_
    intro n s3 _
    exact ⟨_, rfl⟩
  obtain ⟨audit', haudit⟩ := hgrow
  rw [haudit]
  exact h audit'

end Tumult
