import Tumult.Lake.Store

/-!
# The run operations

The writer's operations on runs, each one transaction, and what each leaves when it returned. `transitionRun` is the body most
of them share: an update of the run's row that must change exactly one row, and the audit event that goes with it. An operation
that reports an error left the store as it was (`Db.withTx_error`).
-/

namespace Tumult

variable (Γ : Ctx)

/-- A run record at enqueue time. -/
structure NewRun where
  id : String
  registryId : String
  paramsJson : Option String
  queuedAtNs : Int
  actor : Option String
  deriving DecidableEq, Repr

/-- The execution context of a run: the private fingerprint that `insert_run_context` takes out of the JSON object, and the JSON
text of what remains. -/
structure RunContext where
  executionHash : Option String
  publicJson : String
  deriving DecidableEq, Repr

/-- The row of a run at enqueue time. -/
def NewRun.row (run : NewRun) (state : RunState) : RunRow where
  id := run.id
  registryId := run.registryId
  state := state
  paramsJson := run.paramsJson
  experimentId := none
  rollbackStatus := none
  error := none
  queuedAtNs := run.queuedAtNs
  startedAtNs := none
  endedAtNs := none
  gamedayId := none

/-! ## Enqueueing -/

/-- `INSERT INTO runs`. -/
def insertRunRow (row : RunRow) : Writer Unit := do
  let _ ← execute Γ (fun st => (1, { st with runs := st.runs ++ [row] }))

/-- `INSERT INTO run_execution_pins`. -/
def insertExecutionPin (pin : ExecutionPin) : Writer Unit := do
  let _ ← execute Γ (fun st => (1, { st with pins := st.pins ++ [pin] }))

/-- Persist the private fingerprint apart from the public context, which goes to the audit trail. -/
def insertRunContext (runId : String) (context : RunContext) (actor : Option String) : Writer Unit :=
  match context.executionHash with
  | none => insertRunAudit Γ runId "requested_context" (some context.publicJson) actor
  | some hash => do
    insertExecutionPin Γ ⟨runId, hash⟩
    insertRunAudit Γ runId "requested_context" (some context.publicJson) actor

/-- The context of a run, when there is one. -/
def insertContext? (runId : String) (context : Option RunContext) (actor : Option String) : Writer Unit :=
  match context with
  | none => pure ()
  | some context => insertRunContext Γ runId context actor

/-- Enqueue a run and its context in one transaction. -/
def insertRunWithContext (run : NewRun) (context : Option RunContext) : Writer Unit := withTx Γ do
  insertRunRow Γ (run.row .queued)
  insertRunAudit Γ run.id "enqueued" none run.actor
  insertContext? Γ run.id context run.actor

/-! ## Transitions -/

/-- The update of a run's row that must change exactly one row, and the audit event that goes with it. -/
def transitionRun (runId : String) (p : RunRow → Bool) (f : RunRow → RunRow) (event : String) (detail actor : Option String) :
    Writer Unit := do
  let changed ← execute Γ (updateRuns p f)
  requireTransition changed runId
  insertRunAudit Γ runId event detail actor

/-- The rows `set_run_state_with` matches: not terminal, and pending approval when the run is to be queued. -/
def settable (runId : String) (state : RunState) (r : RunRow) : Bool :=
  r.id = runId && !r.state.isTerminal && (state ≠ .queued || r.state = .pendingApproval)

/-- Transition a run to a state, with an explicit audit event, detail and actor. -/
def setRunStateWith (runId : String) (state : RunState) (auditEvent auditDetail actor : Option String) : Writer Unit :=
  withTx Γ (transitionRun Γ runId (settable runId state) (fun r => { r with state := state })
    (auditEvent.getD state.text) auditDetail actor)

/-- The rows `mark_run_started` matches. -/
def startable (runId : String) (r : RunRow) : Bool := r.id = runId && (r.state = .queued || r.state = .validating)

/-- Mark a run `running` and stamp `started_at_ns`. -/
def markRunStarted (runId : String) (experimentId : Option String) : Writer Unit := withTx Γ do
  let now ← nowNs Γ
  transitionRun Γ runId (startable runId)
    (fun r => { r with state := .running, startedAtNs := some now, experimentId := experimentId.or r.experimentId })
    "started" experimentId none

/-- The rows `claim_run` matches. -/
def claimable (runId : String) (r : RunRow) : Bool := r.id = runId && r.state = .queued

/-- Claim a queued run for validation without resurrecting a stopped run. -/
def claimRun (runId : String) : Writer Unit :=
  withTx Γ (transitionRun Γ runId (claimable runId) (fun r => { r with state := .validating }) "validating" none none)

/-- The rows `begin_run_execution` matches. -/
def beginnable (runId : String) (r : RunRow) : Bool := r.id = runId && r.state = .validating

/-- The approvals a begin may consume: of the run, with the pin, not consumed, and overridden or not expired. -/
def consumable (runId pin : String) (now : Int) (a : ApprovalRow) : Bool :=
  a.runId = runId && a.pinHash = pin && a.consumedAtNs = none && (a.breakGlass || now ≤ a.expiresAtNs)

/-- Consume the approval with the pin, when the run carries one. -/
def consumePinned (runId : String) (approvalPin : Option String) (now : Int) : Writer Unit :=
  match approvalPin with
  | none => pure ()
  | some pin => do
    let changed ← execute Γ (updateApprovals (consumable runId pin now) (fun a => { a with consumedAtNs := some now }))
    requireTransition changed runId
    insertRunAudit Γ runId "consumed" (some pin) none

/-- Persist the cleanup bindings, consume the approval and mark execution started, in one transaction. -/
def beginRunExecution (runId planJson : String) (approvalPin : Option String) : Writer Unit := withTx Γ do
  let now ← nowNs Γ
  let changed ← execute Γ (updateRuns (beginnable runId) (fun r => { r with state := .running, startedAtNs := some now }))
  requireTransition changed runId
  consumePinned Γ runId approvalPin now
  let _ ← execute Γ (fun st => (1, { st with plans := st.plans ++ [⟨runId, planJson⟩] }))
  insertRunAudit Γ runId "started" none none

/-- The rows `request_run_stop` matches. -/
def stoppable (runId : String) (r : RunRow) : Bool :=
  r.id = runId && r.state ∈ [.queued, .validating, .running, .stopping, .pendingApproval]

/-- A stopped row: aborted when it never started, else stopping. -/
def stopRow (now : Int) (r : RunRow) : RunRow :=
  if r.startedAtNs = none then
    { r with state := .aborted, endedAtNs := some now, rollbackStatus := some "not_needed", error := some "cancelled before start" }
  else { r with state := .stopping }

/-- A stop keeps the start time. -/
@[simp] theorem stopRow_startedAtNs (now : Int) (r : RunRow) : (stopRow now r).startedAtNs = r.startedAtNs := by
  unfold stopRow
  split <;> rfl

/-- A stop aborts a row that never started, and moves a started row to `stopping`. -/
theorem stopRow_state (now : Int) (r : RunRow) :
    (stopRow now r).state = if r.startedAtNs = none then .aborted else .stopping := by
  unfold stopRow
  split <;> rfl

/-- Durably stop a run, checking its current state on the single writer. -/
def requestRunStop (runId : String) (actor : Option String) : Writer Unit := withTx Γ do
  let now ← nowNs Γ
  transitionRun Γ runId (stoppable runId) (stopRow now) "stop_requested" none actor
  let row ← query Γ (fun st => st.runs.find? (fun r => r.id = runId))
  match row with
  | none => Db.throw .database
  | some r => insertRunAudit Γ runId r.state.text none actor

/-- The rows `fail_run` matches. -/
def failable (runId : String) (r : RunRow) : Bool := r.id = runId && r.state ∈ [.queued, .validating, .running, .stopping]

/-- A failed row: failed when it never started, else left for restart cleanup. -/
def failRow (error : String) (now : Int) (r : RunRow) : RunRow :=
  if r.startedAtNs = none then { r with state := .failed, error := some error, endedAtNs := some now }
  else { r with state := .rollbackPending, error := some error }

/-- A failure keeps the start time. -/
@[simp] theorem failRow_startedAtNs (error : String) (now : Int) (r : RunRow) :
    (failRow error now r).startedAtNs = r.startedAtNs := by
  unfold failRow
  split <;> rfl

/-- A failure ends a row that never started, and leaves a started row for cleanup. -/
theorem failRow_state (error : String) (now : Int) (r : RunRow) :
    (failRow error now r).state = if r.startedAtNs = none then .failed else .rollbackPending := by
  unfold failRow
  split <;> rfl

/-- Record failure without overwriting a cancellation. -/
def failRun (runId error : String) : Writer Unit := withTx Γ do
  let now ← nowNs Γ
  let changed ← execute Γ (updateRuns (failable runId) (failRow error now))
  if changed = 0 then pure () else insertRunAudit Γ runId "execution_failed" (some error) none

/-- The rows `finish_run` matches: the state is checked only when the run is rejected or expired. -/
def finishable (runId : String) (state : RunState) (r : RunRow) : Bool :=
  r.id = runId && ((state ≠ .rejected && state ≠ .expired) || r.state = .pendingApproval)

/-- Finish a run: stamp `ended_at_ns`, link the journal, record the rollback outcome and the error. -/
def finishRun (runId : String) (state : RunState) (experimentId rollbackStatus error : Option String) : Writer Unit :=
  withTx Γ do
    let now ← nowNs Γ
    transitionRun Γ runId (finishable runId state)
      (fun r => { r with state := state, endedAtNs := some now, experimentId := experimentId.or r.experimentId,
                         rollbackStatus := rollbackStatus, error := error })
      state.text error none

/-! ## Reads -/

/-- One run by id. -/
def Store.runGet (st : Store) (id : String) : Option RunRow := st.runs.find? (fun r => r.id = id)

/-- A registry definition by id. -/
def Store.registryDefinition (st : Store) (id : String) : Option RegisteredDefinition :=
  st.registry.find? (fun d => d.id = id)

/-- The execution fingerprint recorded for a run. -/
def Store.runExecutionHash (st : Store) (runId : String) : Option String :=
  (st.pins.find? (fun p => p.runId = runId)).map (·.executionHash)

/-- Active-state runs joined with their definitions, campaign parents left out, in the order they were queued: the rows of the
join, each with its recovery plan when it has one. -/
def Store.activeRuns (st : Store) : List (RunRow × RegisteredDefinition × Option RecoveryPlan) :=
  let joined := st.runs.flatMap fun r =>
    (st.registry.filter (fun d => d.id = r.registryId)).flatMap fun d =>
      match st.plans.filter (fun p => p.runId = r.id) with
      | [] => [(r, d, none)]
      | plans => plans.map (fun p => (r, d, some p))
  (joined.filter (fun j => j.1.state.isActive && j.2.1.kind ≠ some "gameday")).insertionSort
    (fun a b => a.1.queuedAtNs ≤ b.1.queuedAtNs)

/-! ## What each operation leaves -/

variable {Γ}

/-- A transition that returned changed exactly one row, and appended to the trail. -/
theorem transitionRun_ok {runId event : String} {p : RunRow → Bool} {f : RunRow → RunRow} {detail actor : Option String}
    {u : Unit} {s s' : Session} (h : transitionRun Γ runId p f event detail actor s = (.ok u, s')) :
    s.store.runs.countP p = 1 ∧ ∃ audit', AuditGrows Γ s.store.audit audit' ∧
      s'.store = { s.store with runs := Db.updateWhere p f s.store.runs, audit := audit' } := by
  unfold transitionRun execute at h
  obtain ⟨n, s1, h1, h⟩ := Db.bind_ok.mp h
  obtain ⟨-, rfl, rfl⟩ := Db.statement_ok.mp h1
  obtain ⟨_, s2, h2, h⟩ := Db.bind_ok.mp h
  obtain ⟨hn, rfl⟩ := requireTransition_ok.mp h2
  exact ⟨hn, _, AuditGrows.one _ _ _, insertRunAudit_ok h⟩

theorem setRunStateWith_ok {runId : String} {state : RunState} {event detail actor : Option String} {u : Unit}
    {s s' : Session} (h : setRunStateWith Γ runId state event detail actor s = (.ok u, s')) :
    s.store.runs.countP (settable runId state) = 1 ∧ ∃ audit', AuditGrows Γ s.store.audit audit' ∧
      s'.store = { s.store with
        runs := Db.updateWhere (settable runId state) (fun r => { r with state := state }) s.store.runs, audit := audit' } := by
  obtain ⟨s1, h, hs⟩ := Db.withTx_body h
  rw [hs]
  obtain ⟨hn, audit', hgrow, hstore⟩ := transitionRun_ok h
  exact ⟨hn, audit', hgrow, hstore⟩

theorem markRunStarted_ok {runId : String} {experimentId : Option String} {u : Unit} {s s' : Session}
    (h : markRunStarted Γ runId experimentId s = (.ok u, s')) :
    s.store.runs.countP (startable runId) = 1 ∧ ∃ now audit', AuditGrows Γ s.store.audit audit' ∧
      s'.store = { s.store with
        runs := Db.updateWhere (startable runId)
          (fun r => { r with state := .running, startedAtNs := some now, experimentId := experimentId.or r.experimentId })
          s.store.runs,
        audit := audit' } := by
  obtain ⟨s1, h, hs⟩ := Db.withTx_body h
  rw [hs]
  obtain ⟨now, s2, h2, h⟩ := Db.bind_ok.mp h
  obtain ⟨rfl, rfl⟩ := Db.now_ok.mp h2
  obtain ⟨hn, audit', hgrow, hstore⟩ := transitionRun_ok h
  exact ⟨hn, _, audit', hgrow, hstore⟩

theorem claimRun_ok {runId : String} {u : Unit} {s s' : Session} (h : claimRun Γ runId s = (.ok u, s')) :
    s.store.runs.countP (claimable runId) = 1 ∧ ∃ audit', AuditGrows Γ s.store.audit audit' ∧
      s'.store = { s.store with
        runs := Db.updateWhere (claimable runId) (fun r => { r with state := .validating }) s.store.runs,
        audit := audit' } := by
  obtain ⟨s1, h, hs⟩ := Db.withTx_body h
  rw [hs]
  obtain ⟨hn, audit', hgrow, hstore⟩ := transitionRun_ok h
  exact ⟨hn, audit', hgrow, hstore⟩

/-- A consumption that returned found exactly one approval to consume when the run carries a pin, and changed nothing else. -/
theorem consumePinned_ok {runId : String} {approvalPin : Option String} {now : Int} {u : Unit} {s s' : Session}
    (h : consumePinned Γ runId approvalPin now s = (.ok u, s')) :
    (∀ pin ∈ approvalPin, s.store.approvals.countP (consumable runId pin now) = 1) ∧
      ∃ audit', AuditGrows Γ s.store.audit audit' ∧ s'.store = { s.store with
        approvals := Db.updateWhere (fun a => approvalPin.any fun pin => consumable runId pin now a)
          (fun a => { a with consumedAtNs := some now }) s.store.approvals,
        audit := audit' } := by
  unfold consumePinned at h
  cases approvalPin with
  | none =>
    obtain ⟨-, rfl⟩ := Db.pure_ok.mp h
    refine ⟨by simp, _, AuditGrows.refl _ _, ?_⟩
    rw [Db.updateWhere_of_countP_eq_zero (by simp)]
  | some pin =>
    unfold execute at h
    obtain ⟨n, s1, h1, h⟩ := Db.bind_ok.mp h
    obtain ⟨-, rfl, rfl⟩ := Db.statement_ok.mp h1
    obtain ⟨_, s2, h2, h⟩ := Db.bind_ok.mp h
    obtain ⟨hn, rfl⟩ := requireTransition_ok.mp h2
    refine ⟨fun pin' hpin => ?_, _, AuditGrows.one _ _ _, insertRunAudit_ok h⟩
    obtain rfl : pin' = pin := by simpa using hpin.symm
    exact hn

theorem beginRunExecution_ok {runId planJson : String} {approvalPin : Option String} {u : Unit} {s s' : Session}
    (h : beginRunExecution Γ runId planJson approvalPin s = (.ok u, s')) :
    s.store.runs.countP (beginnable runId) = 1 ∧ ∃ now audit', AuditGrows Γ s.store.audit audit' ∧
      (∀ pin ∈ approvalPin, s.store.approvals.countP (consumable runId pin now) = 1) ∧
      s'.store = { s.store with
        runs := Db.updateWhere (beginnable runId) (fun r => { r with state := .running, startedAtNs := some now }) s.store.runs,
        approvals := Db.updateWhere (fun a => approvalPin.any fun pin => consumable runId pin now a)
          (fun a => { a with consumedAtNs := some now }) s.store.approvals,
        plans := s.store.plans ++ [⟨runId, planJson⟩],
        audit := audit' } := by
  obtain ⟨s1, h, hs⟩ := Db.withTx_body h
  rw [hs]
  obtain ⟨now, s2, h2, h⟩ := Db.bind_ok.mp h
  obtain ⟨rfl, rfl⟩ := Db.now_ok.mp h2
  unfold execute at h
  obtain ⟨n, s3, h3, h⟩ := Db.bind_ok.mp h
  obtain ⟨-, rfl, rfl⟩ := Db.statement_ok.mp h3
  obtain ⟨_, s4, h4, h⟩ := Db.bind_ok.mp h
  obtain ⟨hn, rfl⟩ := requireTransition_ok.mp h4
  obtain ⟨_, s5, h5, h⟩ := Db.bind_ok.mp h
  obtain ⟨hpin, audit1, hgrow1, hstore5⟩ := consumePinned_ok h5
  obtain ⟨_, s6, h6, h⟩ := Db.bind_ok.mp h
  obtain ⟨-, -, rfl⟩ := Db.statement_ok.mp h6
  have hstore := insertRunAudit_ok (Γ := Γ) h
  rw [Db.Session.withStore_store, hstore5] at hstore
  refine ⟨hn, _, _, ?_, hpin, hstore⟩
  exact hgrow1.trans (AuditGrows.one _ _ _)

theorem requestRunStop_ok {runId : String} {actor : Option String} {u : Unit} {s s' : Session}
    (h : requestRunStop Γ runId actor s = (.ok u, s')) :
    s.store.runs.countP (stoppable runId) = 1 ∧ ∃ now audit', AuditGrows Γ s.store.audit audit' ∧
      s'.store = { s.store with
        runs := Db.updateWhere (stoppable runId) (stopRow now) s.store.runs, audit := audit' } := by
  obtain ⟨s1, h, hs⟩ := Db.withTx_body h
  rw [hs]
  obtain ⟨now, s2, h2, h⟩ := Db.bind_ok.mp h
  obtain ⟨rfl, rfl⟩ := Db.now_ok.mp h2
  obtain ⟨_, s3, h3, h⟩ := Db.bind_ok.mp h
  obtain ⟨hn, audit1, hgrow1, hstore3⟩ := transitionRun_ok h3
  obtain ⟨row, s4, h4, h⟩ := Db.bind_ok.mp h
  obtain ⟨-, -, rfl⟩ := Db.query_ok.mp h4
  cases row with
  | none => exact absurd h Db.throw_ok
  | some r =>
    have hstore := insertRunAudit_ok (Γ := Γ) h
    rw [Db.Session.next_store, hstore3] at hstore
    refine ⟨hn, _, _, ?_, hstore⟩
    exact hgrow1.trans (AuditGrows.one _ _ _)

theorem failRun_ok {runId error : String} {u : Unit} {s s' : Session} (h : failRun Γ runId error s = (.ok u, s')) :
    ∃ now audit', AuditGrows Γ s.store.audit audit' ∧
      s'.store = { s.store with
        runs := Db.updateWhere (failable runId) (failRow error now) s.store.runs, audit := audit' } := by
  obtain ⟨s1, h, hs⟩ := Db.withTx_body h
  rw [hs]
  obtain ⟨now, s2, h2, h⟩ := Db.bind_ok.mp h
  obtain ⟨rfl, rfl⟩ := Db.now_ok.mp h2
  unfold execute at h
  obtain ⟨n, s3, h3, h⟩ := Db.bind_ok.mp h
  obtain ⟨-, rfl, rfl⟩ := Db.statement_ok.mp h3
  split at h
  · obtain ⟨-, rfl⟩ := Db.pure_ok.mp h
    exact ⟨_, _, AuditGrows.refl _ _, rfl⟩
  · exact ⟨_, _, AuditGrows.one _ _ _, insertRunAudit_ok h⟩

theorem finishRun_ok {runId : String} {state : RunState} {experimentId rollbackStatus error : Option String} {u : Unit}
    {s s' : Session} (h : finishRun Γ runId state experimentId rollbackStatus error s = (.ok u, s')) :
    s.store.runs.countP (finishable runId state) = 1 ∧ ∃ now audit', AuditGrows Γ s.store.audit audit' ∧
      s'.store = { s.store with
        runs := Db.updateWhere (finishable runId state)
          (fun r => { r with state := state, endedAtNs := some now, experimentId := experimentId.or r.experimentId,
                             rollbackStatus := rollbackStatus, error := error }) s.store.runs,
        audit := audit' } := by
  obtain ⟨s1, h, hs⟩ := Db.withTx_body h
  rw [hs]
  obtain ⟨now, s2, h2, h⟩ := Db.bind_ok.mp h
  obtain ⟨rfl, rfl⟩ := Db.now_ok.mp h2
  obtain ⟨hn, audit', hgrow, hstore⟩ := transitionRun_ok h
  exact ⟨hn, _, audit', hgrow, hstore⟩

/-- The context of a run adds its execution pin, when it has one, and appends to the trail. -/
theorem insertContext?_ok {runId : String} {context : Option RunContext} {actor : Option String} {u : Unit} {s s' : Session}
    (h : insertContext? Γ runId context actor s = (.ok u, s')) :
    ∃ audit', AuditGrows Γ s.store.audit audit' ∧ s'.store = { s.store with
      pins := s.store.pins ++ ((context.bind (·.executionHash)).map (ExecutionPin.mk runId)).toList, audit := audit' } := by
  unfold insertContext? at h
  cases context with
  | none =>
    obtain ⟨-, rfl⟩ := Db.pure_ok.mp h
    exact ⟨_, AuditGrows.refl _ _, by simp⟩
  | some context =>
    obtain ⟨hash, json⟩ := context
    unfold insertRunContext at h
    cases hash with
    | none =>
      refine ⟨insertAudit Γ s.store.audit ⟨runId, Γ.clock s.tick, "requested_context", some json, actor⟩,
        AuditGrows.one _ _ _, ?_⟩
      rw [insertRunAudit_ok (Γ := Γ) h]
      simp
    | some hash =>
      obtain ⟨_, s1, h1, h⟩ := Db.bind_ok.mp h
      unfold insertExecutionPin execute at h1
      obtain ⟨_, s2, h2, h1⟩ := Db.bind_ok.mp h1
      obtain ⟨-, -, rfl⟩ := Db.statement_ok.mp h2
      obtain ⟨-, rfl⟩ := Db.pure_ok.mp h1
      exact ⟨_, AuditGrows.one _ _ _, insertRunAudit_ok h⟩

theorem insertRunWithContext_ok {run : NewRun} {context : Option RunContext} {u : Unit} {s s' : Session}
    (h : insertRunWithContext Γ run context s = (.ok u, s')) :
    ∃ audit', AuditGrows Γ s.store.audit audit' ∧ s'.store = { s.store with
      runs := s.store.runs ++ [run.row .queued],
      pins := s.store.pins ++ ((context.bind (·.executionHash)).map (ExecutionPin.mk run.id)).toList,
      audit := audit' } := by
  obtain ⟨s1, h, hs⟩ := Db.withTx_body h
  rw [hs]
  obtain ⟨_, s2, h2, h⟩ := Db.bind_ok.mp h
  unfold insertRunRow execute at h2
  obtain ⟨_, s3, h3, h2⟩ := Db.bind_ok.mp h2
  obtain ⟨-, -, rfl⟩ := Db.statement_ok.mp h3
  obtain ⟨-, rfl⟩ := Db.pure_ok.mp h2
  obtain ⟨_, s4, h4, h⟩ := Db.bind_ok.mp h
  obtain ⟨audit', hgrow, hstore⟩ := insertContext?_ok h
  rw [insertRunAudit_ok h4] at hgrow hstore
  exact ⟨audit', (AuditGrows.one _ _ _).trans hgrow, hstore⟩

end Tumult
