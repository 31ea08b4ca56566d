import Tumult.Daemon.State

/-!
# The daemon's tasks

Every task of the daemon that touches runs, point by point: the workers, the e-stop, the approval endpoints and the dispatch they
end in, the two ways to submit a run, the expiry sweep, the campaign supervisor, the orphan sweep at boot. A point is what a task
holds between two atomic steps; a step is one read of the store, one lock of the token registry, one closure on the writer, one
send. Every read of the store may fail, and then the task ends as it does in the source.
-/

namespace Tumult

/-! ## Points -/

/-- Points of a worker in `process`. -/
inductive WorkerPoint (Γ : DaemonCtx) where
  | idle
  | dequeued (item : WorkItem)
  | registered (item : WorkItem) (token : Nat)
  | readQueued (item : WorkItem) (token : Nat)
  | refused (item : WorkItem) (token : Nat) (reason : String)
  | verified (item : WorkItem) (token : Nat)
  | claimed (item : WorkItem) (token : Nat)
  | prepared (item : WorkItem) (token : Nat) (p : Γ.Prepared)
  | planned (item : WorkItem) (token : Nat) (p : Γ.Prepared) (planJson : String)
  | starting (item : WorkItem) (token : Nat) (p : Γ.Prepared) (planJson : String)
  | executing (item : WorkItem) (token : Nat)
  | finished (item : WorkItem) (token : Nat) (j : RunJournal)
  | completionFailed (item : WorkItem) (token : Nat) (j : RunJournal)
  | cleaned (item : WorkItem) (token : Nat) (j : RunJournal)
  | failing (item : WorkItem) (token : Nat) (error : String)
  | leaving (item : WorkItem) (token : Nat)

/-- Points of `RunQueue::stop`. -/
inductive StopPoint where
  | read
  | lookup
  | cancel (token : Nat)
  | write (found : Option Nat)

/-- Points of `dispatch_approved`. -/
inductive DispatchPoint where
  | run (runId : String)
  | approval (runId : String) (row : RunRow)
  | decisions (runId : String) (row : RunRow) (approval : ApprovalRow)
  | definition (runId : String) (row : RunRow) (approval : ApprovalRow)
  | permit (item : WorkItem)
  | write (item : WorkItem)
  | send (item : WorkItem)

/-- Points of `enqueue_checked` and of `request_gated_checked`. -/
inductive EnqueuePoint where
  | start (request : RunRequest) (tier : Tier) (actor : Option String)
  | write (run : NewRun) (request : RunRequest) (context : RunContext)
  | writeGated (run : NewRun) (req : ApprovalRequest) (context : RunContext)
  | send (item : WorkItem)

/-- How a step of a submission leaves it. -/
inductive EnqueueOut where
  | next (p : EnqueuePoint)
  | done (runId : String)
  | failed

/-- Points of the approval endpoints up to the dispatch. -/
inductive ReviewPoint where
  | approve (runId username : String)
  | gate (runId username : String)
  | writeApproval (dec : ApprovalDecision) (detail actor : Option String)
  | writeExpired (runId : String)
  | writeVeto (runId rule : String) (actor : Option String)
  | reject (runId username : String) (note actor : Option String)
  | writeRejection (dec : ApprovalDecision) (actor : Option String)
  | breakGlass (runId username justification : String) (actor : Option String)
  | writeBreakGlass (runId username justification : String) (actor : Option String)

/-- A campaign parent as the supervisor lists it: its run row and its campaign envelope. -/
abbrev Campaign : Type := RunRow × RegisteredDefinition

/-- Points of the campaign supervisor; `parents` are the campaigns its tick has still to advance. -/
inductive SupervisorPoint where
  | idle
  | tick (parents : List Campaign)
  | finish (parentId : String) (outcome : RunState) (parents : List Campaign)
  | launching (p : EnqueuePoint) (parent : Campaign) (parents : List Campaign)
  | link (child : String) (parent : Campaign) (parents : List Campaign)

/-- How an orphan's rollback ended. -/
inductive OrphanOutcome where
  | nothingExecuted
  | rolledBack
  | rollbackFailed (error : String)

/-- An orphan as `active_runs` lists it. -/
abbrev Orphan : Type := RunRow × RegisteredDefinition × Option RecoveryPlan

/-- Points of the orphan sweep, which the daemon runs before anything else. -/
inductive BootPoint where
  | start
  | next (orphans : List Orphan)
  | recover (o : Orphan) (orphans : List Orphan)
  | rollback (o : Orphan) (orphans : List Orphan)
  | audit (o : Orphan) (event : String) (outcome : OrphanOutcome) (orphans : List Orphan)
  | close (o : Orphan) (outcome : OrphanOutcome) (orphans : List Orphan)

/-- A task and its point. -/
inductive Task (Γ : DaemonCtx) where
  | boot (p : BootPoint)
  | worker (p : WorkerPoint Γ)
  | stop (runId : String) (actor : Option String) (p : StopPoint)
  | dispatch (p : DispatchPoint)
  | review (p : ReviewPoint)
  | enqueue (p : EnqueuePoint)
  | sweep (expired : List String)
  | supervisor (p : SupervisorPoint)
  | register (d : RegisteredDefinition)
  | launch (run : NewRun)
  | outside

/-- What a step shows. -/
inductive Label (Γ : DaemonCtx) where
  | quiet
  /-- A run's begin committed, for the work item, what it resolved to, and the token it runs under. -/
  | began (item : WorkItem) (p : Γ.Prepared) (token : Nat)
  /-- The write of a stop, after a lookup that found this token or none: accepted, or refused. -/
  | stopWrite (runId : String) (found : Option Nat) (accepted : Bool)
  /-- The supervisor finished a campaign parent. -/
  | finishParent (runId : String)
  /-- The orphan sweep finished an orphan. -/
  | finishOrphan (runId : String)
  /-- The process ended. -/
  | crash

/-! ## The worker -/

/-- Validate the approved immutable request before claiming its execution slot. -/
def verifyApproval (Γ : Ctx) (d : Daemon) (item : WorkItem) : Except String Unit :=
  match item.approvalPin with
  | none => .ok ()
  | some expected =>
    let actual := item.request.pin Γ
    if actual ≠ expected then
      .error s!"approval pin mismatch (approved {expected}, resolves to {actual}) — definition, params, env or target edited after approval"
    else
      match d.store.approvalRequest item.runId with
      | none => .error "approval request missing"
      | some req =>
        if req.consumedAtNs.isSome then .error "approval already consumed — single-use"
        else if !req.breakGlass && req.expiresAtNs < d.now Γ then .error "approval expired before dispatch"
        else .ok ()

/-- The actor of a run: the first its trail names. -/
def Store.runActor (st : Store) (runId : String) : Option String :=
  (byAtNs (auditOf st.audit runId)).findSome? (·.actor)

/-- Re-evaluate the permissions and the pinned execution at dispatch. -/
def validateDispatchContext (Γ : DaemonCtx) (d : Daemon) (item : WorkItem) (p : Γ.Prepared) : Except String Unit := do
  let actor := d.store.runActor item.runId
  let requiresBinding ← Γ.actorRequiresBinding d.session.tick actor item.request.env
  let approval := d.store.approvalRequest item.runId
  match d.store.runExecutionHash item.runId with
  | some recordedHash =>
    let currentHash ← Γ.executionHash p
    if currentHash ≠ recordedHash then
      throw "resolved configuration or credentials changed after submission; submit for approval again"
  | none =>
    if actor.isSome || approval.isSome then
      throw "run has no pinned execution fingerprint; submit it again"
  if actor.isNone && approval.isNone then
    pure () -- trusted in-process enqueue
  else do
    let tier ← Γ.classifyExecution d.session.tick p item.request.env item.request.target requiresBinding
    let approvedTier := (approval.map (·.tier)).getD "T0"
    if approvedTier < tier.asStr then
      throw "resolved execution requires a higher approval tier; submit for approval again"
    else pure ()

/-- The closure that records a refused dispatch. -/
def refuseDispatch (Γ : Ctx) (runId reason : String) : Writer Unit := do
  insertRunAudit Γ runId "dispatch_refused" (some reason) none
  failRun Γ runId reason

/-- The closure that completes a run: evidence first, then the terminal state; a stop accepted before it refuses it. -/
def recordCompletion (Γ : Ctx) (cancelled : Bool) (runId : String) (j : RunJournal) : Writer Unit :=
  if cancelled && j.status ≠ .interrupted then Db.throw (.internal "stop accepted before completion; cleanup required")
  else do
    let _ ← execute Γ (fun st => (1, st)) -- the journal goes to the telemetry tables
    finishRun Γ runId (completionState j) (some j.experimentId) (some (completionRollback j)) none

/-- A worker's step. -/
inductive WorkerStep (Γ : DaemonCtx) : Daemon → WorkerPoint Γ → Label Γ → Daemon → WorkerPoint Γ → Prop where
  /-- Dequeued: the waiting-queue slot frees now. -/
  | take {d : Daemon} {item : WorkItem} {rest : List WorkItem} (h : d.queue = item :: rest) :
      WorkerStep Γ d .idle .quiet { d with queue := rest, permits := d.permits + 1 } (.dequeued item)
  /-- Register before any externally visible transition. -/
  | register {d : Daemon} {item : WorkItem} (h : d.token? item.runId = none) :
      WorkerStep Γ d (.dequeued item) .quiet
        { d with tokens := (item.runId, d.nextToken) :: d.tokens, nextToken := d.nextToken + 1 } (.registered item d.nextToken)
  /-- A duplicate work item is refused. -/
  | duplicate {d : Daemon} {item : WorkItem} {token : Nat} (h : d.token? item.runId = some token) :
      WorkerStep Γ d (.dequeued item) .quiet d .idle
  | readState {d : Daemon} {item : WorkItem} {token : Nat} (h : d.readRunState item.runId = some .queued) :
      WorkerStep Γ d (.registered item token) .quiet d (.readQueued item token)
  /-- The run is not queued any more, or its state could not be read. -/
  | skip {d : Daemon} {item : WorkItem} {token : Nat} :
      WorkerStep Γ d (.registered item token) .quiet d (.leaving item token)
  | verify {d : Daemon} {item : WorkItem} {token : Nat} (h : verifyApproval Γ.toCtx d item = .ok ()) :
      WorkerStep Γ d (.readQueued item token) .quiet d (.verified item token)
  /-- The approval does not hold, or could not be read. -/
  | verifyError {d : Daemon} {item : WorkItem} {token : Nat} (reason : String) :
      WorkerStep Γ d (.readQueued item token) .quiet d (.refused item token reason)
  | refuse {d : Daemon} {item : WorkItem} {token : Nat} {reason : String} :
      WorkerStep Γ d (.refused item token reason) .quiet (d.wrote (refuseDispatch Γ.toCtx item.runId reason))
        (.leaving item token)
  | claim {d : Daemon} {item : WorkItem} {token : Nat} (h : d.accepts (claimRun Γ.toCtx item.runId) = true) :
      WorkerStep Γ d (.verified item token) .quiet (d.wrote (claimRun Γ.toCtx item.runId)) (.claimed item token)
  | claimRefused {d : Daemon} {item : WorkItem} {token : Nat} (h : d.accepts (claimRun Γ.toCtx item.runId) = false) :
      WorkerStep Γ d (.verified item token) .quiet (d.wrote (claimRun Γ.toCtx item.runId)) (.leaving item token)
  | prepare {d : Daemon} {item : WorkItem} {token : Nat} {p : Γ.Prepared}
      (h : Γ.prepare d.session.tick item.request.definitionToon item.request.vars = .ok p) :
      WorkerStep Γ d (.claimed item token) .quiet d (.prepared item token p)
  | prepareError {d : Daemon} {item : WorkItem} {token : Nat} {e : String}
      (h : Γ.prepare d.session.tick item.request.definitionToon item.request.vars = .error e) :
      WorkerStep Γ d (.claimed item token) .quiet d (.failing item token e)
  | validate {d : Daemon} {item : WorkItem} {token : Nat} {p : Γ.Prepared} {planJson : String}
      (h : validateDispatchContext Γ d item p = .ok ()) (hplan : Γ.planJson p = .ok planJson) :
      WorkerStep Γ d (.prepared item token p) .quiet d (.planned item token p planJson)
  /-- The context does not hold or could not be read, or the plan could not be rendered. -/
  | validateError {d : Daemon} {item : WorkItem} {token : Nat} {p : Γ.Prepared} (e : String) :
      WorkerStep Γ d (.prepared item token p) .quiet d (.failing item token e)
  | checkToken {d : Daemon} {item : WorkItem} {token : Nat} {p : Γ.Prepared} {planJson : String}
      (h : d.isCancelled token = false) :
      WorkerStep Γ d (.planned item token p planJson) .quiet d (.starting item token p planJson)
  | cancelledBefore {d : Daemon} {item : WorkItem} {token : Nat} {p : Γ.Prepared} {planJson : String}
      (h : d.isCancelled token = true) :
      WorkerStep Γ d (.planned item token p planJson) .quiet d (.leaving item token)
  | begin_ {d : Daemon} {item : WorkItem} {token : Nat} {p : Γ.Prepared} {planJson : String}
      (h : d.accepts (beginRunExecution Γ.toCtx item.runId planJson item.approvalPin) = true) :
      WorkerStep Γ d (.starting item token p planJson) (.began item p token)
        (d.wrote (beginRunExecution Γ.toCtx item.runId planJson item.approvalPin)) (.executing item token)
  | beginRefused {d : Daemon} {item : WorkItem} {token : Nat} {p : Γ.Prepared} {planJson : String} (e : String)
      (h : d.accepts (beginRunExecution Γ.toCtx item.runId planJson item.approvalPin) = false) :
      WorkerStep Γ d (.starting item token p planJson) .quiet
        (d.wrote (beginRunExecution Γ.toCtx item.runId planJson item.approvalPin)) (.failing item token e)
  /-- The experiment ran, under the token, and left a journal. -/
  | execute {d : Daemon} {item : WorkItem} {token : Nat} (j : RunJournal) :
      WorkerStep Γ d (.executing item token) .quiet d (.finished item token j)
  /-- The runner returned an error, or its task panicked. -/
  | executeError {d : Daemon} {item : WorkItem} {token : Nat} (e : String) :
      WorkerStep Γ d (.executing item token) .quiet d (.failing item token e)
  | complete {d : Daemon} {item : WorkItem} {token : Nat} {j : RunJournal}
      (h : d.accepts (recordCompletion Γ.toCtx (d.isCancelled token) item.runId j) = true) :
      WorkerStep Γ d (.finished item token j) .quiet
        (d.wrote (recordCompletion Γ.toCtx (d.isCancelled token) item.runId j)) (.leaving item token)
  | completeRefused {d : Daemon} {item : WorkItem} {token : Nat} {j : RunJournal}
      (h : d.accepts (recordCompletion Γ.toCtx (d.isCancelled token) item.runId j) = false) :
      WorkerStep Γ d (.finished item token j) .quiet
        (d.wrote (recordCompletion Γ.toCtx (d.isCancelled token) item.runId j)) (.completionFailed item token j)
  /-- A stop arrived after the runner returned: clean up, then retry once as interrupted. -/
  | cleanup {d : Daemon} {item : WorkItem} {token : Nat} {j : RunJournal} (results failures : Nat)
      (h : d.isCancelled token = true) (hj : j.status ≠ .interrupted) :
      WorkerStep Γ d (.completionFailed item token j) .quiet d
        (.cleaned item token (if j.rollbackResults = 0 then
            { j with status := .interrupted, rollbackResults := results, rollbackFailures := failures }
          else { j with status := .interrupted }))
  /-- The late cleanup's task panicked. -/
  | cleanupError {d : Daemon} {item : WorkItem} {token : Nat} {j : RunJournal} (e : String)
      (h : d.isCancelled token = true) (hj : j.status ≠ .interrupted) :
      WorkerStep Γ d (.completionFailed item token j) .quiet d (.failing item token e)
  /-- The completion could not be stored: the run is left recoverable. -/
  | leave {d : Daemon} {item : WorkItem} {token : Nat} {j : RunJournal}
      (h : d.isCancelled token = false ∨ j.status = .interrupted) :
      WorkerStep Γ d (.completionFailed item token j) .quiet d (.leaving item token)
  | completeCleaned {d : Daemon} {item : WorkItem} {token : Nat} {j : RunJournal} :
      WorkerStep Γ d (.cleaned item token j) .quiet
        (d.wrote (recordCompletion Γ.toCtx (d.isCancelled token) item.runId j)) (.leaving item token)
  | fail {d : Daemon} {item : WorkItem} {token : Nat} {e : String} :
      WorkerStep Γ d (.failing item token e) .quiet (d.wrote (failRun Γ.toCtx item.runId e)) (.leaving item token)
  /-- The registration is dropped when `process` returns. -/
  | deregister {d : Daemon} {item : WorkItem} {token : Nat} :
      WorkerStep Γ d (.leaving item token) .quiet
        { d with tokens := d.tokens.filter (fun e => e.1 ≠ item.runId) } .idle

/-! ## Stop -/

/-- A step of `RunQueue::stop`; no next point means that the call returned. -/
inductive StopStep (Γ : DaemonCtx) (runId : String) (actor : Option String) :
    Daemon → StopPoint → Label Γ → Daemon → Option StopPoint → Prop where
  | read {d : Daemon} {state : RunState} (h : d.readRunState runId = some state) (hs : state.isTerminal = false) :
      StopStep Γ runId actor d .read .quiet d (some .lookup)
  /-- The run is unknown, terminal, or could not be read. -/
  | refused {d : Daemon} : StopStep Γ runId actor d .read .quiet d none
  | found {d : Daemon} {token : Nat} (h : d.token? runId = some token) :
      StopStep Γ runId actor d .lookup .quiet d (some (.cancel token))
  | notFound {d : Daemon} (h : d.token? runId = none) :
      StopStep Γ runId actor d .lookup .quiet d (some (.write none))
  | cancel {d : Daemon} {token : Nat} :
      StopStep Γ runId actor d (.cancel token) .quiet { d with cancelled := token :: d.cancelled } (some (.write (some token)))
  | write {d : Daemon} {found : Option Nat} :
      StopStep Γ runId actor d (.write found)
        (.stopWrite runId found (d.accepts (requestRunStop Γ.toCtx runId actor)))
        (d.wrote (requestRunStop Γ.toCtx runId actor)) none

/-! ## Dispatch -/

/-- The request a dispatch rebuilds from the stored run and its approval. -/
def dispatchItem (Γ : DaemonCtx) (runId : String) (row : RunRow) (a : ApprovalRow) (def_ : RegisteredDefinition) : WorkItem where
  runId := runId
  request := ⟨def_.id, def_.definitionToon, Γ.readVars row.paramsJson, a.env, a.target⟩
  approvalPin := some a.pinHash

/-- Approvals among decisions. -/
def approvedCount (ds : List ApprovalDecision) : Nat := ds.countP (fun dec => dec.decision = .approved)

/-- A step of `dispatch_approved`; no next point means that the call returned. -/
inductive DispatchStep (Γ : DaemonCtx) : Daemon → DispatchPoint → Daemon → Option DispatchPoint → Prop where
  | run {d : Daemon} {runId : String} {row : RunRow} (h : d.store.runGet runId = some row) (hs : row.state = .pendingApproval) :
      DispatchStep Γ d (.run runId) d (some (.approval runId row))
  | overridden {d : Daemon} {runId : String} {row : RunRow} {a : ApprovalRow} (h : d.store.approvalRequest runId = some a)
      (hc : a.consumedAtNs = none) (hb : a.breakGlass = true) :
      DispatchStep Γ d (.approval runId row) d (some (.definition runId row a))
  | approval {d : Daemon} {runId : String} {row : RunRow} {a : ApprovalRow} (h : d.store.approvalRequest runId = some a)
      (hc : a.consumedAtNs = none) (hb : a.breakGlass = false) :
      DispatchStep Γ d (.approval runId row) d (some (.decisions runId row a))
  | decisions {d : Daemon} {runId : String} {row : RunRow} {a : ApprovalRow}
      (hr : ∀ dec ∈ d.store.approvalDecisions runId, dec.decision ≠ .rejected)
      (hq : a.quorumRequired ≤ approvedCount (d.store.approvalDecisions runId)) (he : d.now Γ.toCtx ≤ a.expiresAtNs) :
      DispatchStep Γ d (.decisions runId row a) d (some (.definition runId row a))
  | definition {d : Daemon} {runId : String} {row : RunRow} {a : ApprovalRow} {def_ : RegisteredDefinition}
      (h : d.store.registryDefinition row.registryId = some def_) :
      DispatchStep Γ d (.definition runId row a) d (some (.permit (dispatchItem Γ runId row a def_)))
  | permit {d : Daemon} {item : WorkItem} (h : 0 < d.permits) :
      DispatchStep Γ d (.permit item) { d with permits := d.permits - 1 } (some (.write item))
  | write {d : Daemon} {item : WorkItem}
      (h : d.accepts (setRunStateWith Γ.toCtx item.runId .queued (some "dispatch_queued") none none) = true) :
      DispatchStep Γ d (.write item) (d.wrote (setRunStateWith Γ.toCtx item.runId .queued (some "dispatch_queued") none none))
        (some (.send item))
  | writeRefused {d : Daemon} {item : WorkItem}
      (h : d.accepts (setRunStateWith Γ.toCtx item.runId .queued (some "dispatch_queued") none none) = false) :
      DispatchStep Γ d (.write item)
        { d.wrote (setRunStateWith Γ.toCtx item.runId .queued (some "dispatch_queued") none none) with
          permits := d.permits + 1 } none
  | send {d : Daemon} {item : WorkItem} : DispatchStep Γ d (.send item) { d with queue := d.queue ++ [item] } none
  /-- The approval does not clear dispatch, the queue is full, or a read failed. -/
  | giveUp {d : Daemon} {p : DispatchPoint} (hw : ∀ item, p ≠ .write item) (hs : ∀ item, p ≠ .send item) :
      DispatchStep Γ d p d none

/-! ## Submission -/

/-- A run id no table knows: ids are fresh uuids. -/
structure Store.Fresh (st : Store) (runId : String) : Prop where
  runs : ∀ r ∈ st.runs, r.id ≠ runId
  approvals : ∀ a ∈ st.approvals, a.runId ≠ runId
  decisions : ∀ dec ∈ st.decisions, dec.runId ≠ runId
  pins : ∀ p ∈ st.pins, p.runId ≠ runId

/-- The approval request of a gated submission. -/
def gatedRequest (Γ : Ctx) (runId : String) (request : RunRequest) (tier : Tier) (actor : Option String) (now : Int) :
    ApprovalRequest where
  runId := runId
  tier := tier.asStr
  pinHash := request.pin Γ
  env := request.env
  target := request.target
  quorumRequired := tier.quorumRequired
  requestedBy := actor.getD "synthetic"
  requestedAtNs := now
  expiresAtNs := now + tier.ttlNs

/-- A step of a submission: `enqueue_checked` at tier T0, `request_gated_checked` above. -/
inductive EnqueueStep (Γ : DaemonCtx) : Daemon → EnqueuePoint → Daemon → EnqueueOut → Prop where
  | start {d : Daemon} {request : RunRequest} {actor : Option String} {p : Γ.Prepared} {hash : String} {def_ : RegisteredDefinition}
      (runId : String) (paramsJson : Option String) (publicJson : String) (h : 0 < d.permits)
      (hdef : d.store.registryDefinition request.registryId = some def_) (htoon : def_.definitionToon = request.definitionToon)
      (hp : Γ.prepare d.session.tick request.definitionToon request.vars = .ok p) (hh : Γ.executionHash p = .ok hash) :
      EnqueueStep Γ d (.start request .T0 actor) { d with permits := d.permits - 1 }
        (.next (.write ⟨runId, request.registryId, paramsJson, d.now Γ.toCtx, actor⟩ request ⟨some hash, publicJson⟩))
  | startGated {d : Daemon} {request : RunRequest} {tier current : Tier} {actor : Option String} {p : Γ.Prepared} {hash : String}
      {def_ : RegisteredDefinition} (runId : String) (paramsJson : Option String) (publicJson : String) (ht : tier ≠ .T0)
      (hdef : d.store.registryDefinition request.registryId = some def_) (htoon : def_.definitionToon = request.definitionToon)
      (hp : Γ.prepare d.session.tick request.definitionToon request.vars = .ok p)
      (hc : Γ.classifyExecution d.session.tick p request.env request.target false = .ok current)
      (hle : ¬ tier.asStr < current.asStr) (hh : Γ.executionHash p = .ok hash) :
      EnqueueStep Γ d (.start request tier actor) d
        (.next (.writeGated ⟨runId, request.registryId, paramsJson, d.now Γ.toCtx, actor⟩
          (gatedRequest Γ.toCtx runId request tier actor (d.now Γ.toCtx)) ⟨some hash, publicJson⟩))
  /-- The queue is full, or the inputs do not resolve, or they changed since the preview. -/
  | refused {d : Daemon} {request : RunRequest} {tier : Tier} {actor : Option String} :
      EnqueueStep Γ d (.start request tier actor) d .failed
  | write {d : Daemon} {run : NewRun} {request : RunRequest} {context : RunContext} (hfresh : d.store.Fresh run.id)
      (h : d.accepts (insertRunWithContext Γ.toCtx run (some context)) = true) :
      EnqueueStep Γ d (.write run request context) (d.wrote (insertRunWithContext Γ.toCtx run (some context)))
        (.next (.send ⟨run.id, request, none⟩))
  | writeRefused {d : Daemon} {run : NewRun} {request : RunRequest} {context : RunContext}
      (h : d.accepts (insertRunWithContext Γ.toCtx run (some context)) = false) :
      EnqueueStep Γ d (.write run request context)
        { d.wrote (insertRunWithContext Γ.toCtx run (some context)) with permits := d.permits + 1 } .failed
  | writeGated {d : Daemon} {run : NewRun} {req : ApprovalRequest} {context : RunContext} {detail : Option String}
      (hfresh : d.store.Fresh run.id) (h : d.accepts (insertGatedRunWithContext Γ.toCtx run req detail (some context)) = true) :
      EnqueueStep Γ d (.writeGated run req context) (d.wrote (insertGatedRunWithContext Γ.toCtx run req detail (some context)))
        (.done run.id)
  | writeGatedRefused {d : Daemon} {run : NewRun} {req : ApprovalRequest} {context : RunContext} {detail : Option String}
      (h : d.accepts (insertGatedRunWithContext Γ.toCtx run req detail (some context)) = false) :
      EnqueueStep Γ d (.writeGated run req context) (d.wrote (insertGatedRunWithContext Γ.toCtx run req detail (some context)))
        .failed
  | send {d : Daemon} {item : WorkItem} :
      EnqueueStep Γ d (.send item) { d with queue := d.queue ++ [item] } (.done item.runId)

/-! ## Review -/

/-- The closure of an approval. -/
def approveWrites (Γ : Ctx) (dec : ApprovalDecision) (detail actor : Option String) : Writer Unit := do
  insertPendingApprovalDecision Γ dec
  insertRunAudit Γ dec.runId "approved" detail actor

/-- The closure of a rejection, up to its second audit event. -/
def rejectWrites (Γ : Ctx) (dec : ApprovalDecision) : Writer Unit := do
  insertPendingApprovalDecision Γ dec
  finishRun Γ dec.runId .rejected none (some "not_needed") dec.note

/-- The terminal flip of an expired approval. -/
def expireRun (Γ : Ctx) (runId : String) : Writer Unit :=
  finishRun Γ runId .expired none (some "not_needed") (some "approval TTL lapsed")

/-- The closure of a break-glass override. -/
def breakGlassWrites (Γ : Ctx) (runId username justification : String) (actor : Option String) : Writer Unit := do
  markPendingBreakGlass Γ runId username justification
  insertRunAudit Γ runId "overridden" (some justification) actor

/-- A step of an approval endpoint, and the tasks it goes on as. -/
inductive ReviewStep (Γ : DaemonCtx) : Daemon → ReviewPoint → Daemon → List (Task Γ) → Prop where
  | approve {d : Daemon} {runId username : String} (h : d.readRunState runId = some .pendingApproval) :
      ReviewStep Γ d (.approve runId username) d [.review (.gate runId username)]
  /-- The gate is clear: below T3, or the policy enacts. -/
  | gate {d : Daemon} {runId username : String} {a : ApprovalRow} (note detail actor : Option String)
      (h : d.store.approvalRequest runId = some a) (he : d.now Γ.toCtx ≤ a.expiresAtNs) :
      ReviewStep Γ d (.gate runId username) d
        [.review (.writeApproval ⟨runId, username, .approved, note, d.now Γ.toCtx⟩ detail actor)]
  | gateExpired {d : Daemon} {runId username : String} {a : ApprovalRow} (h : d.store.approvalRequest runId = some a)
      (he : a.expiresAtNs < d.now Γ.toCtx) :
      ReviewStep Γ d (.gate runId username) d [.review (.writeExpired runId)]
  | gateVeto {d : Daemon} {runId username : String} {a : ApprovalRow} (rule : String) (actor : Option String)
      (h : d.store.approvalRequest runId = some a) (ht : a.tier = Tier.T3.asStr) :
      ReviewStep Γ d (.gate runId username) d [.review (.writeVeto runId rule actor)]
  | writeApproval {d : Daemon} {dec : ApprovalDecision} {detail actor : Option String}
      (h : d.accepts (approveWrites Γ.toCtx dec detail actor) = true) :
      ReviewStep Γ d (.writeApproval dec detail actor) (d.wrote (approveWrites Γ.toCtx dec detail actor))
        [.dispatch (.run dec.runId)]
  | writeApprovalRefused {d : Daemon} {dec : ApprovalDecision} {detail actor : Option String}
      (h : d.accepts (approveWrites Γ.toCtx dec detail actor) = false) :
      ReviewStep Γ d (.writeApproval dec detail actor) (d.wrote (approveWrites Γ.toCtx dec detail actor)) []
  | writeExpired {d : Daemon} {runId : String} :
      ReviewStep Γ d (.writeExpired runId) (d.wrote (expireRun Γ.toCtx runId)) []
  | writeVeto {d : Daemon} {runId rule : String} {actor : Option String} :
      ReviewStep Γ d (.writeVeto runId rule actor)
        (d.wrote (insertRunAudit Γ.toCtx runId "gate_veto" (some rule) actor)) []
  | reject {d : Daemon} {runId username : String} {note actor : Option String}
      (h : d.readRunState runId = some .pendingApproval) :
      ReviewStep Γ d (.reject runId username note actor) d
        [.review (.writeRejection ⟨runId, username, .rejected, note, d.now Γ.toCtx⟩ actor)]
  | writeRejection {d : Daemon} {dec : ApprovalDecision} {actor : Option String}
      (h : d.accepts (rejectWrites Γ.toCtx dec) = true) :
      ReviewStep Γ d (.writeRejection dec actor)
        ((d.wrote (rejectWrites Γ.toCtx dec)).wrote (insertRunAudit Γ.toCtx dec.runId "rejected" dec.note actor)) []
  /-- A rejection the writer refuses. A store fault between the decision and the flip of the run, the two transactions of the
  closure, is the one fault left out. -/
  | writeRejectionRefused {d : Daemon} {dec : ApprovalDecision} {actor : Option String}
      (h : d.accepts (rejectWrites Γ.toCtx dec) = false) (hfault : (d.wrote (rejectWrites Γ.toCtx dec)).store = d.store) :
      ReviewStep Γ d (.writeRejection dec actor) (d.wrote (rejectWrites Γ.toCtx dec)) []
  | breakGlass {d : Daemon} {runId username justification : String} {actor : Option String}
      (h : d.readRunState runId = some .pendingApproval) :
      ReviewStep Γ d (.breakGlass runId username justification actor) d
        [.review (.writeBreakGlass runId username justification actor)]
  | writeBreakGlass {d : Daemon} {runId username justification : String} {actor : Option String}
      (h : d.accepts (breakGlassWrites Γ.toCtx runId username justification actor) = true) :
      ReviewStep Γ d (.writeBreakGlass runId username justification actor)
        (d.wrote (breakGlassWrites Γ.toCtx runId username justification actor)) [.dispatch (.run runId)]
  /-- The override is refused, or the retrospective record after it could not be written. -/
  | writeBreakGlassRefused {d : Daemon} {runId username justification : String} {actor : Option String} :
      ReviewStep Γ d (.writeBreakGlass runId username justification actor)
        (d.wrote (breakGlassWrites Γ.toCtx runId username justification actor)) []
  /-- The run is not pending, the gate does not enact, or a read failed. -/
  | giveUpApprove {d : Daemon} {runId username : String} : ReviewStep Γ d (.approve runId username) d []
  | giveUpGate {d : Daemon} {runId username : String} : ReviewStep Γ d (.gate runId username) d []
  | giveUpReject {d : Daemon} {runId username : String} {note actor : Option String} :
      ReviewStep Γ d (.reject runId username note actor) d []
  | giveUpBreakGlass {d : Daemon} {runId username justification : String} {actor : Option String} :
      ReviewStep Γ d (.breakGlass runId username justification actor) d []

/-! ## The campaign supervisor -/

/-- The definition is a campaign envelope. -/
def RegisteredDefinition.isGameday (def_ : RegisteredDefinition) : Bool := def_.kind = some "gameday"

/-- The campaign parents a tick advances. -/
def Store.activeCampaigns (st : Store) : List Campaign :=
  st.runs.flatMap fun r =>
    (st.registry.filter (fun def_ => def_.id = r.registryId && def_.isGameday)).filterMap fun def_ =>
      if r.gamedayId = none ∧ (r.state = .queued ∨ r.state = .running) then some (r, def_) else none

/-- The children of a campaign, in the order they were queued. -/
def Store.campaignChildren (st : Store) (parentId : String) : List RunRow :=
  (st.runs.filter (fun r => r.gamedayId = some parentId)).insertionSort (fun a b => a.queuedAtNs ≤ b.queuedAtNs)

/-- The campaign outcome: any failed or orphaned child fails it; else the fraction of passed children decides. -/
def campaignOutcome (Γ : DaemonCtx) (envelope : String) (children : List RunRow) : RunState :=
  if children.any (fun c => c.state = .failed || c.state = .orphaned) then .failed
  else if Γ.meetsThreshold envelope (children.countP (fun c => c.state = .passed)) children.length then .passed
  else .deviated

/-- The closure that links a child and marks the parent running. -/
def linkChild (Γ : Ctx) (child : String) (parent : RunRow) : Writer Unit := do
  let _ ← execute Γ (updateRuns (fun r => r.id = child) (fun r => { r with gamedayId := some parent.id }))
  if parent.state = .queued then
    setRunStateWith Γ parent.id .running (some "campaign_started") none none
  else pure ()

/-- A supervisor's step. -/
inductive SupervisorStep (Γ : DaemonCtx) : Daemon → SupervisorPoint → Label Γ → Daemon → SupervisorPoint → Prop where
  | tick {d : Daemon} : SupervisorStep Γ d .idle .quiet d (.tick d.store.activeCampaigns)
  | done {d : Daemon} : SupervisorStep Γ d (.tick []) .quiet d .idle
  /-- Every step has a child and every child is terminal. -/
  | decide {d : Daemon} {parent : Campaign} {parents : List Campaign}
      (h : (Γ.campaignSteps parent.2.definitionToon).length ≤ (d.store.campaignChildren parent.1.id).length)
      (ht : ∀ c ∈ d.store.campaignChildren parent.1.id, c.state.isTerminal = true) :
      SupervisorStep Γ d (.tick (parent :: parents)) .quiet d
        (.finish parent.1.id (campaignOutcome Γ parent.2.definitionToon (d.store.campaignChildren parent.1.id)) parents)
  /-- A child is still active, or a read failed. -/
  | wait {d : Daemon} {parent : Campaign} {parents : List Campaign} :
      SupervisorStep Γ d (.tick (parent :: parents)) .quiet d (.tick parents)
  /-- The next step of the campaign, through the normal run path. -/
  | enqueue {d : Daemon} {parent : Campaign} {parents : List Campaign} {registryId : String}
      (request : RunRequest) (tier : Tier) (actor : Option String)
      (h : (Γ.campaignSteps parent.2.definitionToon)[(d.store.campaignChildren parent.1.id).length]? = some registryId)
      (hl : ∀ c ∈ (d.store.campaignChildren parent.1.id).getLast?, c.state.isTerminal = true)
      (hr : request.registryId = registryId) :
      SupervisorStep Γ d (.tick (parent :: parents)) .quiet d (.launching (.start request tier actor) parent parents)
  | finish {d : Daemon} {parentId : String} {outcome : RunState} {parents : List Campaign} :
      SupervisorStep Γ d (.finish parentId outcome parents) (.finishParent parentId)
        (d.wrote (finishRun Γ.toCtx parentId outcome none (some "not_needed") none)) (.tick parents)
  | launching {d d' : Daemon} {p p' : EnqueuePoint} {parent : Campaign} {parents : List Campaign}
      (h : EnqueueStep Γ d p d' (.next p')) :
      SupervisorStep Γ d (.launching p parent parents) .quiet d' (.launching p' parent parents)
  | launched {d d' : Daemon} {p : EnqueuePoint} {runId : String} {parent : Campaign} {parents : List Campaign}
      (h : EnqueueStep Γ d p d' (.done runId)) :
      SupervisorStep Γ d (.launching p parent parents) .quiet d' (.link runId parent parents)
  | launchFailed {d d' : Daemon} {p : EnqueuePoint} {parent : Campaign} {parents : List Campaign}
      (h : EnqueueStep Γ d p d' .failed) :
      SupervisorStep Γ d (.launching p parent parents) .quiet d' (.tick parents)
  | link {d : Daemon} {child : String} {parent : Campaign} {parents : List Campaign} :
      SupervisorStep Γ d (.link child parent parents) .quiet (d.wrote (linkChild Γ.toCtx child parent.1)) (.tick parents)

/-! ## The orphan sweep -/

/-- The orphan's execution had started, so its faults may still be live. -/
def Orphan.executionStarted (o : Orphan) : Bool :=
  o.1.startedAtNs.isSome || o.1.state ∈ [.running, .stopping, .rollbackPending]

/-- The closure that marks an orphan. -/
def markOrphan (Γ : Ctx) (runId : String) : Writer Unit :=
  setRunStateWith Γ runId .orphaned (some "orphan_detected") (some "daemon restarted; run was owned by a previous process") none

/-- The closure that finishes an orphan. -/
def finishOrphan (Γ : Ctx) (runId : String) : OrphanOutcome → Writer Unit
  | .nothingExecuted => finishRun Γ runId .aborted none (some "not_needed") (some "orphaned before execution")
  | .rolledBack => finishRun Γ runId .aborted none (some "completed") (some "orphaned; rollback completed after restart")
  | .rollbackFailed e => finishRun Γ runId .rollbackPending none (some "failed") (some e)

/-- The tasks the daemon serves with. -/
def servingTasks (Γ : DaemonCtx) : List (Task Γ) :=
  List.replicate (max Γ.concurrency 1) (.worker .idle) ++ [.sweep [], .supervisor .idle, .outside]

/-- A step of the orphan sweep, and the tasks it goes on as. -/
inductive BootStep (Γ : DaemonCtx) : Daemon → BootPoint → Label Γ → Daemon → List (Task Γ) → Prop where
  | start {d : Daemon} : BootStep Γ d .start .quiet d [.boot (.next d.store.activeRuns)]
  /-- The store could not be read: the daemon does not start. -/
  | startError {d : Daemon} : BootStep Γ d .start .quiet d []
  | mark {d : Daemon} {o : Orphan} {orphans : List Orphan} :
      BootStep Γ d (.next (o :: orphans)) .quiet (d.wrote (markOrphan Γ.toCtx o.1.id)) [.boot (.recover o orphans)]
  | nothingExecuted {d : Daemon} {o : Orphan} {orphans : List Orphan} (h : o.executionStarted = false) :
      BootStep Γ d (.recover o orphans) .quiet d [.boot (.close o .nothingExecuted orphans)]
  | rollbackStarted {d : Daemon} {o : Orphan} {orphans : List Orphan} (h : o.executionStarted = true) :
      BootStep Γ d (.recover o orphans) .quiet
        (d.wrote (insertRunAudit Γ.toCtx o.1.id "rollback_started" (some "orphan recovery") none)) [.boot (.rollback o orphans)]
  /-- The plan or the definition did not prepare. -/
  | notPrepared {d : Daemon} {o : Orphan} {orphans : List Orphan} (e : String) :
      BootStep Γ d (.rollback o orphans) .quiet d [.boot (.close o (.rollbackFailed e) orphans)]
  | rolledBack {d : Daemon} {o : Orphan} {orphans : List Orphan} :
      BootStep Γ d (.rollback o orphans) .quiet d [.boot (.audit o "rollback_completed" .rolledBack orphans)]
  | rollbackFailed {d : Daemon} {o : Orphan} {orphans : List Orphan} (e : String) :
      BootStep Γ d (.rollback o orphans) .quiet d [.boot (.audit o "rollback_failed" (.rollbackFailed e) orphans)]
  | audit {d : Daemon} {o : Orphan} {event : String} {outcome : OrphanOutcome} {orphans : List Orphan} :
      BootStep Γ d (.audit o event outcome orphans) .quiet
        (d.wrote (insertRunAudit Γ.toCtx o.1.id event none none)) [.boot (.close o outcome orphans)]
  | close {d : Daemon} {o : Orphan} {outcome : OrphanOutcome} {orphans : List Orphan} :
      BootStep Γ d (.close o outcome orphans) (.finishOrphan o.1.id) (d.wrote (finishOrphan Γ.toCtx o.1.id outcome))
        [.boot (.next orphans)]
  /-- Every orphan is reconciled: the servers start. -/
  | serve {d : Daemon} : BootStep Γ d (.next []) .quiet d (servingTasks Γ)

/-! ## The daemon -/

/-- The closure that inserts a registry definition. -/
def registerDefinition (Γ : Ctx) (def_ : RegisteredDefinition) : Writer Unit := do
  let _ ← execute Γ (fun st => (1, { st with registry := st.registry ++ [def_] }))

/-- The active campaign of a definition, if any. -/
def Store.activeGamedayCampaign (st : Store) (registryId : String) : Option RunRow :=
  st.runs.find? (fun r => r.registryId = registryId && r.gamedayId = none && r.state.isActive)

/-- The closure that launches a campaign unless one is active. -/
def launchCampaign (Γ : Ctx) (run : NewRun) : Writer Unit := do
  let active ← query Γ (fun st => st.activeGamedayCampaign run.registryId)
  match active with
  | some _ => pure ()
  | none => insertRunWithContext Γ run none

/-- What the API lets in: submissions, reviews, stops, campaign launches and registrations. A registry id is a prefix of the
definition's content hash: two texts with one id are left out. A campaign envelope is not an experiment definition. -/
inductive Arrives (Γ : DaemonCtx) (d : Daemon) : Task Γ → Prop where
  | enqueue (request : RunRequest) (tier : Tier) (actor : Option String) : Arrives Γ d (.enqueue (.start request tier actor))
  | approve (runId username : String) : Arrives Γ d (.review (.approve runId username))
  | reject (runId username : String) (note actor : Option String) : Arrives Γ d (.review (.reject runId username note actor))
  | breakGlass (runId username justification : String) (actor : Option String) :
      Arrives Γ d (.review (.breakGlass runId username justification actor))
  | stop (runId : String) (actor : Option String) : Arrives Γ d (.stop runId actor .read)
  | launch (run : NewRun) (def_ : RegisteredDefinition) (h : def_ ∈ d.store.registry) (hid : def_.id = run.registryId)
      (hk : def_.isGameday = true) : Arrives Γ d (.launch run)
  | register (def_ : RegisteredDefinition) (hk : def_.isGameday = true ↔ Γ.parses def_.definitionToon = false) :
      Arrives Γ d (.register def_)

/-- A step of a task, and the tasks it goes on as. -/
inductive TaskStep (Γ : DaemonCtx) : Daemon → Task Γ → Label Γ → Daemon → List (Task Γ) → Prop where
  | boot {d d' : Daemon} {p : BootPoint} {l : Label Γ} {ts : List (Task Γ)} (h : BootStep Γ d p l d' ts) :
      TaskStep Γ d (.boot p) l d' ts
  | worker {d d' : Daemon} {p p' : WorkerPoint Γ} {l : Label Γ} (h : WorkerStep Γ d p l d' p') :
      TaskStep Γ d (.worker p) l d' [.worker p']
  | stop {d d' : Daemon} {runId : String} {actor : Option String} {p p' : StopPoint} {l : Label Γ}
      (h : StopStep Γ runId actor d p l d' (some p')) :
      TaskStep Γ d (.stop runId actor p) l d' [.stop runId actor p']
  | stopped {d d' : Daemon} {runId : String} {actor : Option String} {p : StopPoint} {l : Label Γ}
      (h : StopStep Γ runId actor d p l d' none) : TaskStep Γ d (.stop runId actor p) l d' []
  | dispatch {d d' : Daemon} {p p' : DispatchPoint} (h : DispatchStep Γ d p d' (some p')) :
      TaskStep Γ d (.dispatch p) .quiet d' [.dispatch p']
  | dispatched {d d' : Daemon} {p : DispatchPoint} (h : DispatchStep Γ d p d' none) :
      TaskStep Γ d (.dispatch p) .quiet d' []
  | review {d d' : Daemon} {p : ReviewPoint} {ts : List (Task Γ)} (h : ReviewStep Γ d p d' ts) :
      TaskStep Γ d (.review p) .quiet d' ts
  | enqueue {d d' : Daemon} {p p' : EnqueuePoint} (h : EnqueueStep Γ d p d' (.next p')) :
      TaskStep Γ d (.enqueue p) .quiet d' [.enqueue p']
  | enqueued {d d' : Daemon} {p : EnqueuePoint} {runId : String} (h : EnqueueStep Γ d p d' (.done runId)) :
      TaskStep Γ d (.enqueue p) .quiet d' []
  | enqueueFailed {d d' : Daemon} {p : EnqueuePoint} (h : EnqueueStep Γ d p d' .failed) :
      TaskStep Γ d (.enqueue p) .quiet d' []
  /-- The sweep reads what has lapsed. -/
  | sweep {d : Daemon} : TaskStep Γ d (.sweep []) .quiet d [.sweep (d.store.expiredPendingApprovals (d.now Γ.toCtx))]
  | expire {d : Daemon} {runId : String} {expired : List String} :
      TaskStep Γ d (.sweep (runId :: expired)) .quiet (d.wrote (expireRun Γ.toCtx runId)) [.sweep expired]
  | supervisor {d d' : Daemon} {p p' : SupervisorPoint} {l : Label Γ} (h : SupervisorStep Γ d p l d' p') :
      TaskStep Γ d (.supervisor p) l d' [.supervisor p']
  | register {d : Daemon} {def_ : RegisteredDefinition}
      (h : ∀ o ∈ d.store.registry, o.id = def_.id → o.definitionToon = def_.definitionToon) :
      TaskStep Γ d (.register def_) .quiet (d.wrote (registerDefinition Γ.toCtx def_)) []
  | launch {d : Daemon} {run : NewRun} (hfresh : d.store.Fresh run.id) :
      TaskStep Γ d (.launch run) .quiet (d.wrote (launchCampaign Γ.toCtx run)) []
  | outside {d : Daemon} {t : Task Γ} (h : Arrives Γ d t) : TaskStep Γ d .outside .quiet d [.outside, t]

/-- The process ends at any moment: what it held is gone, the store stays, and the next process starts with the orphan sweep. -/
inductive Restart (Γ : DaemonCtx) : Interleave.Config Daemon (Task Γ) → Label Γ → Interleave.Config Daemon (Task Γ) → Prop where
  | crash (c : Interleave.Config Daemon (Task Γ)) :
      Restart Γ c .crash ⟨{ c.shared with tokens := [], cancelled := [], queue := [], permits := max Γ.queueDepth 1 },
        [.boot .start]⟩

/-- The daemon as a system of tasks. -/
def daemonSystem (Γ : DaemonCtx) : Interleave.System Daemon (Task Γ) (Label Γ) where
  step := TaskStep Γ
  reset := Restart Γ

/-- The daemon before its first start: an empty store, and the orphan sweep to come. -/
def daemonInit (Γ : DaemonCtx) : Interleave.Config Daemon (Task Γ) :=
  ⟨⟨⟨Store.empty, 0⟩, [], 0, [], [], max Γ.queueDepth 1⟩, [.boot .start]⟩

/-- On an empty store there is no orphan: the daemon goes on to serve. -/
theorem serving_reachable (Γ : DaemonCtx) {P : Daemon → Label Γ → Prop} (hp : ∀ d, P d .quiet) :
    Interleave.Reach (daemonSystem Γ) P (daemonInit Γ) ⟨(daemonInit Γ).shared, servingTasks Γ⟩ := by
  have h := (Interleave.Reach.refl (S := daemonSystem Γ) (P := P) (daemonInit Γ)).task 0 rfl (.boot .start) (hp _)
  have h := h.task 0 rfl (.boot .serve) (hp _)
  simpa [daemonInit] using h

/-- A daemon to run: no statement is refused, every text but one is an experiment, and production needs one approval. -/
def smallCtx : DaemonCtx where
  sha256Hex := id
  clock := fun n => n
  fails := fun _ => false
  Prepared := Unit
  parses := fun toon => toon ≠ "gameday"
  prepare := fun _ toon _ => if toon = "gameday" then .error "no experiment" else .ok ()
  prepare_parses := by
    intro n toon vars p h
    split at h
    · nomatch h
    · simpa using ‹¬ _›
  planJson := fun _ => .ok "[]"
  executionHash := fun _ => .ok "resolved"
  classifyExecution := fun _ _ env _ _ => .ok (if env = "prod" then .T1 else .T0)
  actorRequiresBinding := fun _ _ _ => .ok false
  readVars := fun _ => []
  campaignSteps := fun _ => ["def-1"]
  meetsThreshold := fun _ passed total => 3 * max total 1 ≤ 4 * passed
  concurrency := 1
  queueDepth := 4

/-- An experiment definition, and a campaign of it. -/
def smallDefinition : RegisteredDefinition := ⟨"def-1", "latency", "experiment", "def-1", none⟩

def smallCampaign : RegisteredDefinition := ⟨"def-2", "game day", "gameday", "def-2", some "gameday"⟩

end Tumult
