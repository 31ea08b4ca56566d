import Tumult.Lib.Interleave
import Tumult.Core.Types
import Tumult.Lake.Approvals

/-!
# The daemon's shared state

What the tasks of `tumultd` share: the write session, the registry of cancellation tokens, the run queue and its permits; and
what they take from outside: the definition parser, the environment a definition resolves against, the execution policy. A write
task sends a closure to the single writer, a sequence of writes that stops at the first error (`execWrites`).
-/

namespace Tumult

/-- Approval tiers. -/
inductive Tier where
  | T0
  | T1
  | T2
  | T3
  deriving DecidableEq, Repr

/-- The stored tier label. -/
def Tier.asStr : Tier → String
  | .T0 => "T0"
  | .T1 => "T1"
  | .T2 => "T2"
  | .T3 => "T3"

/-- Approvals required to dispatch. -/
def Tier.quorumRequired : Tier → Int
  | .T3 => 2
  | .T0 | .T1 | .T2 => 1

/-- Approval time-to-live in nanoseconds. -/
def Tier.ttlNs : Tier → Int
  | .T1 => 72 * 3600000000000
  | .T2 => 24 * 3600000000000
  | .T3 => 4 * 3600000000000
  | .T0 => 0

/-- Template variables: a map from names to values, as the sorted list of its entries. -/
abbrev Vars : Type := List (String × String)

/-- A run accepted by the API. -/
structure RunRequest where
  registryId : String
  definitionToon : String
  vars : Vars
  env : String
  target : Option String
  deriving DecidableEq, Repr

/-- A dequeued unit of work: the run, its request, and the approved pin of a gated run. -/
structure WorkItem where
  runId : String
  request : RunRequest
  approvalPin : Option String
  deriving DecidableEq, Repr

/-- What the daemon takes from outside its own state: the parser of definitions, what a definition resolves to at a given time,
the fingerprint and the tier of what it resolved to, and the campaign envelope's contents. -/
structure DaemonCtx extends Ctx where
  /-- A resolved experiment with the environment to inject. -/
  Prepared : Type
  /-- `parse_experiment` accepts the definition. -/
  parses : String → Bool
  /-- `RecoveryPlan::capture` and `prepare`, at a tick. -/
  prepare : Nat → String → Vars → Except String Prepared
  /-- A definition that does not parse does not resolve. -/
  prepare_parses : ∀ n toon vars p, prepare n toon vars = .ok p → parses toon = true
  /-- `serde_json::to_string` of the recovery plan. -/
  planJson : Prepared → Except String String
  /-- `execution_hash`. -/
  executionHash : Prepared → Except String String
  /-- `classify_execution`, at a tick. -/
  classifyExecution : Nat → Prepared → String → Option String → Bool → Except String Tier
  /-- `actor_requires_binding`, at a tick. -/
  actorRequiresBinding : Nat → Option String → String → Except String Bool
  /-- The string entries of a `params_json` object. -/
  readVars : Option String → Vars
  /-- The registry ids of a campaign envelope's steps. -/
  campaignSteps : String → List String
  /-- Whether a number of passed children out of all of them meets a campaign envelope's threshold. -/
  meetsThreshold : String → Nat → Nat → Bool
  /-- `TUMULTD_RUN_CONCURRENCY`. -/
  concurrency : Nat
  /-- `TUMULTD_RUN_QUEUE_DEPTH`. -/
  queueDepth : Nat

/-- The exact content an approval approves. -/
structure CanonicalPin where
  definitionToon : String
  params : Vars
  env : String
  target : Option String
  deriving DecidableEq, Repr

/-- A JSON object of strings. -/
def varsJson (vars : Vars) : List Char :=
  '\x7b' :: ((vars.map fun kv => JsonText.quote kv.1 ++ ':' :: JsonText.quote kv.2).intersperse [',']).flatten ++ ['\x7d']

/-- The canonical JSON of a pin. -/
def CanonicalPin.toJson (p : CanonicalPin) : List Char :=
  open JsonText in
  field "\x7b\"definition_toon\":" (quote p.definitionToon) ++ (field ",\"params\":" (varsJson p.params) ++
    (field ",\"env\":" (quote p.env) ++ (field ",\"target\":" (quoteOrNull p.target) ++ ['\x7d'])))

/-- Digest of the canonical pin. -/
def approvalPin (Γ : Ctx) (p : CanonicalPin) : String := Γ.sha256Hex (String.ofList p.toJson)

/-- The pin of a request's inputs. -/
def RunRequest.pin (Γ : Ctx) (r : RunRequest) : String := approvalPin Γ ⟨r.definitionToon, r.vars, r.env, r.target⟩

/-- The journal's fields the worker's completion reads. -/
structure RunJournal where
  experimentId : String
  status : ExperimentStatus
  rollbackResults : Nat
  rollbackFailures : Nat
  deriving DecidableEq, Repr

/-- Map the journal's status onto the run state machine. -/
def terminalState : ExperimentStatus → RunState
  | .completed => .passed
  | .deviated => .deviated
  | .failed => .failed
  | .aborted | .interrupted | .halted => .aborted

/-- The state a completion writes: a failed rollback leaves the run for cleanup. -/
def completionState (j : RunJournal) : RunState :=
  if 0 < j.rollbackFailures then .rollbackPending else terminalState j.status

/-- The rollback status a completion writes. -/
def completionRollback (j : RunJournal) : String :=
  if j.rollbackResults = 0 then "not_needed" else if j.rollbackFailures = 0 then "completed" else "failed"

/-! ## Shared state -/

/-- What the daemon's tasks share. -/
structure Daemon where
  session : Session
  /-- Cancellation tokens of runs executing in this process, by run id. -/
  tokens : List (String × Nat)
  /-- Tokens are numbered in the order they are made. -/
  nextToken : Nat
  cancelled : List Nat
  /-- The channel of work items. -/
  queue : List WorkItem
  /-- Free slots of the waiting queue. -/
  permits : Nat

/-- The run tables. -/
def Daemon.store (d : Daemon) : Store := d.session.store

/-- The registry of cancellation tokens, looked up by run id. -/
def Daemon.token? (d : Daemon) (runId : String) : Option Nat := (d.tokens.find? (fun e => e.1 = runId)).map (·.2)

/-- The token is cancelled. -/
def Daemon.isCancelled (d : Daemon) (token : Nat) : Bool := token ∈ d.cancelled

/-- Current state of one run. -/
def Daemon.readRunState (d : Daemon) (runId : String) : Option RunState := (d.store.runGet runId).map (·.state)

/-- The wall clock, read between two steps. -/
def Daemon.now (Γ : Ctx) (d : Daemon) : Int := Γ.clock d.session.tick

/-- The daemon after a closure on the writer. -/
def Daemon.wrote {α : Type} (d : Daemon) (w : Writer α) : Daemon := { d with session := (w d.session).2 }

/-- The closure reported success. -/
def Daemon.accepts {α : Type} (d : Daemon) (w : Writer α) : Bool :=
  match (w d.session).1 with
  | .ok _ => true
  | .error _ => false

@[simp] theorem Daemon.wrote_tokens {α : Type} (d : Daemon) (w : Writer α) : (d.wrote w).tokens = d.tokens := rfl

@[simp] theorem Daemon.wrote_nextToken {α : Type} (d : Daemon) (w : Writer α) : (d.wrote w).nextToken = d.nextToken := rfl

@[simp] theorem Daemon.wrote_cancelled {α : Type} (d : Daemon) (w : Writer α) : (d.wrote w).cancelled = d.cancelled := rfl

@[simp] theorem Daemon.wrote_queue {α : Type} (d : Daemon) (w : Writer α) : (d.wrote w).queue = d.queue := rfl

end Tumult
