import Tumult.Daemon.State
import Tumult.Lake.Auth
import Tumult.Core.Text

/-!
# Schedules

Recurring runs: the table of the schedules, the policy that a recurring execution is checked against, and one tick of the scheduler.
A tick calls the outside many times, and other tasks write between its calls, so every call meets the outside as it is then.
-/

namespace Tumult

open Auth (UserRow)

/-! ## The table -/

/-- One row of `run_schedules`. -/
structure ScheduleRow where
  id : String
  name : String
  registryId : String
  intervalS : Int
  varsJson : Option String
  env : String
  target : Option String
  enabled : Bool
  nextRunAtNs : Int
  lastRunAtNs : Option Int
  lastRunId : Option String
  createdBy : Option String
  createdAtNs : Int
  deriving DecidableEq, Repr

/-- Record a fire: stamp the run it produced and advance the next one. -/
def scheduleFired (id : String) (runId : Option String) (firedAtNs nextRunAtNs : Int) (rows : List ScheduleRow) : List ScheduleRow :=
  rows.map fun s => if s.id = id then { s with lastRunAtNs := some firedAtNs, lastRunId := runId, nextRunAtNs } else s

/-- The enabled schedules due at a time, oldest first. -/
def dueSchedules (nowNs : Int) (rows : List ScheduleRow) : List ScheduleRow :=
  (rows.filter fun s => s.enabled && decide (s.nextRunAtNs ≤ nowNs)).mergeSort fun a b => decide (a.nextRunAtNs ≤ b.nextRunAtNs)

/-! ## The outside -/

/-- An operator's binding of an execution to an environment. -/
structure Binding where
  sha256 : String
  env : String
  target : Option String
  deriving DecidableEq, Repr

/-- How `std::fs::read_to_string` ends. -/
inductive FileRead where
  | text (raw : String)
  | notFound
  | failed

/-- The queries of a read-only connection that a fire makes. -/
structure StoreReader where
  registryDefinition : String → Except String (Option RegisteredDefinition)
  realUsersExist : Except String Bool
  userByUsername : String → Except String (Option UserRow)
  userEnvScopes : String → Except String (List String)

/-- What does not change during a tick: the types and functions of the code around the scheduler. -/
structure FireCtx where
  /-- A resolved experiment with the environment to inject. -/
  Prepared : Type
  /-- `execution_hash`. -/
  executionHash : Prepared → Except String String
  /-- `classify`, of the shape of an execution in an environment. -/
  tierOf : Prepared → String → Tier
  /-- `serde_json::from_str` to a map of strings. -/
  varsFromJson : String → Option Vars
  /-- `serde_json::from_str` to the bindings. -/
  bindingsFromJson : String → Option (List Binding)
  /-- The store's path, with the extension `execution-bindings.json`. -/
  bindingsPath : String

/-- The outside as one call meets it. -/
structure Outside (Γ : FireCtx) where
  /-- `Store::at(db_path).read_only()`. -/
  readOnly : Except String StoreReader
  /-- `prepare_run`: sources of the configuration and secrets are read again. -/
  prepareRun : String → Vars → Except String Γ.Prepared
  /-- `TUMULTD_EXECUTION_BINDINGS`. -/
  bindingsVar : Option String
  readFile : String → FileRead
  /-- A fresh run id. -/
  newRunId : String
  /-- A slot of the waiting queue is free. -/
  permit : Bool
  /-- The write task accepts the closure it is sent. -/
  write : Except String Unit
  /-- The channel of the work items is open. -/
  sends : Bool

/-- The calls of the handling of one schedule, in their order. -/
inductive FireCall where
  | definition
  | owner
  | prepare
  | bindings
  | permit
  | prepareAgain
  | bindingsAgain
  | insert
  | send
  | recheck
  | recheckPrepare
  | advance
  deriving DecidableEq, Repr

/-! ## The execution policy -/

/-- How the owner of a recurring execution is refused. -/
inductive OwnerError where
  | unreadable
  | unauthenticated
  | gone
  | notOperator
  | outOfScope
  deriving DecidableEq, Repr

def OwnerError.text : OwnerError → String
  | unreadable => "cannot authorize execution owner"
  | unauthenticated => "execution has no authenticated owner"
  | gone => "execution owner no longer exists"
  | notOperator => "execution owner is disabled or no longer an operator"
  | outOfScope => "execution environment is outside its owner's scopes"

/-- How the binding of an execution is refused. -/
inductive BindingError where
  | unreadable
  | invalid
  | noEnvironment
  | fingerprint (e : String)
  | unbound
  deriving DecidableEq, Repr

def BindingError.text : BindingError → String
  | unreadable => "execution bindings cannot be read"
  | invalid => "execution bindings are invalid"
  | noEnvironment => "an explicit execution environment is required"
  | fingerprint e => e
  | unbound => "execution is not bound to this environment and target; ask the platform administrator to review its fingerprint and configure TUMULTD_EXECUTION_BINDINGS"

variable {Γ : FireCtx}

/-- An error of the store, under the owner's check. -/
def ownerRead {α : Type} (x : Except String α) : Except OwnerError α := x.mapError fun _ => .unreadable

/-- Revalidate a recurring execution's original author. -/
def actorRequiresBinding (o : Outside Γ) (actor : Option String) (env : String) : Except OwnerError Bool := do
  let reader ← ownerRead o.readOnly
  if !(← ownerRead reader.realUsersExist) then
    return false
  let some actor := actor | throw .unauthenticated
  let some user ← ownerRead (reader.userByUsername actor) | throw .gone
  if user.disabled || !(Role.parse user.role).any (fun role => decide (Role.operator ≤ role)) then
    throw .notOperator
  let scopes ← ownerRead (reader.userEnvScopes user.id)
  if !scopes.isEmpty && !scopes.contains env then
    throw .outOfScope
  return !scopes.isEmpty

/-- Read the server-owned file of bindings: the one the environment names, or the one beside the store, which may be missing. -/
def loadBindings (o : Outside Γ) : Except BindingError (List Binding) :=
  match o.bindingsVar.filter fun path => Text.trim path ≠ "" with
  | some path =>
    match o.readFile path with
    | .text raw => (Γ.bindingsFromJson raw).elim (.error .invalid) .ok
    | .notFound | .failed => .error .unreadable
  | none =>
    match o.readFile Γ.bindingsPath with
    | .text raw => (Γ.bindingsFromJson raw).elim (.error .invalid) .ok
    | .notFound => .ok []
    | .failed => .error .unreadable

/-- The tier of an execution under the bindings; an unbound one is T3, and refused where a binding is required. -/
def classifyBound (p : Γ.Prepared) (env : String) (target : Option String) (requireBinding : Bool) (bindings : List Binding) :
    Except BindingError Tier := do
  if Text.trim env = "" then
    throw .noEnvironment
  let hash ← (Γ.executionHash p).mapError .fingerprint
  let bound := bindings.any fun b => b.sha256 = hash && b.env = env && b.target = target
  if !bound && (requireBinding || bindings.any fun b => b.sha256 = hash) then
    throw .unbound
  if !bound then
    return .T3
  return Γ.tierOf p env

def classifyExecution (o : Outside Γ) (p : Γ.Prepared) (env : String) (target : Option String) (requireBinding : Bool) :
    Except BindingError Tier := do
  classifyBound p env target requireBinding (← loadBindings o)

/-! ## Submitting a run -/

/-- How a submission is refused. All but the first are one case of the source, which keeps the text only. -/
inductive EnqueueError where
  | full
  | unresolved
  | binding (e : BindingError)
  | tierChanged
  | fingerprint (e : String)
  | inputsChanged
  | store (e : String)
  | stopped
  deriving DecidableEq, Repr

def EnqueueError.text : EnqueueError → String
  | full => "run queue full; retrying next tick"
  | unresolved => "execution inputs cannot be resolved"
  | binding e => e.text
  | tierChanged => "execution inputs changed risk tier; preview and request again"
  | fingerprint e => e
  | inputsChanged => "execution inputs changed since preview; request again"
  | store e => e
  | stopped => "run queue stopped"

/-- The fingerprint of the inputs as they resolve now, if it is the expected one. -/
def checkHash (p : Γ.Prepared) (expectedHash : Option String) : Except EnqueueError String := do
  let hash ← (Γ.executionHash p).mapError .fingerprint
  if expectedHash.any (· ≠ hash) then
    throw .inputsChanged
  return hash

/-- Enqueue only if the inputs still match what was classified. -/
def enqueueChecked (o : FireCall → Outside Γ) (request : RunRequest) (expectedHash : Option String) : Except EnqueueError String := do
  if !(o .permit).permit then
    throw .full
  let p ← ((o .prepareAgain).prepareRun request.definitionToon request.vars).mapError fun _ => .unresolved
  let _ ← checkHash p expectedHash
  (o .insert).write.mapError .store
  if !(o .send).sends then
    throw .stopped
  return (o .permit).newRunId

/-- Request an approval only if the inputs still match what was classified. -/
def requestGatedChecked (o : FireCall → Outside Γ) (request : RunRequest) (tier : Tier) (expectedHash : Option String) :
    Except EnqueueError String := do
  let p ← ((o .prepareAgain).prepareRun request.definitionToon request.vars).mapError fun _ => .unresolved
  let currentTier ← (classifyExecution (o .bindingsAgain) p request.env request.target false).mapError .binding
  if tier.asStr < currentTier.asStr then
    throw .tierChanged
  let _ ← checkHash p expectedHash
  (o .insert).write.mapError .store
  return (o .permit).newRunId

/-! ## Firing a schedule -/

/-- The ways in which `fire_one` gives up; its caller sees `None` for each. -/
inductive GiveUp where
  | storeOpen (e : String)
  | registryRead (e : String)
  | unregistered
  | owner (e : OwnerError)
  | unresolved
  | binding (e : BindingError)
  | fingerprint (e : String)
  | enqueue (e : EnqueueError)
  deriving DecidableEq, Repr

def parseVars (Γ : FireCtx) (schedule : ScheduleRow) : Vars := (schedule.varsJson.bind Γ.varsFromJson).getD []

/-- Fire one schedule, with the reason it gives up. -/
def fireChecked (o : FireCall → Outside Γ) (schedule : ScheduleRow) : Except GiveUp String := do
  let reader ← (o .definition).readOnly.mapError .storeOpen
  let some definition ← (reader.registryDefinition schedule.registryId).mapError .registryRead | throw .unregistered
  let requireBinding ← (actorRequiresBinding (o .owner) schedule.createdBy schedule.env).mapError .owner
  let request : RunRequest := ⟨definition.id, definition.definitionToon, parseVars Γ schedule, schedule.env, schedule.target⟩
  let p ← ((o .prepare).prepareRun request.definitionToon request.vars).mapError fun _ => .unresolved
  let tier ← (classifyExecution (o .bindings) p schedule.env schedule.target requireBinding).mapError .binding
  let expectedHash ← (Γ.executionHash p).mapError .fingerprint
  let outcome :=
    if tier = .T0 then enqueueChecked o request (some expectedHash)
    else requestGatedChecked o request tier (some expectedHash)
  outcome.mapError .enqueue

/-- Fire one schedule: the new run's id, or nothing. -/
def fireOne (o : FireCall → Outside Γ) (schedule : ScheduleRow) : Option String := (fireChecked o schedule).toOption

/-- Whether the schedule's definition fails to resolve, checked after a failed fire. -/
def scheduleBroken (o : FireCall → Outside Γ) (schedule : ScheduleRow) : Bool :=
  match (o .recheck).readOnly with
  | .error _ => false
  | .ok reader =>
    match reader.registryDefinition schedule.registryId with
    | .ok (some definition) =>
      match (o .recheckPrepare).prepareRun definition.definitionToon (parseVars Γ schedule) with
      | .ok _ => false
      | .error _ => true
    | .ok none | .error _ => true

/-! ## A tick -/

/-- What a tick leaves: the table, and the schedules it handed to `fire_one`, in their order. -/
structure Ticked where
  rows : List ScheduleRow
  attempted : List ScheduleRow
  /-- The number of schedules fired, or the error that ended the tick. -/
  result : Except String Nat

/-- The time of a schedule's next fire. -/
def ScheduleRow.nextAfter (s : ScheduleRow) (now : Int) : Int := now + max s.intervalS 1 * 1000000000

/-- The loop of a tick: `o k` is the outside that the `k`th schedule of the tick meets. -/
def fireEach (o : Nat → FireCall → Outside Γ) (now : Int) : Nat → List ScheduleRow → Ticked → Ticked
  | _, [], t => t
  | k, schedule :: due, t =>
    let t := { t with attempted := t.attempted ++ [schedule] }
    let firedRun := fireOne (o k) schedule
    if firedRun = none && !scheduleBroken (o k) schedule then
      -- Queue full, or a transient store error: the fire is retried next tick.
      fireEach o now (k + 1) due t
    else
      match (o k .advance).write with
      | .error e => { t with result := .error e }
      | .ok () =>
        fireEach o now (k + 1) due
          { t with
            rows := scheduleFired schedule.id firedRun now (schedule.nextAfter now) t.rows
            result := t.result.map (· + firedRun.toList.length) }

/-- One tick of the scheduler, where `read` is the outside that the read of the due schedules meets. -/
def fireDueSchedules (read : Except String Unit) (o : Nat → FireCall → Outside Γ) (now : Int) (rows : List ScheduleRow) : Ticked :=
  match read with
  | .error e => ⟨rows, [], .error e⟩
  | .ok () => fireEach o now 0 (dueSchedules now rows) ⟨rows, [], .ok 0⟩

end Tumult
