import Tumult.Lib.Traced
import Tumult.Core.Types

/-!
# Running activities

What the runner takes from outside is given as values: a provider answers at a site, a token is read at a moment, a handler takes an
event. A run's trace lists what it did to them with the answers it got. The trace of a thread is its own; where threads run
concurrently the order between their entries says nothing, and the answers are those of any schedule.
-/

namespace Tumult

open Traced

/-! ## The surroundings of a run -/

inductive LifecycleEvent where
  | beforeExperiment
  | afterExperiment
  | beforeMethod
  | afterMethod
  | beforeActivity (name : String)
  | afterActivity (name : String)
  | beforeRollback
  | afterRollback
  | beforeHypothesis
  | afterHypothesis
  deriving DecidableEq, Repr

inductive Phase where
  | before
  | after
  deriving DecidableEq, Repr

/-- The threads of a run. -/
inductive Thread where
  | main
  | background (i : Nat)
  | sampler
  | guards
  deriving DecidableEq, Repr

/-- Where the runner executes an activity. -/
inductive Site where
  | hypothesis (phase : Phase) (i : Nat)
  | foreground (i : Nat)
  | background (i : Nat)
  | rollback (i : Nat)
  | during (round i : Nat)
  | guard (round i : Nat)
  | post (round i : Nat)
  deriving DecidableEq, Repr

def Site.thread : Site → Thread
  | .background i => .background i
  | .during _ _ => .sampler
  | .guard _ _ => .guards
  | _ => .main

/-- A step of the method. -/
def Site.isMethod : Site → Bool
  | .foreground _ | .background _ => true
  | _ => false

/-- Where the runner reads a token or a clock. A wait that polls the token is read once, at its end. -/
inductive Moment where
  | start
  | beforeMethod
  | permit (i : Nat)
  | pause (phase : Phase) (site : Site)
  | dispatch (site : Site)
  | afterMethod
  | postRound (round : Nat)
  | beforeHypothesisAfter
  | status
  | recheck
  | observed
  | ended
  deriving DecidableEq, Repr

structure ActivityOutcome where
  success : Bool
  output : Option String
  error : Option String
  durationMs : Nat
  deriving DecidableEq, Repr

/-- A provider call returns an outcome or panics. -/
structure ActivityExecutor where
  execute : Site → Activity → Outcome ActivityOutcome

structure CancellationToken where
  isCancelled : Moment → Bool

structure ControlHandler where
  onEvent : LifecycleEvent → Outcome Unit

structure ControlRegistry where
  handlers : List ControlHandler

structure LoadHandle where
  inner : Nat
  deriving DecidableEq, Repr

structure LoadExecutor where
  start : LoadConfig → Outcome (Except String LoadHandle)
  stop : LoadHandle → Outcome (Except String LoadResult)

/-- What a run reads besides: clocks, the id it is given, the evaluation of a tolerance on an output, and how the schedule falls. -/
structure RunnerCtx where
  now : Moment → Int
  elapsedMs : Moment → Nat
  experimentId : String
  evaluateTolerance : String → Tolerance → Bool
  showF64 : F64 → String
  /-- Rounds the sampler begins before it sees that the method is over. -/
  duringRounds : Nat
  /-- Rounds the guard monitor begins after its first before it sees that the method is over. -/
  guardRounds : Nat
  /-- Rounds the recovery timeout leaves after the first. -/
  postRounds : Nat
  /-- The moments that come after a guard's halt. -/
  haltSeen : Moment → Bool
  /-- The most background faults that held a slot at once. -/
  peakConcurrentFaults : Nat

/-- What a run does to its surroundings. -/
inductive Entry where
  | received (thread : Thread) (handler : Nat) (event : LifecycleEvent)
  | called (site : Site) (activity : Activity) (answer : Outcome ActivityOutcome)
  | read (moment : Moment) (cancelled : Bool)
  | paused (phase : Phase) (site : Site) (seconds : F64)
  | loadStarted (answer : Outcome (Except String LoadHandle))
  | loadStopped (answer : Outcome (Except String LoadResult))
  /-- The guard monitor cancels the method's token. -/
  | methodCancelled

/-- Emit an event to all registered handlers; a panicking handler is contained. -/
def ControlRegistry.emit (controls : ControlRegistry) (thread : Thread) (event : LifecycleEvent) : Traced Entry Unit := do
  let _ ← forEach (fun h handler => do
    log (.received thread h event)
    catchUnwind (settle (handler.onEvent event))) 0 controls.handlers
  pure ()

def isCancelled (token : Option CancellationToken) (moment : Moment) : Traced Entry Bool :=
  match token with
  | none => pure false
  | some token => do
    log (.read moment (token.isCancelled moment))
    pure (token.isCancelled moment)

def ActivityExecutor.call (executor : ActivityExecutor) (site : Site) (activity : Activity) : Traced Entry ActivityOutcome := do
  log (.called site activity (executor.execute site activity))
  settle (executor.execute site activity)

/-! ## One activity -/

/-- The result of an execution's outcome. -/
def makeResult (activity : Activity) (startedAtNs : Int) (outcome : ActivityOutcome) : ActivityResult where
  name := activity.name
  activityType := activity.activityType
  status := if outcome.success then .succeeded else .failed
  startedAtNs := startedAtNs
  durationMs := outcome.durationMs
  output := outcome.output
  error := outcome.error

/-- The result of an activity that was not executed to its end. -/
def unfinishedResult (activity : Activity) (status : ActivityStatus) (startedAtNs : Int) (error : String) : ActivityResult where
  name := activity.name
  activityType := activity.activityType
  status := status
  startedAtNs := startedAtNs
  durationMs := 0
  output := none
  error := some error

variable (Γ : RunnerCtx) (executor : ActivityExecutor) (controls : ControlRegistry)

def executeSingleActivity (site : Site) (activity : Activity) (cancellation : Option CancellationToken) :
    Traced Entry ActivityResult := do
  controls.emit site.thread (.beforeActivity activity.name)
  -- controls can block or request a stop themselves: the token is read again at the provider dispatch boundary
  if ← isCancelled cancellation (.dispatch site) then
    pure (unfinishedResult activity .skipped (Γ.now (.dispatch site)) "cancelled before provider dispatch")
  else
    let outcome ← executor.call site activity
    controls.emit site.thread (.afterActivity activity.name)
    pure (makeResult activity (Γ.now (.dispatch site)) outcome)

/-- Execute an activity and contain a provider's panic in a failed result. -/
def executeForegroundActivity (site : Site) (activity : Activity) (cancellation : Option CancellationToken) :
    Traced Entry ActivityResult := do
  match ← catchUnwind (executeSingleActivity Γ executor controls site activity cancellation) with
  | .returned result => pure result
  | .unwound message => pure (unfinishedResult activity .failed (Γ.now (.dispatch site)) ("activity panicked: " ++ message))

/-- The seconds of a pause that waits at all. -/
def pauseSeconds (seconds : Option F64) : Option F64 := seconds.filter (fun s => s.gt (.finite 0) && s.isFinite)

/-- Wait, unless the token is cancelled; too long a pause unwinds where its duration is built. -/
def pauseActivity (phase : Phase) (site : Site) (seconds : Option F64) (token : Option CancellationToken) : Traced Entry Bool :=
  match pauseSeconds seconds with
  | none => do
    let cancelled ← isCancelled token (.pause phase site)
    pure !cancelled
  | some s => do
    log (.paused phase site s)
    if s.fitsDuration then
      let cancelled ← isCancelled token (.pause phase site)
      pure !cancelled
    else unwind "cannot convert float seconds to Duration: value is either too big or NaN"

def executePendingActivity (site : Site) (activity : Activity) (token : Option CancellationToken) :
    Traced Entry (Option ActivityResult) := do
  if ← pauseActivity .before site activity.pauseBeforeS token then
    let result ← executeForegroundActivity Γ executor controls site activity token
    let _ ← pauseActivity .after site activity.pauseAfterS token
    pure (some result)
  else pure none

/-! ## The method -/

/-- A result with the activity it is of; the journal keeps the result alone. -/
structure Executed where
  activity : Activity
  result : ActivityResult
  deriving DecidableEq, Repr

/-- Separate method steps into sequential and background activities. -/
def partitionBackground (activities : List Activity) : List Activity × List Activity :=
  (activities.filter (!·.background), activities.filter (·.background))

/-- Wait for a slot. A gate without slots lets a thread go only when the run is cancelled. -/
def acquirePermit (maxConcurrentFaults : Option Nat) (i : Nat) (token : Option CancellationToken) : Traced Entry Bool := do
  let cancelled ← isCancelled token (.permit i)
  pure (!cancelled && maxConcurrentFaults ≠ some 0)

/-- The thread of a background activity. -/
def backgroundThread (maxConcurrentFaults : Option Nat) (token : Option CancellationToken) (i : Nat) (activity : Activity) :
    Traced Entry (Option ActivityResult) := do
  if ← acquirePermit maxConcurrentFaults i token then executePendingActivity Γ executor controls (.background i) activity token
  else pure none

/-- What joining a background thread gives. -/
def joinedResult (activity : Activity) (i : Nat) : Outcome (Option ActivityResult) → Option Executed
  | .returned result => result.map (Executed.mk activity)
  | .unwound _ => some ⟨activity, unfinishedResult activity .failed (Γ.now (.dispatch (.background i))) "background activity panicked"⟩

/-- Execute a list of activities: the background ones in threads of their own, joined when the sequential ones are over. -/
def executeActivities (activities : List Activity) (token : Option CancellationToken) (maxConcurrentFaults : Option Nat) :
    Traced Entry (List Executed × Nat) := do
  let (foreground, background) := partitionBackground activities
  let joined ← forEach (fun i activity => do
    let result ← catchUnwind (backgroundThread Γ executor controls maxConcurrentFaults token i activity)
    pure (joinedResult Γ activity i result)) 0 background
  -- the scope joins its threads also when the sequential part unwinds
  let sequential ← whileSome (fun i activity => do
    let result ← executePendingActivity Γ executor controls (.foreground i) activity token
    pure (result.map (Executed.mk activity))) 0 foreground
  pure (sequential ++ joined.filterMap id, Γ.peakConcurrentFaults)

/-! ## Hypotheses and rollbacks -/

/-- A probe outcome satisfies the probe's tolerance. -/
def probeOutcomeOk (probe : Activity) (success : Bool) (output : Option String) : Bool :=
  if !success then false
  else
    match probe.tolerance with
    | none => success
    | some tolerance =>
      match output with
      | none => false
      | some output => Γ.evaluateTolerance output tolerance

/-- Evaluate a steady-state hypothesis by running its probes. -/
def evaluateHypothesis (phase : Phase) (hypothesis : Hypothesis) : Traced Entry HypothesisResult := do
  let results ← forEach (fun i probe => do
    let result ← executeSingleActivity Γ executor controls (.hypothesis phase i) probe none
    pure (result, probeOutcomeOk Γ probe (result.status = .succeeded) result.output)) 0 hypothesis.probes
  pure ⟨hypothesis.title, results.all (·.2), results.map (·.1)⟩

/-- When to execute rollbacks. -/
inductive RollbackStrategy where
  | always
  | onDeviation
  | never
  deriving DecidableEq, Repr

def shouldRollback (strategy : RollbackStrategy) (needsRollback : Bool) : Bool :=
  match strategy with
  | .always => true
  | .onDeviation => needsRollback
  | .never => false

/-- Run the rollbacks, if the strategy calls for them; a failing one does not stop the others. -/
def runRollbacks (experiment : Experiment) (strategy : RollbackStrategy) (needsRollback : Bool) :
    Traced Entry (List ActivityResult) :=
  if experiment.rollbacks = [] || !shouldRollback strategy needsRollback then pure []
  else do
    controls.emit .main .beforeRollback
    let results ← forEach (fun i activity => executeForegroundActivity Γ executor controls (.rollback i) activity none) 0
      experiment.rollbacks
    controls.emit .main .afterRollback
    pure results

end Tumult
