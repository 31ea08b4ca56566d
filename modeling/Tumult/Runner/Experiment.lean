import Tumult.Runner.Activity

/-!
# The five-phase run

Sampling, the guard monitor, the load test, and `run_experiment` over them. The ways a run goes on after its method (halted by a
guard, interrupted, to its end) have each a definition of their own.
-/

namespace Tumult

open Traced

variable (Γ : RunnerCtx) (executor : ActivityExecutor) (controls : ControlRegistry)

/-! ## Sampling -/

/-- Run every hypothesis probe once: the samples, and whether all passed their tolerance. -/
def sampleProbeRound (site : Nat → Site) (hypothesis : Hypothesis) : Traced Entry (List ActivityResult × Bool) := do
  let samples ← forEach (fun i probe => do
    let outcome ← executor.call (site i) probe
    let within := probeOutcomeOk Γ probe outcome.success outcome.output
    pure ({ name := probe.name, activityType := .probe, status := if within then .succeeded else .failed,
            startedAtNs := Γ.now (.dispatch (site i)), durationMs := Γ.elapsedMs (.dispatch (site i)), output := outcome.output,
            error := outcome.error : ActivityResult }, within)) 0 hypothesis.probes
  pure (samples.map (·.1), samples.all (·.2))

/-- Append a sample to those of its probe. -/
def appendSample (perProbe : ProbeSamples) (sample : ActivityResult) : ProbeSamples :=
  if perProbe.any (fun e => e.1 = sample.name) then
    perProbe.map fun e => if e.1 = sample.name then (e.1, e.2 ++ [sample]) else e
  else perProbe ++ [(sample.name, [sample])]

/-- Append one round of samples to the per-probe map. -/
def appendRound (perProbe : ProbeSamples) (round : List ActivityResult) : ProbeSamples := round.foldl appendSample perProbe

/-- The sampler's thread up to its join: a panic keeps the samples collected so far. -/
def collectDuringSamples (hypothesis : Hypothesis) : Nat → Nat → ProbeSamples → Traced Entry ProbeSamples
  | 0, _, perProbe => pure perProbe
  | rounds + 1, round, perProbe => do
    match ← catchUnwind (sampleProbeRound Γ executor (.during round) hypothesis) with
    | .returned samples => collectDuringSamples hypothesis rounds (round + 1) (appendRound perProbe samples.1)
    | .unwound _ => pure perProbe

/-- The hypothesis, when it has probes to sample. -/
def sampledHypothesis (experiment : Experiment) : Option Hypothesis :=
  experiment.steadyStateHypothesis.filter (fun hypothesis => hypothesis.probes ≠ [])

/-- At most this many rounds are sampled while the method runs. -/
def maxDuringSamples : Nat := 300

/-- No samples make no result. -/
def nonemptySamples (samples : ProbeSamples) : Option ProbeSamples := if samples = [] then none else some samples

def duringSampler (experiment : Experiment) : Traced Entry (Option ProbeSamples) :=
  match sampledHypothesis experiment with
  | none => pure none
  | some hypothesis => do
    let samples ← collectDuringSamples Γ executor hypothesis (min maxDuringSamples (Γ.duringRounds + 1)) 0 []
    pure (nonemptySamples samples)

/-- Rounds until every probe passes, the run is cancelled, or the recovery timeout elapses; at least one. -/
def collectPostSamples (hypothesis : Hypothesis) (token : Option CancellationToken) :
    Nat → Nat → ProbeSamples → Traced Entry ProbeSamples
  | rounds, round, perProbe => do
    let (samples, recovered) ← sampleProbeRound Γ executor (.post round) hypothesis
    let cancelled ← isCancelled token (.postRound round)
    if recovered || cancelled then pure (appendRound perProbe samples)
    else
      match rounds with
      | 0 => pure (appendRound perProbe samples)
      | rounds + 1 => collectPostSamples hypothesis token rounds (round + 1) (appendRound perProbe samples)

def postSampling (experiment : Experiment) (token : Option CancellationToken) : Traced Entry (Option ProbeSamples) :=
  match sampledHypothesis experiment with
  | none => pure none
  | some hypothesis => do
    let samples ← collectPostSamples Γ executor hypothesis token Γ.postRounds 0 []
    pure (nonemptySamples samples)

/-! ## Guards -/

/-- Human-readable description of a guard's safe condition. -/
def describeSafeCondition : Option Tolerance → String
  | some (.range lower upper) => "range [" ++ Γ.showF64 lower ++ ", " ++ Γ.showF64 upper ++ "]"
  | some (.exact value) => "exact " ++ value
  | some (.regex pattern) => "regex /" ++ pattern ++ "/"
  | none => "probe success"

/-- One evaluation of every guard, each with its consecutive breaches so far. -/
def guardRound (round : Nat) : Nat → List (Guard × Nat) → Traced Entry (Except HaltRecord (List (Guard × Nat)))
  | _, [] => pure (.ok [])
  | i, (g, consecutive) :: rest => do
    let outcome ← executor.call (.guard round i) g.probe
    if probeOutcomeOk Γ g.probe outcome.success outcome.output then
      let rest ← guardRound round (i + 1) rest
      pure (rest.map ((g, 0) :: ·))
    else if g.minBreaches ≤ consecutive + 1 then
      log .methodCancelled
      pure (.error { guardName := g.name, observed := outcome.output, safeCondition := describeSafeCondition Γ g.probe.tolerance,
                     breachCount := consecutive + 1, breachedAtNs := Γ.now (.dispatch (.guard round i)),
                     timeToHaltMs := Γ.elapsedMs (.dispatch (.guard round i)), rollbackMs := 0 })
    else
      let rest ← guardRound round (i + 1) rest
      pure (rest.map ((g, consecutive + 1) :: ·))

/-- Guard evaluation loop, up to the round in which the monitor sees that the method is over. -/
def runGuardMonitor : Nat → Nat → List (Guard × Nat) → Traced Entry (Option HaltRecord)
  | 0, _, _ => pure none
  | rounds + 1, round, guards => do
    match ← guardRound Γ executor round 0 guards with
    | .error record => pure (some record)
    | .ok guards => runGuardMonitor rounds (round + 1) guards

/-- The guard monitor's thread up to its join: a panic is treated as no halt. -/
def guardMonitor (experiment : Experiment) : Traced Entry (Option HaltRecord) :=
  if experiment.guards = [] then pure none
  else do
    match ← catchUnwind (runGuardMonitor Γ executor (Γ.guardRounds + 1) 0 (experiment.guards.map (·, 0))) with
    | .returned halt => pure halt
    | .unwound _ => pure none

/-! ## Load -/

inductive RunnerError where
  | emptyMethod
  | missingBaselineProbes
  | missingLoadExecutor
  | loadStart (error : String)
  deriving DecidableEq, Repr

inductive BaselineMode where
  | full
  | skip
  | only
  deriving DecidableEq, Repr

/-- Configuration for an experiment run. -/
structure RunConfig where
  baselineMode : BaselineMode := .full
  rollbackStrategy : RollbackStrategy := .onDeviation
  cancellationToken : Option CancellationToken := none
  loadExecutor : Option LoadExecutor := none
  maxConcurrentFaults : Option Nat := none

/-- Start the background load test, if configured. -/
def startLoad (experiment : Experiment) (config : RunConfig) : Traced Entry (Except RunnerError (Option LoadHandle)) :=
  match experiment.load, config.loadExecutor with
  | some loadConfig, some loadExecutor => do
    log (.loadStarted (loadExecutor.start loadConfig))
    match ← settle (loadExecutor.start loadConfig) with
    | .ok handle => pure (.ok (some handle))
    | .error e => pure (.error (.loadStart e))
  | _, _ => pure (.ok none)

/-- Stop the running load test and collect its results. -/
def stopLoad (loadHandle : Option LoadHandle) (loadExecutor : Option LoadExecutor) : Traced Entry (Option LoadResult) :=
  match loadHandle, loadExecutor with
  | some handle, some loadExecutor => do
    log (.loadStopped (loadExecutor.stop handle))
    match ← settle (loadExecutor.stop handle) with
    | .ok result => pure (some result)
    | .error _ => pure none
  | _, _ => pure none

/-! ## The run -/

/-- Check if all activity results succeeded. -/
def allSucceeded (results : List ActivityResult) : Bool := results ≠ [] && results.all (·.status = .succeeded)

/-- Determine the experiment status from method results. -/
def determineStatus (hypothesisBeforeMet hypothesisAfterMet : Option Bool) (allActionsSucceeded : Bool) : ExperimentStatus :=
  if hypothesisBeforeMet = some false then .aborted
  else if !allActionsSucceeded then .failed
  else if hypothesisAfterMet = some false then .deviated
  else .completed

/-- Analysis from the estimate and the actual outcome. -/
def computeAnalysis (experiment : Experiment) (status : ExperimentStatus) : Option AnalysisResult :=
  experiment.estimate.map fun estimate =>
    let recovered := status = .completed
    { estimateAccuracy := some (.finite (if recovered ↔ estimate.expectedOutcome = .recovered then 1 else 0))
      resilienceScore := some (.finite (if recovered then 1 else 0)) }

def buildBlastRadius (note : Option String) (maxConcurrentFaults : Option Nat) (peakConcurrentFaults : Nat) :
    Option BlastRadiusRecord :=
  if note = none ∧ maxConcurrentFaults = none ∧ peakConcurrentFaults = 0 then none
  else some ⟨note, maxConcurrentFaults, peakConcurrentFaults⟩

def rollbackFailures (results : List ActivityResult) : Nat := results.countP (·.status = .failed)

/-- Evaluate the steady-state hypothesis, when present, between its lifecycle events. -/
def runHypothesisPhase (phase : Phase) (experiment : Experiment) : Traced Entry (Option HypothesisResult) :=
  match experiment.steadyStateHypothesis with
  | none => pure none
  | some hypothesis => do
    controls.emit .main .beforeHypothesis
    let result ← evaluateHypothesis Γ executor controls phase hypothesis
    controls.emit .main .afterHypothesis
    pure (some result)

/-- What the method leaves for the rest of the run. -/
structure MethodOutcome where
  steadyStateBefore : Option HypothesisResult
  loadHandle : Option LoadHandle
  executed : List Executed
  duringSamples : Option ProbeSamples
  blastRadius : Option BlastRadiusRecord

/-- The results the journal keeps. -/
def MethodOutcome.methodResults (m : MethodOutcome) : List ActivityResult := m.executed.map (·.result)

/-- An action was handed to the method, whatever came of it. -/
def MethodOutcome.faultStarted (m : MethodOutcome) : Bool := m.methodResults.any (·.activityType = .action)

/-- The journal after the method, before what only some of the ways to end a run fill in. -/
def MethodOutcome.journal (m : MethodOutcome) (experiment : Experiment) (status : ExperimentStatus)
    (rollbackResults : List ActivityResult) (loadResult : Option LoadResult) : Journal :=
  { Journal.forExperiment experiment Γ.experimentId status (Γ.now .start) with
    endedAtNs := Γ.now .ended
    durationMs := Γ.elapsedMs .ended
    steadyStateBefore := m.steadyStateBefore
    methodResults := m.methodResults
    rollbackResults := rollbackResults
    rollbackFailures := rollbackFailures rollbackResults
    duringSamples := m.duringSamples
    loadResult := loadResult
    analysis := computeAnalysis experiment status
    blastRadius := m.blastRadius }

/-- A guard breached mid-experiment: stop the load, roll back, and end halted. -/
def endHalted (experiment : Experiment) (config : RunConfig) (m : MethodOutcome) (halt : HaltRecord) : Traced Entry Journal := do
  let loadResult ← stopLoad m.loadHandle config.loadExecutor
  let rollbackResults ← runRollbacks Γ executor controls experiment config.rollbackStrategy true
  controls.emit .main .afterExperiment
  pure { m.journal Γ experiment .halted rollbackResults loadResult with
         halt := some { halt with rollbackMs := Γ.elapsedMs .recheck } }

/-- The caller's token fired while the method ran: stop the load, roll back, and end interrupted. -/
def endInterrupted (experiment : Experiment) (config : RunConfig) (m : MethodOutcome) : Traced Entry Journal := do
  let loadResult ← stopLoad m.loadHandle config.loadExecutor
  let rollbackResults ← runRollbacks Γ executor controls experiment config.rollbackStrategy true
  controls.emit .main .afterExperiment
  pure (m.journal Γ experiment .interrupted rollbackResults loadResult)

/-- A status calls for rollbacks: a deviation, or a failure or an interruption after an action of the method. -/
def needsRollback (status : ExperimentStatus) (faultStarted : Bool) : Bool :=
  status = .deviated || ((status = .failed || status = .interrupted) && faultStarted)

/-- The hypothesis after the method, unless the run is cancelled by then. -/
def hypothesisAfterPhase (experiment : Experiment) (config : RunConfig) : Traced Entry (Option HypothesisResult) := do
  if ← isCancelled config.cancellationToken .beforeHypothesisAfter then pure none
  else runHypothesisPhase Γ executor controls .after experiment

/-- The status decided before the rollbacks. -/
def decideStatus (experiment : Experiment) (m : MethodOutcome) (interrupted : Bool) (hypothesisAfter : Option HypothesisResult)
    (loadResult : Option LoadResult) : ExperimentStatus :=
  if interrupted then .interrupted
  else determineStatus (m.steadyStateBefore.map (·.met)) (hypothesisAfter.map (·.met))
    (allSucceeded m.methodResults && (experiment.load.isNone || loadResult.isSome))

/-- Nothing stopped the method: measure recovery, stop the load, evaluate the hypothesis again, roll back if the status needs it. -/
def endRegular (experiment : Experiment) (config : RunConfig) (m : MethodOutcome) : Traced Entry Journal := do
  let postSamples ← postSampling Γ executor experiment config.cancellationToken
  let loadResult ← stopLoad m.loadHandle config.loadExecutor
  let hypothesisAfter ← hypothesisAfterPhase Γ executor controls experiment config
  let interrupted ← isCancelled config.cancellationToken .status
  let status := decideStatus experiment m interrupted hypothesisAfter loadResult
  let rollbackResults ← runRollbacks Γ executor controls experiment config.rollbackStrategy (needsRollback status m.faultStarted)
  -- the token is read once more after the rollbacks were decided on
  let interrupted ← isCancelled config.cancellationToken .recheck
  let status := if interrupted then .interrupted else status
  controls.emit .main .afterExperiment
  pure { m.journal Γ experiment status rollbackResults loadResult with
         steadyStateAfter := hypothesisAfter, postSamples := postSamples }

/-- The token of the method: a child of the caller's that a breached guard cancels too. -/
def methodToken (config : RunConfig) (halts : Bool) : CancellationToken where
  isCancelled moment := (config.cancellationToken.any (·.isCancelled moment)) || (halts && Γ.haltSeen moment)

/-- The method with its sampler and its guard monitor: what it leaves, and the halt of a breached guard. -/
def methodPhase (experiment : Experiment) (config : RunConfig) (steadyStateBefore : Option HypothesisResult)
    (loadHandle : Option LoadHandle) : Traced Entry (MethodOutcome × Option HaltRecord) := do
  controls.emit .main .beforeMethod
  let duringSamples ← duringSampler Γ executor experiment
  let halt ← guardMonitor Γ executor experiment
  let token := methodToken Γ config halt.isSome
  let effectiveMaxFaults := config.maxConcurrentFaults.or experiment.maxConcurrentFaults
  let (executed, peak) ← executeActivities Γ executor controls experiment.method (some token) effectiveMaxFaults
  controls.emit .main .afterMethod
  let blastRadius := buildBlastRadius experiment.blastRadius effectiveMaxFaults peak
  pure (⟨steadyStateBefore, loadHandle, executed, duringSamples, blastRadius⟩, halt)

/-- How the run ends after its method. -/
def endRun (experiment : Experiment) (config : RunConfig) (m : MethodOutcome) (halt : Option HaltRecord) : Traced Entry Journal :=
  match halt with
  | some halt => endHalted Γ executor controls experiment config m halt
  | none => do
    if ← isCancelled (some (methodToken Γ config false)) .afterMethod then endInterrupted Γ executor controls experiment config m
    else endRegular Γ executor controls experiment config m

/-- The load test, the method, and how the run ends. -/
def runMethod (experiment : Experiment) (config : RunConfig) (steadyStateBefore : Option HypothesisResult) :
    Traced Entry (Except RunnerError Journal) := do
  match ← startLoad experiment config with
  | .error e => pure (.error e)
  | .ok loadHandle =>
    let (m, halt) ← methodPhase Γ executor controls experiment config steadyStateBefore loadHandle
    .ok <$> endRun Γ executor controls experiment config m halt

/-- The hypothesis did not hold before the method: roll back and end aborted. -/
def endAborted (experiment : Experiment) (config : RunConfig) (steadyStateBefore : Option HypothesisResult) :
    Traced Entry Journal := do
  let rollbackResults ← runRollbacks Γ executor controls experiment config.rollbackStrategy true
  controls.emit .main .afterExperiment
  pure { Journal.forExperiment experiment Γ.experimentId .aborted (Γ.now .start) with
         endedAtNs := Γ.now .ended
         durationMs := Γ.elapsedMs .ended
         steadyStateBefore := steadyStateBefore
         rollbackResults := rollbackResults
         rollbackFailures := rollbackFailures rollbackResults }

/-- Probe-only observation, with no control, load or fault. -/
def runProbeOnly (experiment : Experiment) (config : RunConfig) : Traced Entry (Except RunnerError Journal) :=
  match experiment.steadyStateHypothesis.filter (fun h => h.probes ≠ [] && h.probes.all (·.activityType = .probe)) with
  | none => pure (.error .missingBaselineProbes)
  | some hypothesis => do
    if ← isCancelled config.cancellationToken .start then
      pure (.ok (Journal.forExperiment experiment Γ.experimentId .interrupted (Γ.now .start)))
    else
      let result ← evaluateHypothesis Γ executor ⟨[]⟩ .before hypothesis
      let interrupted ← isCancelled config.cancellationToken .observed
      let status : ExperimentStatus := if interrupted then .interrupted else if result.met then .completed else .aborted
      pure (.ok { Journal.forExperiment experiment Γ.experimentId status (Γ.now .start) with
                  experimentTitle := experiment.title ++ " [baseline-only observation]"
                  endedAtNs := Γ.now .ended
                  durationMs := Γ.elapsedMs .ended
                  steadyStateBefore := some result })

/-- A run that was not refused or cancelled before it started. -/
def runStarted (experiment : Experiment) (config : RunConfig) : Traced Entry (Except RunnerError Journal) := do
  controls.emit .main .beforeExperiment
  let steadyStateBefore ← runHypothesisPhase Γ executor controls .before experiment
  if steadyStateBefore.map (·.met) = some false then .ok <$> endAborted Γ executor controls experiment config steadyStateBefore
  else
    if ← isCancelled config.cancellationToken .beforeMethod then
      controls.emit .main .afterExperiment
      pure (.ok { Journal.forExperiment experiment Γ.experimentId .interrupted (Γ.now .start) with
                  endedAtNs := Γ.now .ended
                  durationMs := Γ.elapsedMs .ended
                  steadyStateBefore := steadyStateBefore })
    else runMethod Γ executor controls experiment config steadyStateBefore

/-- Run an experiment through its phases. -/
def runExperiment (experiment : Experiment) (config : RunConfig) : Traced Entry (Except RunnerError Journal) :=
  if config.baselineMode = .only then runProbeOnly Γ executor experiment config
  else if experiment.load.isSome && config.loadExecutor.isNone then pure (.error .missingLoadExecutor)
  else if experiment.method = [] then pure (.error .emptyMethod)
  else do
    if ← isCancelled config.cancellationToken .start then
      pure (.ok (Journal.forExperiment experiment Γ.experimentId .interrupted (Γ.now .start)))
    else runStarted Γ executor controls experiment config

/-! ## Plain surroundings -/

/-- Clocks that stand still and a schedule in which nothing waits. -/
def stillCtx : RunnerCtx where
  now _ := 0
  elapsedMs _ := 0
  experimentId := "run-1"
  evaluateTolerance _ _ := true
  showF64 _ := ""
  duringRounds := 0
  guardRounds := 0
  postRounds := 0
  haltSeen _ := false
  peakConcurrentFaults := 0

/-- A provider that succeeds at every call. -/
def succeedingExecutor : ActivityExecutor where
  execute _ _ := .returned ⟨true, none, none, 1⟩

/-- An action of a native provider. -/
def nativeAction (name : String) : Activity where
  name := name
  activityType := .action
  provider := .native "tumult-net" "inject_latency" []

end Tumult
