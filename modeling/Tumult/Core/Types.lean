import Mathlib

/-!
# Experiments and journals

The definition of an experiment as far as the runner, the validation and the graph read it, and the journal a run leaves. The
encoding of a definition, its configuration, secrets and declared controls are not read by a run; neither are trace and span ids.
-/

namespace Tumult

/-- A floating-point number: the finite ones have rational values. -/
inductive F64 where
  | finite (value : Rat)
  | infinity (negative : Bool)
  | nan
  deriving DecidableEq, Repr

namespace F64

/-- `x > y`; no comparison with a NaN holds. -/
def gt : F64 → F64 → Bool
  | finite x, finite y => x > y
  | finite _, infinity negative => negative
  | infinity negative, finite _ => !negative
  | infinity negative, infinity negative' => !negative && negative'
  | _, _ => false

def isFinite : F64 → Bool
  | finite _ => true
  | _ => false

/-- `Duration::from_secs_f64` unwinds on a number of seconds that is negative, not a number, or at least 2^64. -/
def fitsDuration : F64 → Bool
  | finite value => 0 ≤ value && value < 2 ^ 64
  | _ => false

end F64

/-! ## The definition -/

inductive ActivityType where
  | action
  | probe
  deriving DecidableEq, Repr

inductive ExperimentStatus where
  | completed
  | deviated
  | aborted
  | failed
  | interrupted
  | halted
  deriving DecidableEq, Repr

inductive ActivityStatus where
  | succeeded
  | failed
  | timeout
  | skipped
  deriving DecidableEq, Repr

/-- Who executes an activity. The arguments are kept as the pairs of their names and their texts. -/
inductive Provider where
  | native (plugin function : String) (arguments : List (String × String))
  | script (plugin function : String) (arguments : List (String × String)) (timeoutS : Option F64)
  | process (path : String) (arguments : List String) (env : List (String × String)) (timeoutS : Option F64)
  deriving DecidableEq, Repr

/-- What a probe's output must be; an exact value is kept as its text. -/
inductive Tolerance where
  | exact (value : String)
  | range (lower upper : F64)
  | regex (pattern : String)
  deriving DecidableEq, Repr

/-- A step of the method, a rollback, or a probe. -/
structure Activity where
  name : String
  activityType : ActivityType
  provider : Provider
  tolerance : Option Tolerance := none
  pauseBeforeS : Option F64 := none
  pauseAfterS : Option F64 := none
  background : Bool := false
  deriving DecidableEq, Repr

structure Hypothesis where
  title : String
  probes : List Activity
  deriving DecidableEq, Repr

structure Guard where
  name : String
  probe : Activity
  minBreaches : Nat := 1
  deriving DecidableEq, Repr

inductive ExpectedOutcome where
  | deviated
  | recovered
  | unaffected
  deriving DecidableEq, Repr

/-- The estimate, as far as the analysis compares it. -/
structure Estimate where
  expectedOutcome : ExpectedOutcome
  deriving DecidableEq, Repr

structure LoadConfig where
  script : String
  vus : Option Nat := none
  deriving DecidableEq, Repr

structure RegulatoryRequirement where
  id : String
  description : String
  evidence : String
  deriving DecidableEq, Repr

structure RegulatoryMapping where
  frameworks : List String
  requirements : List RegulatoryRequirement
  deriving DecidableEq, Repr

structure Experiment where
  version : String := "v1"
  title : String := ""
  steadyStateHypothesis : Option Hypothesis := none
  guards : List Guard := []
  blastRadius : Option String := none
  maxConcurrentFaults : Option Nat := none
  method : List Activity := []
  rollbacks : List Activity := []
  estimate : Option Estimate := none
  load : Option LoadConfig := none
  regulatory : Option RegulatoryMapping := none
  deriving DecidableEq, Repr

/-! ## The journal -/

structure ActivityResult where
  name : String
  activityType : ActivityType
  status : ActivityStatus
  startedAtNs : Int
  durationMs : Nat
  output : Option String
  error : Option String
  deriving DecidableEq, Repr

structure HypothesisResult where
  title : String
  met : Bool
  probeResults : List ActivityResult
  deriving DecidableEq, Repr

structure HaltRecord where
  guardName : String
  observed : Option String
  safeCondition : String
  breachCount : Nat
  breachedAtNs : Int
  timeToHaltMs : Nat
  rollbackMs : Nat
  deriving DecidableEq, Repr

structure BlastRadiusRecord where
  note : Option String
  maxConcurrentFaults : Option Nat
  peakConcurrentFaults : Nat
  deriving DecidableEq, Repr

structure LoadResult where
  vus : Nat
  totalRequests : Nat
  thresholdsMet : Bool
  deriving DecidableEq, Repr

/-- Coarse indicators, one or zero. -/
structure AnalysisResult where
  estimateAccuracy : Option F64
  resilienceScore : Option F64
  deriving DecidableEq, Repr

/-- Samples grouped by probe name. -/
abbrev ProbeSamples : Type := List (String × List ActivityResult)

structure Journal where
  experimentTitle : String
  experimentId : String
  status : ExperimentStatus
  startedAtNs : Int
  endedAtNs : Int
  durationMs : Nat := 0
  steadyStateBefore : Option HypothesisResult := none
  steadyStateAfter : Option HypothesisResult := none
  methodResults : List ActivityResult := []
  rollbackResults : List ActivityResult := []
  rollbackFailures : Nat := 0
  estimate : Option Estimate
  duringSamples : Option ProbeSamples := none
  postSamples : Option ProbeSamples := none
  loadResult : Option LoadResult := none
  analysis : Option AnalysisResult := none
  regulatory : Option RegulatoryMapping
  halt : Option HaltRecord := none
  blastRadius : Option BlastRadiusRecord := none
  deriving DecidableEq, Repr

/-- The journal of an experiment before any phase has filled it. -/
def Journal.forExperiment (experiment : Experiment) (experimentId : String) (status : ExperimentStatus) (startedAtNs : Int) :
    Journal where
  experimentTitle := experiment.title
  experimentId := experimentId
  status := status
  startedAtNs := startedAtNs
  endedAtNs := startedAtNs
  estimate := experiment.estimate
  regulatory := experiment.regulatory

/-! ## Validation -/

/-- Errors of the validation. -/
inductive EngineError where
  | unsupportedVersion (version : String)
  | emptyMethod
  | invalidMaxConcurrentFaults
  | emptyHypothesisProbes (title : String)
  | guardInvalidMinBreaches (guard : String)
  | guardMissingTolerance (guard : String)
  | invalidRegex (activity pattern : String)
  | invalidToleranceBounds (activity : String) (lower upper : F64)
  | invalidScriptProvider (activity reason : String)
  deriving DecidableEq, Repr

/-- The text occurs in the other. -/
def containsText (value part : String) : Bool := value.toList.tails.any (part.toList.isPrefixOf ·)

/-- A plugin or function name of a script provider. -/
def validateScriptName (isWhitespace : Char → Bool) (activity field value : String) : Except EngineError Unit :=
  let reject (reason : String) : Except EngineError Unit :=
    .error (.invalidScriptProvider activity (field ++ " '" ++ value ++ "' " ++ reason))
  if value = "" then .error (.invalidScriptProvider activity (field ++ " must not be empty"))
  else if value.toList.contains '/' || value.toList.contains '\\' then reject "must not contain path separators"
  else if containsText value ".." then reject "must not contain '..'"
  else if value.toList.contains '\x00' then reject "must not contain null bytes"
  else if value.toList.any isWhitespace then reject "must not contain whitespace"
  else .ok ()

/-- A tolerance is well formed. -/
def validateTolerance (compiles : String → Bool) (activity : String) : Option Tolerance → Except EngineError Unit
  | some (.regex pattern) => if compiles pattern then .ok () else .error (.invalidRegex activity pattern)
  | some (.range lower upper) => if lower.gt upper then .error (.invalidToleranceBounds activity lower upper) else .ok ()
  | _ => .ok ()

def validateGuard (compiles : String → Bool) (g : Guard) : Except EngineError Unit :=
  if g.minBreaches = 0 then .error (.guardInvalidMinBreaches g.name)
  else if g.probe.tolerance = none then .error (.guardMissingTolerance g.name)
  else validateTolerance compiles g.name g.probe.tolerance

def validateActivity (compiles : String → Bool) (isWhitespace : Char → Bool) (activity : Activity) : Except EngineError Unit := do
  validateTolerance compiles activity.name activity.tolerance
  match activity.provider with
  | .script plugin function _ _ =>
    validateScriptName isWhitespace activity.name "plugin" plugin
    validateScriptName isWhitespace activity.name "function" function
  | _ => .ok ()

/-- Static validation of a definition; whether a pattern compiles and what is whitespace are taken from outside. Nothing is said
about the pauses. -/
def validateExperiment (compiles : String → Bool) (isWhitespace : Char → Bool) (experiment : Experiment) : Except EngineError Unit := do
  if experiment.version ≠ "v1" then .error (.unsupportedVersion experiment.version)
  if experiment.method = [] then .error .emptyMethod
  if experiment.maxConcurrentFaults = some 0 then .error .invalidMaxConcurrentFaults
  match experiment.steadyStateHypothesis with
  | some hypothesis => if hypothesis.probes = [] then .error (.emptyHypothesisProbes hypothesis.title)
  | none => .ok ()
  experiment.guards.forM (validateGuard compiles)
  let probes := (experiment.steadyStateHypothesis.map (·.probes)).getD []
  (experiment.method ++ experiment.rollbacks ++ probes).forM (validateActivity compiles isWhitespace)

end Tumult
