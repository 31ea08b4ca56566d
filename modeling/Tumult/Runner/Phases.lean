import Tumult.Runner.Experiment

/-!
# The recovery after the method

What is made of the samples that are taken after the method: the recovery of each probe, and of the system. Times and durations are
whole numbers, what is computed from them is rational; the fields of the result that are always empty are left out.
-/

namespace Tumult

/-- A sample that did not pass. -/
def ActivityResult.isFailed (s : ActivityResult) : Bool := s.status = .failed

namespace Phases

/-- `Iterator::rposition`. -/
def rposition {α : Type} (p : α → Bool) : List α → Option Nat
  | [] => none
  | a :: as =>
    match rposition p as with
    | some i => some (i + 1)
    | none => if p a then some 0 else none

/-- Nanoseconds as seconds. -/
def secondsOf (ns : Int) : ℚ := ns / 1000000000

/-- The recovery of one probe. -/
structure ProbePost where
  name : String
  mean : ℚ
  p95 : ℚ
  errorRate : ℚ
  returnedToBaseline : Bool
  recoveryTimeS : ℚ
  deriving DecidableEq, Repr

structure PostResult where
  startedAtNs : Int
  endedAtNs : Int
  durationS : ℚ
  samples : Nat
  probes : List ProbePost
  recoveryTimeS : ℚ
  fullRecovery : Bool
  mttrS : Option ℚ
  deriving DecidableEq, Repr

/-- The 95th percentile of durations. -/
def percentile95 (durations : List Nat) : ℚ :=
  let sorted := durations.mergeSort (· ≤ ·)
  sorted.getD (min (sorted.length * 95 / 100) (sorted.length - 1)) 0

/-- When a probe recovered: at the first sample after its last failure; at that failure when there is none. -/
def recoveryTimeS (startedAtNs : Int) (samples : List ActivityResult) : ℚ :=
  if (samples.filter (·.isFailed)).length = 0 then 0
  else
    let lastFailureIdx := (rposition (·.isFailed) samples).getD 0
    let markerNs := match samples[lastFailureIdx + 1]? with
      | some s => s.startedAtNs
      | none => (samples[lastFailureIdx]?).elim 0 (·.startedAtNs)
    secondsOf (markerNs - startedAtNs)

/-- The recovery of one probe from its samples. -/
def probePost (startedAtNs : Int) (probe : String × List ActivityResult) : ProbePost :=
  let (name, samples) := probe
  let durations := samples.map (·.durationMs)
  let failed := (samples.filter (·.isFailed)).length
  { name := name
    mean := if durations = [] then 0 else ((durations.sum : Nat) : ℚ) / durations.length
    p95 := percentile95 durations
    errorRate := if samples = [] then 0 else (failed : ℚ) / samples.length
    returnedToBaseline := samples.getLast?.any (·.status = .succeeded)
    recoveryTimeS := recoveryTimeS startedAtNs samples }

/-- Build a result from the samples collected after the method; none without samples. -/
def buildPostResult (startedAtNs endedAtNs : Int) (probeSamples : ProbeSamples) : Option PostResult :=
  if probeSamples = [] then none
  else
    let probes := probeSamples.map (probePost startedAtNs)
    let fullRecovery := probes.all (·.returnedToBaseline)
    let recoveryTime := (probes.map (·.recoveryTimeS)).foldl max 0
    some
      { startedAtNs := startedAtNs
        endedAtNs := endedAtNs
        durationS := secondsOf (endedAtNs - startedAtNs)
        samples := (probeSamples.map (·.2.length)).sum % 2 ^ 32
        probes := probes
        recoveryTimeS := recoveryTime
        fullRecovery := fullRecovery
        mttrS := if fullRecovery then some recoveryTime else none }

end Phases

end Tumult
