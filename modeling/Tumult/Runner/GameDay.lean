import Tumult.Runner.Experiment

/-!
# GameDays

A campaign runs its experiments one after the other under a shared load, up to a cancellation or an experiment that fails to
execute, and scores the journals it has. Scores are exact; the measurements of the post phase and of the load that only the score
reads come from outside. Spans and log lines are left out.
-/

namespace Tumult

open Traced

/-- A single experiment reference within a GameDay. -/
structure GameDayExperiment where
  path : String
  complianceMaps : List String := []
  deriving DecidableEq, Repr

structure GameDay where
  title : String
  regulatory : Option RegulatoryMapping := none
  load : Option LoadConfig := none
  experiments : List GameDayExperiment
  mttrTargetS : Rat := 30
  deriving DecidableEq, Repr

/-- What the post phase measured, as far as the score reads it. -/
structure PostResult where
  recoveryTimeS : Rat
  fullRecovery : Bool
  deriving DecidableEq, Repr

structure ResilienceScore where
  passRate : Rat
  recoveryCompliance : Rat
  loadImpactTolerance : Rat
  complianceCoverage : Rat
  overall : Rat
  deriving DecidableEq, Repr

/-- The weighted overall score from the four components. -/
def ResilienceScore.compute (passRate recovery loadImpact compliance : Rat) : ResilienceScore where
  passRate := passRate
  recoveryCompliance := recovery
  loadImpactTolerance := loadImpact
  complianceCoverage := compliance
  overall := passRate * (30 / 100) + recovery * (25 / 100) + loadImpact * (25 / 100) + compliance * (20 / 100)

def ResilienceScore.status (score : ResilienceScore) : String :=
  if score.overall ≥ 90 / 100 then "COMPLIANT" else if score.overall ≥ 75 / 100 then "PARTIAL" else "NON-COMPLIANT"

structure GameDayJournal where
  title : String
  startedAtNs : Int
  endedAtNs : Int
  experimentJournals : List Journal
  loadResult : Option LoadResult
  resilienceScore : ResilienceScore
  complianceStatus : String
  regulatory : Option RegulatoryMapping

structure ExperimentCountMismatch where
  declared : Nat
  provided : Nat
  deriving DecidableEq, Repr

/-- What surrounds a campaign: for each place in it what surrounds the run there, whether the token is cancelled before it, and what
the score reads of a journal and of a load result. -/
structure GameDayWorld where
  runner : Nat → RunnerCtx
  executor : Nat → ActivityExecutor
  controls : Nat → ControlRegistry
  cancelled : Nat → Bool
  token : Nat → Option CancellationToken
  loadExecutor : Option LoadExecutor
  rollbackStrategy : RollbackStrategy
  maxConcurrentFaults : Option Nat
  postResult : Journal → Option PostResult
  errorRate : LoadResult → Rat
  now : Bool → Int

namespace GameDayWorld

variable (C : GameDayWorld)

/-- The configuration of the experiment at a place; the load is managed by the campaign. -/
def runConfig (i : Nat) : RunConfig where
  rollbackStrategy := C.rollbackStrategy
  cancellationToken := C.token i
  maxConcurrentFaults := C.maxConcurrentFaults

/-- The experiment at a place of the campaign. -/
def run (i : Nat) (experiment : Experiment) : Traced Entry (Except RunnerError Journal) :=
  runExperiment (C.runner i) (C.executor i) (C.controls i) experiment (C.runConfig i)

/-- Run each experiment, until the token is cancelled or one fails to execute. -/
def runAll : Nat → List Experiment → Traced Entry (List Journal)
  | _, [] => pure []
  | i, experiment :: rest =>
    if C.cancelled i then pure []
    else do
      match ← C.run i experiment with
      | .ok journal =>
        let journals ← runAll (i + 1) rest
        pure (journal :: journals)
      | .error _ => pure []

/-- Start the shared load; a load that does not start is only logged. -/
def startLoad (gameday : GameDay) : Traced Entry (Option LoadHandle) :=
  match gameday.load, C.loadExecutor with
  | some loadConfig, some loadExecutor => do
    log (.loadStarted (loadExecutor.start loadConfig))
    match ← settle (loadExecutor.start loadConfig) with
    | .ok handle => pure (some handle)
    | .error _ => pure none
  | _, _ => pure none

end GameDayWorld

/-- Recovery compliance from the recoveries that were measured. -/
def computeRecoveryCompliance (postResult : Journal → Option PostResult) (journals : List Journal) (mttrTargetS : Rat) : Rat :=
  let measured := journals.filterMap postResult
  if measured = [] then 1
  else (measured.countP fun post => post.recoveryTimeS ≤ mttrTargetS && post.fullRecovery : Nat) / (measured.length : Nat)

/-- An article is met if at least one experiment mapped to it completed. -/
def hasPassing (pairs : List (GameDayExperiment × Journal)) (article : String) : Bool :=
  pairs.any fun pair => pair.1.complianceMaps.contains article && pair.2.status = .completed

/-- The fraction of the pairs' distinct articles that are met. -/
def computeComplianceCoverage (pairs : List (GameDayExperiment × Journal)) : Rat :=
  let allArticles := (pairs.flatMap (·.1.complianceMaps)).dedup
  if allArticles = [] then 1
  else (allArticles.countP (hasPassing pairs) : Nat) / (allArticles.length : Nat)

/-- The fraction of the journals that completed. -/
def passRate (journals : List Journal) : Rat :=
  if journals.length > 0 then (journals.countP (·.status = .completed) : Nat) / (journals.length : Nat) else 0

/-- Load impact tolerance, one without a load. -/
def loadImpact (errorRate : LoadResult → Rat) (loadResult : Option LoadResult) : Rat :=
  match loadResult with
  | none => 1
  | some result => max (1 - errorRate result) 0

/-- The score of the journals of a campaign. -/
def GameDayWorld.score (C : GameDayWorld) (gameday : GameDay) (journals : List Journal) (loadResult : Option LoadResult) : ResilienceScore :=
  ResilienceScore.compute (passRate journals) (computeRecoveryCompliance C.postResult journals gameday.mttrTargetS)
    (loadImpact C.errorRate loadResult) (computeComplianceCoverage (gameday.experiments.zip journals))

/-- Run a campaign. The load is stopped on every way out, also when an experiment unwinds. -/
def runGameday (C : GameDayWorld) (gameday : GameDay) (experiments : List Experiment) :
    Traced Entry (Except ExperimentCountMismatch GameDayJournal) :=
  if gameday.experiments.length ≠ experiments.length then pure (.error ⟨gameday.experiments.length, experiments.length⟩)
  else do
    let handle ← C.startLoad gameday
    let ran ← catchUnwind (C.runAll 0 experiments)
    let loadResult ← stopLoad handle C.loadExecutor
    let journals ← settle ran
    let score := C.score gameday journals loadResult
    pure (.ok { title := gameday.title
                startedAtNs := C.now false
                endedAtNs := C.now true
                experimentJournals := journals
                loadResult := loadResult
                resilienceScore := score
                complianceStatus := score.status
                regulatory := gameday.regulatory })

end Tumult
