import Tumult.Agentic.Faults

/-!
# Trajectories of an agent

An ordered sequence of model and tool calls, with faults at some of its steps. Documents that were retrieved at a step are carried
on to the later steps that use them.
-/

namespace Tumult.Agentic

inductive StepKind where
  | model | tool
  deriving DecidableEq, Repr

def StepKind.asStr : StepKind → String
  | model => "model"
  | tool => "tool"

/-- One model or tool call. -/
structure TrajectoryStep (S : Type) where
  label : String
  kind : StepKind
  consumesRetrieval : Bool
  baseline : FaultTargetResponse
  contracts : List (ContractSpec S)

/-- A fault at a step. -/
structure StepFault (S : Type) where
  stepIndex : Nat
  fault : FaultSpec S

/-- A contract of the whole trajectory. -/
inductive TrajectoryContractSpec (S : Type) where
  | recoversWithin (maxSteps : Nat) (severity : Option S)
  | noRepeatedStep (severity : Option S)
  | terminatesHealthy (severity : Option S)
  | stepBudget (maxSteps : Nat) (severity : Option S)

namespace TrajectoryContractSpec

variable {S : Type}

def contractType : TrajectoryContractSpec S → String
  | recoversWithin .. => "recovers_within"
  | noRepeatedStep .. => "no_repeated_step"
  | terminatesHealthy .. => "terminates_healthy"
  | stepBudget .. => "step_budget"

def severity (A : Arithmetic S) : TrajectoryContractSpec S → S
  | recoversWithin _ severity | noRepeatedStep severity | terminatesHealthy severity | stepBudget _ severity =>
    severity.getD (A.ofRat 1)

end TrajectoryContractSpec

/-- What was observed of a step. -/
structure StepOutcome (S : Type) where
  index : Nat
  label : String
  kind : String
  injectedFault : Option String
  healthy : Bool
  signature : String
  retryCount : Nat
  toolCalls : Nat
  contracts : List (ContractOutcome S)

structure TrajectoryRunResult (S : Type) where
  pack : String
  steps : List (StepOutcome S)
  trajectoryContracts : List (ContractOutcome S)
  score : AgenticScore S

section

variable {S : Type} (A : Arithmetic S) (L : Texts)

/-- Whether the observed steps keep a contract, and the reason that is given when they do not. -/
def TrajectoryContractSpec.check (steps : List (StepOutcome S)) : TrajectoryContractSpec S → Bool × String
  | terminatesHealthy _ => (steps.getLast?.any (·.healthy), "final_step_unhealthy")
  | recoversWithin maxSteps _ =>
    let ok := match steps.findIdx? fun step => !step.healthy with
      | none => true
      | some first => steps.zipIdx.any fun (step, idx) => idx > first && idx ≤ saturatingAdd 64 first maxSteps && step.healthy
    (ok, "did_not_recover")
  | noRepeatedStep _ => (decide (steps.map (·.signature)).Nodup, "loop_detected")
  | stepBudget maxSteps _ => (decide (steps.length ≤ maxSteps), "step_budget_exceeded")

def evaluateTrajectoryContract (packName : String) (contract : TrajectoryContractSpec S) (steps : List (StepOutcome S)) :
    ContractOutcome S :=
  let (passed, reason) := contract.check steps
  { contractType := contract.contractType
    scenario := packName
    passed := passed
    reason := failureReason passed reason
    severity := contract.severity A }

/-- Where the injection of a step's faults stands. -/
structure Injection where
  engine : FaultEngine
  response : FaultTargetResponse
  injectedFault : Option String

/-- A fault is drawn, and applied when the draw says so. -/
def injectFault (at' : Injection) (fault : FaultSpec S) : Run Injection :=
  match at'.engine.shouldApply A fault with
  | (true, engine) => do
    let outcome ← applyFault fault at'.response
    pure { engine := engine, response := outcome.response, injectedFault := some fault.faultType }
  | (false, engine) => pure { at' with engine := engine }

/-- The faults at a step, in order. -/
def faultsAt (faults : List (StepFault S)) (index : Nat) : List (FaultSpec S) := (faults.filter (·.stepIndex = index)).map (·.fault)

/-- A step that uses what was retrieved answers from it, and from a poisoned document where there is one. -/
def consumeRetrieval (step : TrajectoryStep S) (carriedDocs : List String) (response : FaultTargetResponse) : FaultTargetResponse :=
  if step.consumesRetrieval then
    { response with
      retrievedDocuments := carriedDocs
      body :=
        if carriedDocs.any (contains · "poisoned") then
          "\x7b\"answer\":\"ungrounded answer built from poisoned context: " ++ " ".intercalate carriedDocs ++ "\"\x7d"
        else response.body }
  else response

/-- The outcome of a step. -/
def observeStep (index : Nat) (step : TrajectoryStep S) (injectedFault : Option String) (response : FaultTargetResponse) :
    StepOutcome S :=
  let outcomes := step.contracts.map fun contract => evaluateContract A L step.label contract response
  { index := index
    label := step.label
    kind := step.kind.asStr
    injectedFault := injectedFault
    healthy := outcomes.all (·.passed)
    signature := step.label ++ "|" ++ response.toolName.getD "" ++ "|" ++ response.body
    retryCount := response.retryCount
    toolCalls := response.toolCalls
    contracts := outcomes }

/-- Where a trajectory stands. -/
structure Progress (S : Type) where
  engine : FaultEngine
  carriedDocs : List String
  stepOutcomes : List (StepOutcome S)
  allStepContracts : List (ContractOutcome S)

/-- One step of the trajectory. -/
def runStep (faults : List (StepFault S)) (progress : Progress S) (entry : TrajectoryStep S × Nat) : Run (Progress S) := do
  let (step, index) := entry
  let injection ← (faultsAt faults index).foldlM (injectFault A) ⟨progress.engine, step.baseline, none⟩
  let carriedDocs := progress.carriedDocs ++ injection.response.retrievedDocuments
  let response := consumeRetrieval step carriedDocs injection.response
  let outcome := observeStep A L index step injection.injectedFault response
  pure {
    engine := injection.engine
    carriedDocs := carriedDocs
    stepOutcomes := progress.stepOutcomes ++ [outcome]
    allStepContracts := progress.allStepContracts ++ outcome.contracts }

/-- Execute an ordered trajectory, injecting faults at their target steps. -/
def executeTrajectory (packName : String) (steps : List (TrajectoryStep S)) (faults : List (StepFault S))
    (contracts : List (TrajectoryContractSpec S)) (seed : UInt64) : Run (TrajectoryRunResult S) := do
  let progress ← steps.zipIdx.foldlM (runStep A L faults) ⟨⟨seed⟩, [], [], []⟩
  let trajectoryContracts := contracts.map fun contract => evaluateTrajectoryContract A packName contract progress.stepOutcomes
  pure {
    pack := packName
    steps := progress.stepOutcomes
    trajectoryContracts := trajectoryContracts
    score := agenticScore A progress.allStepContracts trajectoryContracts }

end

end Tumult.Agentic
