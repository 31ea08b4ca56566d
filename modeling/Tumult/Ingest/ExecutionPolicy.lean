import Tumult.Autopilot.Gate
import Tumult.Lib.JsonTree
import Tumult.Ingest.Schedules

/-!
# Fingerprints, tiers and the gate of the highest tier

The fingerprint of a resolved execution, which its bindings name, and the tier of an execution from the shape of its experiment. Both
are what the scheduler and the daemon take from outside (`FireCtx.executionHash`, `FireCtx.tierOf`). An approval of the highest tier
asks the gate of the autopilot.
-/

namespace Tumult

open JsonTree (Json Distinct)

/-- What the policy takes from outside: the digest, `to_lowercase`, and the JSON of an experiment, in which the fields of a map come in
any order. -/
structure PolicyCtx where
  sha256Hex : String → String
  lowercase : String → String
  experimentJson : Experiment → Json
  distinct : ∀ experiment, Distinct (experimentJson experiment)

/-- The environment to inject, as a map lists it. -/
structure Injected where
  vars : List (String × String)
  distinct : (vars.map (·.1)).Nodup

/-- A resolved experiment with the environment to inject. -/
abbrev Resolved : Type := Experiment × Injected

namespace PolicyCtx

variable (P : PolicyCtx)

/-! ## Fingerprints -/

/-- What is fingerprinted. -/
def fingerprinted (p : Resolved) : Json :=
  .obj [("experiment", P.experimentJson p.1), ("injected", .obj (p.2.vars.map fun var => (var.1, .str var.2)))]

/-- Fingerprint the resolved execution; the fields of objects are sorted first. -/
def executionHash (p : Resolved) : String := P.sha256Hex (String.ofList (P.fingerprinted p).canonical.render)

/-! ## Tiers -/

inductive EnvClass where
  | production
  | staging
  | other
  deriving DecidableEq, Repr

def productionWords : List String := ["prod", "production", "live"]

def stagingWords : List String := ["staging", "stage", "stg", "preprod", "pre-prod", "uat"]

/-- A class word, alone or before a separator. -/
def matchesClassWord (env word : String) : Bool :=
  env = word || word.toList.isPrefixOf env.toList &&
    (env.toList.drop word.toList.length).head?.any fun c => c = '-' || c = '_' || c = '.'

/-- Classify a target-environment name. -/
def envClass (env : String) : EnvClass :=
  let env := P.lowercase (Text.trim env)
  if productionWords.any (matchesClassWord env) then .production
  else if stagingWords.any (matchesClassWord env) then .staging
  else .other

def destructiveFragments : List String := ["kill", "terminate", "delete", "destroy", "corrupt", "drop", "purge", "wipe"]

/-- The definition facts that tiering decides on. -/
structure Introspection where
  probeOnly : Bool
  hasRollback : Bool
  hasGuard : Bool
  hasSteadyState : Bool
  faultCount : Nat
  faultKinds : Nat
  destructive : Bool
  firstFault : Option (String × String)
  deriving DecidableEq, Repr

/-- Who executes an activity, and what of it. -/
def owner : Provider → String × String
  | .native plugin function _ => (plugin, function)
  | .script plugin function _ _ => (plugin, function)
  | .process path _ _ _ => (path, "")

/-- The kind of fault that an action is. -/
def kind (action : Activity) : String := (owner action.provider).1 ++ "/" ++ (owner action.provider).2

/-- Whether the name of an action, or of what it runs, has a destructive fragment. -/
def isDestructive (action : Activity) : Bool :=
  destructiveFragments.any
    (containsText (P.lowercase (action.name ++ " " ++ (owner action.provider).1 ++ " " ++ (owner action.provider).2)))

/-- What the loop over the actions has gathered. -/
structure Seen where
  kinds : List String
  destructive : Bool
  firstFault : Option (String × String)

def seeAction (seen : Seen) (action : Activity) : Seen where
  kinds := if seen.kinds.contains (kind action) then seen.kinds else seen.kinds ++ [kind action]
  destructive := if P.isDestructive action then true else seen.destructive
  firstFault := if seen.firstFault.isNone then some (owner action.provider) else seen.firstFault

def actions (experiment : Experiment) : List Activity := experiment.method.filter (·.activityType = .action)

/-- Extract the tiering facts from a resolved experiment definition. -/
def introspect (experiment : Experiment) : Introspection :=
  let seen := (actions experiment).foldl P.seeAction ⟨[], false, none⟩
  { probeOnly := (actions experiment).isEmpty
    hasRollback := !experiment.rollbacks.isEmpty
    hasGuard := !experiment.guards.isEmpty
    hasSteadyState := experiment.steadyStateHypothesis.isSome
    faultCount := (actions experiment).length
    faultKinds := seen.kinds.length
    destructive := seen.destructive
    firstFault := seen.firstFault }

/-- The order of the tiers. -/
def rank : Tier → Nat
  | .T0 => 0
  | .T1 => 1
  | .T2 => 2
  | .T3 => 3

def maxTier (tier tier' : Tier) : Tier := if rank tier ≤ rank tier' then tier' else tier

structure TierInput where
  env : String
  catalogMatched : Bool
  introspection : Introspection

/-- Classify a run request into its risk tier. -/
def classify (input : TierInput) : Tier :=
  let intro_ := input.introspection
  if input.catalogMatched || intro_.probeOnly then .T0
  else
    let tier : Tier := .T1
    let tier := if P.envClass input.env = .production then maxTier tier .T3 else tier
    let tier := if 0 < intro_.faultCount && !intro_.hasRollback then maxTier tier .T3 else tier
    let tier := if 1 < intro_.faultKinds then maxTier tier .T3 else tier
    let tier := if P.envClass input.env = .staging then maxTier tier .T2 else tier
    if intro_.destructive then maxTier tier .T2 else tier

/-- The tier of a bound execution. -/
def tierOf (p : Resolved) (env : String) : Tier := P.classify ⟨env, false, P.introspect p.1⟩

/-- The surroundings of a scheduler with this policy. -/
def fireCtx (varsFromJson : String → Option Vars) (bindingsFromJson : String → Option (List Binding)) (bindingsPath : String) : FireCtx where
  Prepared := Resolved
  executionHash p := .ok (P.executionHash p)
  tierOf := P.tierOf
  varsFromJson := varsFromJson
  bindingsFromJson := bindingsFromJson
  bindingsPath := bindingsPath

/-! ## The gate -/

/-- The outcome of the T3 autopilot gate. -/
inductive GateOutcome where
  | enact (policyHash : String) (rulesEvaluated : List (String × Bool))
  | veto (rule : String)
  | notEnact (verdict : String)
  | unavailable (reason : String)
  deriving DecidableEq, Repr

/-- The candidate that stands for a run that an operator requests. -/
def t3Candidate (runId : String) (introspection : Introspection) (env : String) (target : Option String) : Candidate where
  id := runId
  serviceId := target.getD env
  tier := some env
  plugin := (introspection.firstFault.getD ("run", "run")).1
  action := (introspection.firstFault.getD ("run", "run")).2
  articleId := "run-approval"
  score := 0
  reasons := ["operator-requested run"]
  confidence := .high
  playbookExperiment := none
  experimentHasGuard := introspection.hasGuard
  experimentHasRollback := introspection.hasRollback
  experimentHasSteadyState := introspection.hasSteadyState
  experimentFaultCount := introspection.faultCount
  trigger := .manual

/-- Run the gate for a T3 approval. -/
def evaluateT3Gate (policy : Option LoadedPolicy) (runId : String) (introspection : Introspection) (env : String)
    (target : Option String) (ambient : AmbientContext) : GateOutcome :=
  match policy with
  | none => .unavailable "no autopilot policy configured (KRONIKA_AUTOPILOT_POLICY)"
  | some policy =>
    let candidate := t3Candidate runId introspection env target
    let decision := evaluate policy.policy candidate ambient none (validate candidate)
    match decision.verdict with
    | .enact => .enact policy.policyHash decision.rulesEvaluated
    | .veto rule => .veto rule
    | .downgrade _ => .notEnact "downgrade"
    | .propose _ => .notEnact "propose"

end PolicyCtx

end Tumult
