import Tumult.Core.Types
import Tumult.Core.Template

/-!
# The autopilot gate

The policy, the anti-hollow validator, the earned-autonomy ladder and the gate that turns them into a verdict. The gate reads no
clock: everything shaped by time or surroundings is in the ambient context it is given. The evidence windows of the policy are read
by the recommender only, and are left out.
-/

namespace Tumult

/-! ## Hours and ratios -/

namespace F64

/-- The nearest integer, ties to even. -/
def roundHalfEven (q : Rat) : Int :=
  if q - q.floor < 1 / 2 then q.floor
  else if 1 / 2 < q - q.floor then q.floor + 1
  else if q.floor % 2 = 0 then q.floor
  else q.floor + 1

/-- The number of 53 binary digits nearest to a number that is not negative. -/
def nearest (q : Rat) : Rat :=
  if q ≤ 0 then 0
  else
    let guess : Int := Nat.log2 q.num.natAbs - Nat.log2 q.den - 52
    let exponent := if q < (2 : Rat) ^ (guess + 52) then guess - 1 else guess
    roundHalfEven (q / (2 : Rat) ^ exponent) * (2 : Rat) ^ exponent

/-- `p >= x`, for a finite `p`. -/
def atMost (p : Rat) : F64 → Bool
  | finite x => x ≤ p
  | infinity negative => negative
  | nan => false

/-- A number that is not negative, with a fixed count of decimals. -/
def fixed (digits : Nat) (q : Rat) : String :=
  let n := (roundHalfEven (q * 10 ^ digits)).toNat
  let decimals := toString (n % 10 ^ digits)
  if digits = 0 then toString n
  else toString (n / 10 ^ digits) ++ "." ++ "".pushn '0' (digits - decimals.length) ++ decimals

/-- A number with a fixed count of decimals, as it is displayed. -/
def display (digits : Nat) : F64 → String
  | finite x => if x < 0 then "-" ++ fixed digits (-x) else fixed digits x
  | infinity negative => if negative then "-inf" else "inf"
  | nan => "NaN"

end F64

/-- The length of an hour, in the clock's nanoseconds. -/
def nanosPerHour : Int := 3600000000000

/-- The hours between two clock readings, none when the second is the later one: whole seconds and the rest are added up as floats,
then divided. -/
def elapsedHours (now last : Int) : Rat :=
  let nanos := (now - last).toNat
  F64.nearest (F64.nearest (F64.nearest (nanos / 1000000000 : Nat) + F64.nearest ((nanos % 1000000000 : Nat) / 1000000000)) / 3600)

/-! ## The policy -/

/-- One operator-granted trust bootstrap for a fault class. -/
structure PretrustEntry where
  plugin : String
  action : String
  tier : String
  deriving DecidableEq, Repr

/-- One recommendation → experiment binding. -/
structure PlaybookEntry where
  plugin : String
  action : String
  service : Option String := none
  experiment : String
  deriving DecidableEq, Repr

/-- The `[autopilot]` policy table. -/
structure AutopilotPolicy where
  enabled : Bool := false
  maxRunsPerDay : Nat := 6
  cooldownHours : Nat := 12
  enactTiers : List String := []
  requireGuard : Bool := true
  businessHoursOnly : Bool := false
  requireEnrollment : Bool := false
  enrolledServices : List String := []
  autonomyThreshold : F64 := .finite (F64.nearest (8 / 10))
  autonomyMinSamples : Nat := 3
  pretrusted : List PretrustEntry := []
  playbook : List PlaybookEntry := []
  deriving DecidableEq, Repr

/-- A service reference without its optional prefix. -/
def stripSvc (service : String) : String := (stripPrefix "svc:" service).getD service

namespace AutopilotPolicy

variable (policy : AutopilotPolicy)

/-- The operator pretrusted this exact fault class. -/
def isPretrusted (plugin action : String) (tier : Option String) : Bool :=
  tier.any fun t => policy.pretrusted.any fun p => p.plugin = plugin && p.action = action && p.tier = t

/-- A service may be targeted at all. -/
def isEnrolled (serviceId : String) : Bool :=
  !policy.requireEnrollment || policy.enrolledServices.any fun entry => stripSvc entry = stripSvc serviceId

/-- A tier is one where enact is ever allowed. -/
def tierAllowsEnact (tier : Option String) : Bool := tier.any fun t => policy.enactTiers.any (· = t)

/-- The playbook for a recommendation: an entry bound to the service wins over a generic one; else the first in file order. -/
def playbookFor (plugin action : String) (service : Option String) : Option PlaybookEntry :=
  let entries := policy.playbook.filter fun p => p.plugin = plugin && p.action = action
  (entries.find? fun entry => entry.service.isSome && entry.service = service).or (entries.find? (·.service.isNone))

end AutopilotPolicy

/-- A parsed policy, with the text that produced it and its hash. -/
structure LoadedPolicy where
  policy : AutopilotPolicy
  rawToml : String
  hash : String
  deriving DecidableEq, Repr

/-- The hash of the raw policy text. -/
def LoadedPolicy.policyHash (policy : LoadedPolicy) : String := policy.hash

/-! ## Candidates -/

/-- Why the recommender surfaced a candidate. -/
inductive Trigger where
  | staleness (articleId : String) (ageDays : Nat)
  | brokenControl (articleId : String)
  | manual
  | changeEvent (source : String) (detail : Option String)
  deriving DecidableEq, Repr

/-- How much a recommendation is trusted. -/
inductive ConfidenceTier where
  | high
  | directional
  deriving DecidableEq, Repr

/-- A recommendation joined with its playbook and the structure of its experiment. -/
structure Candidate where
  id : String
  serviceId : String
  tier : Option String
  plugin : String
  action : String
  articleId : String
  score : Rat
  reasons : List String
  confidence : ConfidenceTier
  playbookExperiment : Option String
  experimentHasGuard : Bool
  experimentHasRollback : Bool
  experimentHasSteadyState : Bool
  experimentFaultCount : Nat
  trigger : Trigger
  deriving DecidableEq, Repr

/-- The surroundings at decision time, frozen before the gate runs. -/
structure AmbientContext where
  openDeviationForTarget : Bool
  runsToday : Nat
  hoursSinceLastRunOnService : Option F64
  withinBusinessHours : Bool
  concurrentExperiments : Nat
  guardTelemetryOk : Option Bool
  deriving DecidableEq, Repr

/-- The history of a fault class. -/
structure AutonomyRecord where
  enactedTotal : Nat
  enactedClean : Nat
  deriving DecidableEq, Repr

/-! ## The validator -/

/-- The findings on one candidate. -/
structure ValidatorReport where
  hollow : List String
  blockers : List String
  enactable : Bool
  deriving DecidableEq, Repr

/-- The anti-hollow checks. Without a playbook there is no experiment to look into. -/
def validate (candidate : Candidate) : ValidatorReport :=
  let hollow :=
    if candidate.playbookExperiment.isNone then []
    else
      (if candidate.experimentHasSteadyState then [] else ["no steady-state probe — the experiment cannot falsify anything"]) ++
      (if candidate.experimentFaultCount = 0 then ["experiment injects no fault — nothing to observe"] else [])
  let blockers :=
    if candidate.playbookExperiment.isNone then [s!"no playbook for {candidate.plugin}::{candidate.action}"]
    else
      (if candidate.experimentFaultCount > 1 then
        [s!"experiment injects {candidate.experimentFaultCount} faults — v2.15 enacts single-fault only"] else []) ++
      (if candidate.experimentHasRollback then [] else ["no rollback declared — worst-case impact unbounded"])
  { hollow, blockers, enactable := hollow.isEmpty && blockers.isEmpty }

/-! ## The ladder -/

/-- The key of a fault class. -/
def classKey (plugin action : String) (tier : Option String) : String := plugin ++ "::" ++ action ++ "@" ++ tier.getD "-"

/-- A fault class has earned autonomy, with the reason either way. -/
def autonomyEarned (policy : AutopilotPolicy) (record : Option AutonomyRecord) (pretrusted : Bool) : Bool × String :=
  if pretrusted then (true, "pretrusted by operator policy")
  else
    match record with
    | none => (false, "no autonomy record — class starts at propose")
    | some record =>
      let total := record.enactedTotal
      if total = 0 || total < policy.autonomyMinSamples then
        (false, s!"only {total} enacted sample(s), {policy.autonomyMinSamples} required")
      else
        let precision := F64.nearest ((min record.enactedClean total : Nat) / total)
        let threshold := F64.display 2 policy.autonomyThreshold
        if F64.atMost precision policy.autonomyThreshold then
          (true, s!"precision {F64.fixed 2 precision} >= threshold {threshold} over {total} run(s)")
        else (false, s!"precision {F64.fixed 2 precision} below threshold {threshold} over {total} run(s)")

/-! ## The gate -/

/-- The gate's answer for one candidate. -/
inductive GateVerdict where
  | enact
  | downgrade (reasons : List String)
  | propose (reasons : List String)
  | veto (rule : String)
  deriving DecidableEq, Repr

/-- A verdict with every rule checked. -/
structure GateDecision where
  verdict : GateVerdict
  rulesEvaluated : List (String × Bool)
  deriving DecidableEq, Repr

/-- One evaluated rule: when it failed, with the reason a human should see. -/
structure Rule where
  id : String
  passed : Bool
  reason : Option String
  deriving DecidableEq, Repr

/-- A rule that passes on a condition. -/
def Rule.check (id : String) (passed : Bool) (reason : String) : Rule :=
  { id, passed, reason := if passed then none else some reason }

section

variable (policy : AutopilotPolicy) (candidate : Candidate) (ambient : AmbientContext) (autonomy : Option AutonomyRecord)
  (validator : ValidatorReport)

/-- Hard safety rules: any failure is a veto. -/
def vetoRules : List Rule :=
  [.check "policy.enabled" policy.enabled "autopilot is disabled by policy",
    .check "target.enrolled" (policy.isEnrolled candidate.serviceId)
      s!"policy requires enrollment and {candidate.serviceId} is not enrolled",
    .check "ambient.no_open_deviation" (!ambient.openDeviationForTarget) "target or a dependent has a recent open deviation",
    .check "ambient.no_concurrent_experiment" (ambient.concurrentExperiments = 0)
      s!"{ambient.concurrentExperiments} experiment(s) already running — autopilot holds one fault at a time",
    .check "budget.daily_runs_remaining" (ambient.runsToday < policy.maxRunsPerDay)
      s!"daily budget exhausted: {ambient.runsToday} of {policy.maxRunsPerDay} runs used",
    .check "validator.not_hollow" validator.hollow.isEmpty ("hollow candidate: " ++ "; ".intercalate validator.hollow)]

/-- What the validator found against enacting. -/
def enactabilityRule : Rule := .check "validator.enactable" validator.blockers.isEmpty ("; ".intercalate validator.blockers)

/-- The cooldown of a service; with no run before, or hours that are not a number, it is clear. -/
def cooldownRule : Rule :=
  match ambient.hoursSinceLastRunOnService with
  | some hours =>
    .check "cooldown.clear" (!(F64.finite policy.cooldownHours).gt hours)
      s!"cooldown active: {F64.display 1 hours}h since the last autopilot run on {candidate.serviceId}, policy requires {
        policy.cooldownHours}h"
  | none => .check "cooldown.clear" true ""

/-- Bounded conditions: any failure downgrades. -/
def boundedRules : List Rule :=
  let pretrusted := policy.isPretrusted candidate.plugin candidate.action candidate.tier
  let earned := autonomyEarned policy autonomy pretrusted
  [.check "tier.enact_allowed" (policy.tierAllowsEnact candidate.tier)
      (match candidate.tier with
        | some t => s!"tier '{t}' is not in enact_tiers — capped at propose"
        | none => "candidate has no tier — enact requires a tier listed in enact_tiers"),
    .check "guard.present" (!policy.requireGuard || candidate.experimentHasGuard)
      "experiment declares no guard and policy requires one",
    .check "guard.telemetry_verified" (ambient.guardTelemetryOk = some true)
      (if ambient.guardTelemetryOk = some false then "guard telemetry pre-flight failed — the guard cannot observe the blast"
        else "guard telemetry pre-flight not run — cannot confirm the guard observes the blast"),
    .check "schedule.business_hours" (!policy.businessHoursOnly || ambient.withinBusinessHours)
      "outside business hours and policy allows enact only within them",
    cooldownRule policy candidate ambient,
    .check "confidence.high" (candidate.confidence = .high) "confidence is directional — enact requires high confidence",
    .check "autonomy.earned" earned.1
      s!"autonomy not earned for class {classKey candidate.plugin candidate.action candidate.tier}: {earned.2}"]

/-- Evaluate the gate: every rule is checked, and a veto wins over a proposal, a proposal over a downgrade. -/
def evaluate : GateDecision :=
  let veto := vetoRules policy candidate ambient validator
  let enactability := enactabilityRule validator
  let bounded := boundedRules policy candidate ambient autonomy
  let reasons := (bounded.filter (!·.passed)).filterMap (·.reason)
  let verdict :=
    match veto.find? (!·.passed) with
    | some fired => .veto fired.id
    | none =>
      if enactability.passed then if reasons.isEmpty then .enact else .downgrade reasons
      else .propose validator.blockers
  { verdict, rulesEvaluated := (veto ++ [enactability] ++ bounded).map fun rule => (rule.id, rule.passed) }

end

/-! ## What an enact verdict says -/

/-- The gate's rules, in the order they are evaluated: six that veto, the one on what the validator found, and the bounded ones. -/
def ruleOrder : List String :=
  ["policy.enabled", "target.enrolled", "ambient.no_open_deviation", "ambient.no_concurrent_experiment",
    "budget.daily_runs_remaining", "validator.not_hollow", "validator.enactable", "tier.enact_allowed", "guard.present",
    "guard.telemetry_verified", "schedule.business_hours", "cooldown.clear", "confidence.high", "autonomy.earned"]

@[simp] theorem Rule.check_passed (id : String) (passed : Bool) (reason : String) : (Rule.check id passed reason).passed = passed :=
  rfl

@[simp] theorem Rule.check_id (id : String) (passed : Bool) (reason : String) : (Rule.check id passed reason).id = id := rfl

/-- A checked rule that failed has its reason. -/
theorem Rule.check_reason {id : String} {passed : Bool} {reason : String} (h : (Rule.check id passed reason).passed = false) :
    (Rule.check id passed reason).reason = some reason := by
  simp only [Rule.check_passed] at h
  simp [Rule.check, h]

section

variable {policy : AutopilotPolicy} {candidate : Candidate} {ambient : AmbientContext} {autonomy : Option AutonomyRecord}
  {validator : ValidatorReport}

@[simp] theorem cooldownRule_id : (cooldownRule policy candidate ambient).id = "cooldown.clear" := by
  unfold cooldownRule
  split <;> rfl

/-- A bounded rule that failed has a reason. -/
theorem boundedRules_reason {rule : Rule} (hrule : rule ∈ boundedRules policy candidate ambient autonomy)
    (h : rule.passed = false) : ∃ reason, rule.reason = some reason := by
  unfold boundedRules at hrule
  simp only [List.mem_cons, List.not_mem_nil, or_false] at hrule
  rcases hrule with rfl | rfl | rfl | rfl | rfl | rfl | rfl
  case inr.inr.inr.inr.inl =>
    unfold cooldownRule at h ⊢
    split at h
    · exact ⟨_, Rule.check_reason h⟩
    · cases h
  all_goals exact ⟨_, Rule.check_reason h⟩

/-- The audit trail lists every rule, in the order of evaluation. -/
theorem evaluate_rules : (evaluate policy candidate ambient autonomy validator).rulesEvaluated.map (·.1) = ruleOrder := by
  simp [evaluate, vetoRules, enactabilityRule, boundedRules, ruleOrder]

/-- The bounded rules leave no reason exactly when all of them passed. -/
theorem boundedRules_reasons : ((boundedRules policy candidate ambient autonomy).filter (!·.passed)).filterMap (·.reason) = [] ↔
    ∀ rule ∈ boundedRules policy candidate ambient autonomy, rule.passed = true := by
  constructor
  · intro h rule hrule
    by_contra hpassed
    have hfail : rule.passed = false := Bool.eq_false_iff.mpr hpassed
    obtain ⟨reason, hreason⟩ := boundedRules_reason hrule hfail
    have hfailed : rule ∈ (boundedRules policy candidate ambient autonomy).filter (!·.passed) :=
      List.mem_filter.mpr ⟨hrule, by simp [hfail]⟩
    have hmem := List.mem_filterMap.mpr ⟨rule, hfailed, hreason⟩
    rw [h] at hmem
    exact absurd hmem List.not_mem_nil
  · intro h
    have hnone : (boundedRules policy candidate ambient autonomy).filter (!·.passed) = [] :=
      List.filter_eq_nil_iff.mpr fun rule hrule => by simp [h rule hrule]
    rw [hnone, List.filterMap_nil]

/-- The verdict is to enact exactly when every rule passed. -/
theorem evaluate_enact : (evaluate policy candidate ambient autonomy validator).verdict = .enact ↔
    (∀ rule ∈ vetoRules policy candidate ambient validator, rule.passed = true) ∧
      (enactabilityRule validator).passed = true ∧
      ∀ rule ∈ boundedRules policy candidate ambient autonomy, rule.passed = true := by
  simp only [evaluate]
  cases hveto : (vetoRules policy candidate ambient validator).find? (!·.passed) with
  | some fired =>
    have hfired : fired.passed = false := by simpa using List.find?_some hveto
    simp only [reduceCtorEq, false_iff]
    intro h
    have hpassed := h.1 fired (List.mem_of_find?_eq_some hveto)
    rw [hfired] at hpassed
    cases hpassed
  | none =>
    have hpass : ∀ rule ∈ vetoRules policy candidate ambient validator, rule.passed = true := by
      intro rule hrule
      simpa using List.find?_eq_none.mp hveto rule hrule
    rw [← boundedRules_reasons]
    by_cases henactable : (enactabilityRule validator).passed = true
    · simp only [henactable, if_true, List.isEmpty_iff]
      split <;> rename_i h
      · exact ⟨fun _ => ⟨hpass, trivial, h⟩, fun _ => rfl⟩
      · simp [h]
    · simp [henactable]

/-- An enact verdict was given with runs of the day left. -/
theorem runsToday_lt_of_enact (h : (evaluate policy candidate ambient autonomy validator).verdict = .enact) :
    ambient.runsToday < policy.maxRunsPerDay := by
  have hpass := (evaluate_enact.mp h).1 (.check "budget.daily_runs_remaining" (ambient.runsToday < policy.maxRunsPerDay)
    s!"daily budget exhausted: {ambient.runsToday} of {policy.maxRunsPerDay} runs used") (by simp [vetoRules])
  simpa using hpass

/-- An enact verdict was given past the cooldown of the service, as the hours were read. -/
theorem cooldown_le_of_enact (h : (evaluate policy candidate ambient autonomy validator).verdict = .enact) {hours : Rat}
    (hhours : ambient.hoursSinceLastRunOnService = some (.finite hours)) : (policy.cooldownHours : Rat) ≤ hours := by
  have hpass := (evaluate_enact.mp h).2.2 (cooldownRule policy candidate ambient) (by simp [boundedRules])
  unfold cooldownRule at hpass
  rw [hhours] at hpass
  simpa [F64.gt] using hpass

end

end Tumult
