import Tumult.Autopilot.Gate

/-!
# The law of the gate

What each of the fourteen rules says, and what the gate makes of it: the audit trail lists every rule with its truth, the verdict
follows from the truths by class, and a stricter policy never enacts what a laxer one does not.
-/

namespace Tumult

/-! ## What the rules say -/

/-- The rules of the gate. -/
inductive GateRule where
  | enabled
  | enrolled
  | noOpenDeviation
  | noConcurrent
  | dailyBudget
  | notHollow
  | enactable
  | tier
  | guardPresent
  | telemetry
  | businessHours
  | cooldown
  | confidence
  | autonomy
  deriving DecidableEq, Repr

namespace GateRule

def id : GateRule → String
  | enabled => "policy.enabled"
  | enrolled => "target.enrolled"
  | noOpenDeviation => "ambient.no_open_deviation"
  | noConcurrent => "ambient.no_concurrent_experiment"
  | dailyBudget => "budget.daily_runs_remaining"
  | notHollow => "validator.not_hollow"
  | enactable => "validator.enactable"
  | tier => "tier.enact_allowed"
  | guardPresent => "guard.present"
  | telemetry => "guard.telemetry_verified"
  | businessHours => "schedule.business_hours"
  | cooldown => "cooldown.clear"
  | confidence => "confidence.high"
  | autonomy => "autonomy.earned"

/-- The rules whose failure is a veto, in order. -/
def vetoes : List GateRule := [enabled, enrolled, noOpenDeviation, noConcurrent, dailyBudget, notHollow]

/-- The rules whose failure downgrades, in order. -/
def bounds : List GateRule := [tier, guardPresent, telemetry, businessHours, cooldown, confidence, autonomy]

/-- Every rule, in the order of evaluation. -/
def order : List GateRule := vetoes ++ [enactable] ++ bounds

theorem mem_order (r : GateRule) : r ∈ order := by cases r <;> decide

/-- The ids are those of the audit contract. -/
theorem order_ids : order.map id = ruleOrder := rfl

end GateRule

section

variable (policy : AutopilotPolicy) (candidate : Candidate) (ambient : AmbientContext) (autonomy : Option AutonomyRecord)
  (validator : ValidatorReport)

/-- The operator pretrusted the fault class of the candidate, spelled out with its tier. -/
def Pretrusted : Prop :=
  ∃ t ∈ candidate.tier, ∃ p ∈ policy.pretrusted, p.plugin = candidate.plugin ∧ p.action = candidate.action ∧ p.tier = t

/-- The record has the samples and the precision that the policy asks for. -/
def EnoughHistory (record : AutonomyRecord) : Prop :=
  0 < record.enactedTotal ∧ policy.autonomyMinSamples ≤ record.enactedTotal ∧
    F64.atMost (F64.nearest ((min record.enactedClean record.enactedTotal : Nat) / record.enactedTotal)) policy.autonomyThreshold = true

/-- What a rule says. -/
def GateRule.Holds : GateRule → Prop
  | .enabled => policy.enabled = true
  | .enrolled => policy.requireEnrollment = true → ∃ entry ∈ policy.enrolledServices, stripSvc entry = stripSvc candidate.serviceId
  | .noOpenDeviation => ambient.openDeviationForTarget = false
  | .noConcurrent => ambient.concurrentExperiments = 0
  | .dailyBudget => ambient.runsToday < policy.maxRunsPerDay
  | .notHollow => validator.hollow = []
  | .enactable => validator.blockers = []
  | .tier => ∃ t ∈ candidate.tier, t ∈ policy.enactTiers
  | .guardPresent => policy.requireGuard = true → candidate.experimentHasGuard = true
  | .telemetry => ambient.guardTelemetryOk = some true
  | .businessHours => policy.businessHoursOnly = true → ambient.withinBusinessHours = true
  | .cooldown => ∀ hours ∈ ambient.hoursSinceLastRunOnService, (F64.finite policy.cooldownHours).gt hours = false
  | .confidence => candidate.confidence = .high
  | .autonomy => Pretrusted policy candidate ∨ ∃ record ∈ autonomy, EnoughHistory policy record

/-- The truth of a rule, as the gate computes it. -/
def GateRule.passes : GateRule → Bool
  | .enabled => policy.enabled
  | .enrolled => policy.isEnrolled candidate.serviceId
  | .noOpenDeviation => !ambient.openDeviationForTarget
  | .noConcurrent => ambient.concurrentExperiments = 0
  | .dailyBudget => ambient.runsToday < policy.maxRunsPerDay
  | .notHollow => validator.hollow.isEmpty
  | .enactable => validator.blockers.isEmpty
  | .tier => policy.tierAllowsEnact candidate.tier
  | .guardPresent => !policy.requireGuard || candidate.experimentHasGuard
  | .telemetry => ambient.guardTelemetryOk = some true
  | .businessHours => !policy.businessHoursOnly || ambient.withinBusinessHours
  | .cooldown => (cooldownRule policy candidate ambient).passed
  | .confidence => candidate.confidence = .high
  | .autonomy => (autonomyEarned policy autonomy (policy.isPretrusted candidate.plugin candidate.action candidate.tier)).1

end

variable {policy : AutopilotPolicy} {candidate : Candidate} {ambient : AmbientContext} {autonomy : Option AutonomyRecord}
  {validator : ValidatorReport}

/-! ## The predicates of the policy -/

theorem isEnrolled_iff {serviceId : String} : policy.isEnrolled serviceId = true ↔
    (policy.requireEnrollment = true → ∃ entry ∈ policy.enrolledServices, stripSvc entry = stripSvc serviceId) := by
  unfold AutopilotPolicy.isEnrolled
  cases policy.requireEnrollment <;> simp

theorem tierAllowsEnact_iff {tier : Option String} : policy.tierAllowsEnact tier = true ↔ ∃ t ∈ tier, t ∈ policy.enactTiers := by
  cases tier <;> simp [AutopilotPolicy.tierAllowsEnact]

theorem isPretrusted_iff : policy.isPretrusted candidate.plugin candidate.action candidate.tier = true ↔
    Pretrusted policy candidate := by
  unfold AutopilotPolicy.isPretrusted Pretrusted
  cases candidate.tier with
  | none => simp
  | some t =>
    simp only [Option.any_some, List.any_eq_true, Bool.and_eq_true, decide_eq_true_eq, and_assoc, Option.mem_def, Option.some.injEq,
      exists_eq_left']

theorem cooldownRule_passed : (cooldownRule policy candidate ambient).passed = true ↔
    ∀ hours ∈ ambient.hoursSinceLastRunOnService, (F64.finite policy.cooldownHours).gt hours = false := by
  unfold cooldownRule
  cases ambient.hoursSinceLastRunOnService <;> simp

/-- Autonomy is earned by pretrust, or by a record with enough history. -/
theorem autonomyEarned_iff {pretrusted : Bool} : (autonomyEarned policy autonomy pretrusted).1 = true ↔
    pretrusted = true ∨ ∃ record ∈ autonomy, EnoughHistory policy record := by
  unfold autonomyEarned
  cases pretrusted with
  | true => simp
  | false =>
    cases autonomy with
    | none => simp
    | some record =>
      simp only [Bool.false_eq_true, if_false, false_or, Option.mem_def, Option.some.injEq, exists_eq_left', EnoughHistory]
      split
      · rename_i hfew
        simp only [Bool.or_eq_true, decide_eq_true_eq] at hfew
        simp only [Bool.false_eq_true, false_iff]
        omega
      · rename_i henough
        simp only [Bool.or_eq_true, decide_eq_true_eq, not_or] at henough
        split
        · rename_i hprecise
          exact iff_of_true rfl ⟨by omega, by omega, hprecise⟩
        · rename_i himprecise
          exact iff_of_false (by simp) fun h => himprecise h.2.2

/-- The gate computes what a rule says. -/
theorem GateRule.passes_iff (r : GateRule) : r.passes policy candidate ambient autonomy validator = true ↔
    r.Holds policy candidate ambient autonomy validator := by
  cases r with
  | enrolled => exact isEnrolled_iff
  | tier => exact tierAllowsEnact_iff
  | cooldown => exact cooldownRule_passed
  | autonomy => exact autonomyEarned_iff.trans (or_congr_left isPretrusted_iff)
  | guardPresent => cases hrequire : policy.requireGuard <;> simp [GateRule.passes, GateRule.Holds, hrequire]
  | businessHours => cases honly : policy.businessHoursOnly <;> simp [GateRule.passes, GateRule.Holds, honly]
  | _ => simp [GateRule.passes, GateRule.Holds]

instance (r : GateRule) : Decidable (r.Holds policy candidate ambient autonomy validator) := decidable_of_iff _ r.passes_iff

theorem GateRule.passes_eq (r : GateRule) : r.passes policy candidate ambient autonomy validator =
    decide (r.Holds policy candidate ambient autonomy validator) := by
  rw [Bool.eq_iff_iff, decide_eq_true_eq]
  exact r.passes_iff

/-! ## The verdict -/

/-- An evaluated rule, as it is listed. -/
def Rule.entry (rule : Rule) : String × Bool := (rule.id, rule.passed)

/-- A rule with its truth, as it is listed. -/
def GateRule.entry (policy : AutopilotPolicy) (candidate : Candidate) (ambient : AmbientContext) (autonomy : Option AutonomyRecord)
    (validator : ValidatorReport) (r : GateRule) : String × Bool :=
  (r.id, decide (r.Holds policy candidate ambient autonomy validator))

theorem GateRule.entry_eq (r : GateRule) : r.entry policy candidate ambient autonomy validator =
    (r.id, r.passes policy candidate ambient autonomy validator) := by
  rw [GateRule.entry, GateRule.passes_eq]

theorem vetoRules_entries : (vetoRules policy candidate ambient validator).map Rule.entry =
    GateRule.vetoes.map (GateRule.entry policy candidate ambient autonomy validator) := by
  simp only [GateRule.vetoes, List.map_cons, List.map_nil, GateRule.entry_eq]
  rfl

theorem enactabilityRule_entry : (enactabilityRule validator).entry =
    GateRule.entry policy candidate ambient autonomy validator .enactable := by
  rw [GateRule.entry_eq]
  rfl

theorem boundedRules_entries : (boundedRules policy candidate ambient autonomy).map Rule.entry =
    GateRule.bounds.map (GateRule.entry policy candidate ambient autonomy validator) := by
  simp only [GateRule.bounds, List.map_cons, List.map_nil, GateRule.entry_eq]
  simp [boundedRules, Rule.entry, GateRule.id, GateRule.passes]

/-- Rules that are listed alike pass alike. -/
theorem passed_of_entries {rules : List Rule} {rs : List GateRule}
    (h : rules.map Rule.entry = rs.map (GateRule.entry policy candidate ambient autonomy validator)) :
    (∀ rule ∈ rules, rule.passed = true) ↔ ∀ r ∈ rs, r.Holds policy candidate ambient autonomy validator := by
  have hall : (∀ e ∈ rules.map Rule.entry, e.2 = true) ↔
      ∀ e ∈ rs.map (GateRule.entry policy candidate ambient autonomy validator), e.2 = true := by rw [h]
  simpa [Rule.entry, GateRule.entry] using hall

/-- The first that fails is the same. -/
theorem find_of_entries {rules : List Rule} {rs : List GateRule}
    (h : rules.map Rule.entry = rs.map (GateRule.entry policy candidate ambient autonomy validator)) :
    (rules.find? (!·.passed)).map Rule.entry =
      (rs.find? fun r => !decide (r.Holds policy candidate ambient autonomy validator)).map
        (GateRule.entry policy candidate ambient autonomy validator) := by
  have hfind : (rules.map Rule.entry).find? (!·.2) =
      (rs.map (GateRule.entry policy candidate ambient autonomy validator)).find? (!·.2) := by rw [h]
  rw [List.find?_map, List.find?_map] at hfind
  exact hfind

/-- What a decision owes to the truths of the rules. -/
structure VerdictLaw (policy : AutopilotPolicy) (candidate : Candidate) (ambient : AmbientContext) (autonomy : Option AutonomyRecord)
    (validator : ValidatorReport) (decision : GateDecision) : Prop where
  /-- The audit trail is the rules in order, each with its truth. -/
  rules : decision.rulesEvaluated = GateRule.order.map (GateRule.entry policy candidate ambient autonomy validator)
  enact : decision.verdict = .enact ↔ ∀ r : GateRule, r.Holds policy candidate ambient autonomy validator
  /-- A veto names the first veto rule that fails. -/
  veto : ∀ before r after, GateRule.vetoes = before ++ r :: after →
    (∀ r' ∈ before, r'.Holds policy candidate ambient autonomy validator) → ¬ r.Holds policy candidate ambient autonomy validator →
      decision.verdict = .veto r.id
  propose : (∀ r ∈ GateRule.vetoes, r.Holds policy candidate ambient autonomy validator) →
    ¬ GateRule.enactable.Holds policy candidate ambient autonomy validator → decision.verdict = .propose validator.blockers
  downgrade : (∀ r ∈ GateRule.vetoes, r.Holds policy candidate ambient autonomy validator) →
    GateRule.enactable.Holds policy candidate ambient autonomy validator →
      (∃ r ∈ GateRule.bounds, ¬ r.Holds policy candidate ambient autonomy validator) →
        ∃ reason reasons, decision.verdict = .downgrade (reason :: reasons)

/-- Without a failing veto rule the verdict is left to the validator and the bounds. -/
theorem evaluate_unvetoed (h : ∀ r ∈ GateRule.vetoes, r.Holds policy candidate ambient autonomy validator) :
    (evaluate policy candidate ambient autonomy validator).verdict =
      if validator.blockers.isEmpty then
        if (((boundedRules policy candidate ambient autonomy).filter (!·.passed)).filterMap (·.reason)).isEmpty then .enact
        else .downgrade (((boundedRules policy candidate ambient autonomy).filter (!·.passed)).filterMap (·.reason))
      else .propose validator.blockers := by
  have hnone : (vetoRules policy candidate ambient validator).find? (!·.passed) = none := by
    rw [List.find?_eq_none]
    intro rule hrule
    simpa using (passed_of_entries vetoRules_entries).mpr h rule hrule
  simp only [evaluate, hnone]
  rfl

/-- The gate keeps the law. -/
theorem evaluate_law : VerdictLaw policy candidate ambient autonomy validator (evaluate policy candidate ambient autonomy validator) where
  rules := by
    have htrail : (evaluate policy candidate ambient autonomy validator).rulesEvaluated =
        (vetoRules policy candidate ambient validator).map Rule.entry ++ [(enactabilityRule validator).entry] ++
          (boundedRules policy candidate ambient autonomy).map Rule.entry := by
      simp only [evaluate, List.map_append]
      rfl
    rw [htrail, vetoRules_entries, enactabilityRule_entry, boundedRules_entries, GateRule.order, List.map_append, List.map_append]
    rfl
  enact := by
    have henactable : (enactabilityRule validator).passed = true ↔
        GateRule.enactable.Holds policy candidate ambient autonomy validator := by
      simp [enactabilityRule, GateRule.Holds]
    rw [evaluate_enact, passed_of_entries vetoRules_entries, henactable, passed_of_entries boundedRules_entries]
    constructor
    · rintro ⟨hveto, henact, hbound⟩ r
      have hr := r.mem_order
      simp only [GateRule.order, List.mem_append, List.mem_singleton] at hr
      rcases hr with (hr | rfl) | hr
      · exact hveto r hr
      · exact henact
      · exact hbound r hr
    · exact fun h => ⟨fun r _ => h r, h _, fun r _ => h r⟩
  veto before r after hsplit hbefore hr := by
    have hfirst : GateRule.vetoes.find? (fun r => !decide (r.Holds policy candidate ambient autonomy validator)) = some r := by
      rw [List.find?_eq_some_iff_append]
      refine ⟨by simpa using hr, before, after, hsplit, fun r' hr' => ?_⟩
      simpa using hbefore r' hr'
    have hentries : (vetoRules policy candidate ambient validator).map Rule.entry =
        GateRule.vetoes.map (GateRule.entry policy candidate ambient autonomy validator) := vetoRules_entries
    have hfound := find_of_entries hentries
    rw [hfirst, Option.map_some, Option.map_eq_some_iff] at hfound
    obtain ⟨fired, hfired, hentry⟩ := hfound
    have hid : fired.id = r.id := congrArg Prod.fst hentry
    simp only [evaluate, hfired, hid]
  propose hveto henactable := by
    have hblocked : validator.blockers.isEmpty = false := by simpa [GateRule.Holds] using henactable
    rw [evaluate_unvetoed hveto, hblocked]
    rfl
  downgrade hveto henactable hbound := by
    have hclear : validator.blockers.isEmpty = true := by simpa [GateRule.Holds] using henactable
    rw [evaluate_unvetoed hveto, hclear, if_pos rfl]
    cases hreasons : ((boundedRules policy candidate ambient autonomy).filter (!·.passed)).filterMap (·.reason) with
    | nil =>
      obtain ⟨r, hr, hfails⟩ := hbound
      exact absurd ((passed_of_entries boundedRules_entries).mp (boundedRules_reasons.mp hreasons) r hr) hfails
    | cons reason reasons => exact ⟨reason, reasons, by simp⟩

/-! ## Stricter policies -/

/-- The second policy restricts the first: nothing is allowed, listed or pretrusted that the first does not, the bounds are at least
as tight, and what the first requires is required. -/
structure Restricts (policy policy' : AutopilotPolicy) : Prop where
  enabled : policy'.enabled = true → policy.enabled = true
  maxRunsPerDay : policy'.maxRunsPerDay ≤ policy.maxRunsPerDay
  cooldownHours : policy.cooldownHours ≤ policy'.cooldownHours
  enactTiers : policy'.enactTiers ⊆ policy.enactTiers
  requireGuard : policy.requireGuard = true → policy'.requireGuard = true
  businessHoursOnly : policy.businessHoursOnly = true → policy'.businessHoursOnly = true
  requireEnrollment : policy.requireEnrollment = true → policy'.requireEnrollment = true
  enrolledServices : policy'.enrolledServices ⊆ policy.enrolledServices
  autonomyThreshold : policy'.autonomyThreshold = policy.autonomyThreshold ∨
    policy'.autonomyThreshold.gt policy.autonomyThreshold = true
  autonomyMinSamples : policy.autonomyMinSamples ≤ policy'.autonomyMinSamples
  pretrusted : policy'.pretrusted ⊆ policy.pretrusted

/-- A number that reaches a threshold reaches a lower one. -/
theorem F64.atMost_of_gt {p : Rat} {x y : F64} (h : y.gt x = true) (hy : F64.atMost p y = true) : F64.atMost p x = true := by
  cases x with
  | nan => cases y <;> cases h
  | infinity negative =>
    cases y with
    | nan => cases h
    | finite b => simpa [F64.gt, F64.atMost] using h
    | infinity negative' =>
      simp only [F64.gt, Bool.and_eq_true, Bool.not_eq_true'] at h
      exact h.2
  | finite a =>
    cases y with
    | nan => cases h
    | finite b =>
      simp only [F64.gt, decide_eq_true_eq] at h
      simp only [F64.atMost, decide_eq_true_eq] at hy ⊢
      exact le_trans (le_of_lt h) hy
    | infinity negative =>
      simp only [F64.gt, Bool.not_eq_true'] at h
      rw [F64.atMost, h] at hy
      cases hy

/-- Hours that clear a cooldown clear a shorter one. -/
theorem F64.gt_false_of_le {a b : Rat} {x : F64} (h : a ≤ b) (hb : (F64.finite b).gt x = false) : (F64.finite a).gt x = false := by
  cases x with
  | finite c =>
    simp only [F64.gt, decide_eq_false_iff_not, not_lt] at hb ⊢
    exact le_trans h hb
  | infinity negative => exact hb
  | nan => rfl

/-- A rule that holds under a policy holds under every policy it restricts. -/
theorem GateRule.Holds.of_restricts {policy' : AutopilotPolicy} (hrestricts : Restricts policy policy') {r : GateRule}
    (h : r.Holds policy' candidate ambient autonomy validator) : r.Holds policy candidate ambient autonomy validator := by
  cases r with
  | enabled => exact hrestricts.enabled h
  | enrolled =>
    intro hrequire
    obtain ⟨entry, hentry, hsame⟩ := h (hrestricts.requireEnrollment hrequire)
    exact ⟨entry, hrestricts.enrolledServices hentry, hsame⟩
  | dailyBudget => exact Nat.lt_of_lt_of_le h hrestricts.maxRunsPerDay
  | tier =>
    obtain ⟨t, ht, hallowed⟩ := h
    exact ⟨t, ht, hrestricts.enactTiers hallowed⟩
  | guardPresent => exact fun hrequire => h (hrestricts.requireGuard hrequire)
  | businessHours => exact fun honly => h (hrestricts.businessHoursOnly honly)
  | cooldown =>
    intro hours hhours
    exact F64.gt_false_of_le (by exact_mod_cast hrestricts.cooldownHours) (h hours hhours)
  | autonomy =>
    rcases h with ⟨t, ht, p, hp, hclass⟩ | ⟨record, hrecord, hsome, hsamples, hprecise⟩
    · exact Or.inl ⟨t, ht, p, hrestricts.pretrusted hp, hclass⟩
    · refine Or.inr ⟨record, hrecord, hsome, le_trans hrestricts.autonomyMinSamples hsamples, ?_⟩
      rcases hrestricts.autonomyThreshold with hsame | hraised
      · rwa [hsame] at hprecise
      · exact F64.atMost_of_gt hraised hprecise
  | noOpenDeviation => exact h
  | noConcurrent => exact h
  | notHollow => exact h
  | enactable => exact h
  | telemetry => exact h
  | confidence => exact h

/-! ## The theorem -/

/-- The gate keeps the law of the verdict, and a policy that restricts another enacts only what the other enacts. -/
theorem gate_verdict_law (policy : AutopilotPolicy) (candidate : Candidate) (ambient : AmbientContext)
    (autonomy : Option AutonomyRecord) (validator : ValidatorReport) :
    VerdictLaw policy candidate ambient autonomy validator (evaluate policy candidate ambient autonomy validator) ∧
      ∀ policy', Restricts policy policy' → (evaluate policy candidate ambient autonomy validator).verdict ≠ .enact →
        (evaluate policy' candidate ambient autonomy validator).verdict ≠ .enact := by
  refine ⟨evaluate_law, fun policy' hrestricts hnot henact => hnot ?_⟩
  have hall := evaluate_law.enact.mp henact
  exact evaluate_law.enact.mpr fun r => (hall r).of_restricts hrestricts

/-- A candidate with a sound playbook, in calm surroundings. -/
def soundCandidate : Candidate where
  id := "c1"
  serviceId := "svc:db"
  tier := some "data"
  plugin := "tumult-postgres"
  action := "kill-connections"
  articleId := "compliance:DORA/Art.25"
  score := 1
  reasons := []
  confidence := .high
  playbookExperiment := some "kill.toon"
  experimentHasGuard := true
  experimentHasRollback := true
  experimentHasSteadyState := true
  experimentFaultCount := 1
  trigger := .manual

def calmAmbient : AmbientContext where
  openDeviationForTarget := false
  runsToday := 0
  hoursSinceLastRunOnService := none
  withinBusinessHours := true
  concurrentExperiments := 0
  guardTelemetryOk := some true

/-- The default policy is disabled, and does not enact when its budget is lowered. -/
theorem gate_verdict_law_default :
    (evaluate { maxRunsPerDay := 0 } soundCandidate calmAmbient none (validate soundCandidate)).verdict ≠ .enact := by
  have hrestricts : Restricts {} { maxRunsPerDay := 0 } :=
    { enabled := id, maxRunsPerDay := by decide, cooldownHours := by decide, enactTiers := by simp, requireGuard := id
      businessHoursOnly := id, requireEnrollment := id, enrolledServices := by simp, autonomyThreshold := Or.inl rfl
      autonomyMinSamples := by decide, pretrusted := by simp }
  refine (gate_verdict_law {} soundCandidate calmAmbient none (validate soundCandidate)).2 _ hrestricts fun henact => ?_
  have henabled := (gate_verdict_law {} soundCandidate calmAmbient none (validate soundCandidate)).1.enact.mp henact .enabled
  cases henabled

end Tumult
