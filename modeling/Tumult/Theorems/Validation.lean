import Tumult.Core.Text
import Tumult.Lib.Checks
import Tumult.Runner.Footprint

/-!
# What the validation covers

A run hands out nothing but method steps, rollbacks, hypothesis probes and guard probes. The validation checks the tolerances of all
of them, and the script names of all but the guard probes; a range with a bound that is not a number passes.
-/

namespace Tumult

open Traced

/-- `x <= y`; no comparison with a NaN holds. -/
def F64.le (x y : F64) : Bool := x ≠ .nan && y ≠ .nan && !x.gt y

/-- Every activity of an experiment that a run may hand to the executor. -/
def Experiment.activities (experiment : Experiment) : List Activity :=
  experiment.method ++ experiment.rollbacks ++ (experiment.steadyStateHypothesis.map (·.probes)).getD [] ++
    experiment.guards.map (·.probe)

/-! ## What a run hands out -/

/-- What is handed to the executor is one of the activities. -/
def Entry.Hands (activities : List Activity) : Entry → Prop
  | .called _ activity _ => activity ∈ activities
  | _ => True

section Hands

variable {Γ : RunnerCtx} {executor : ActivityExecutor} {controls : ControlRegistry} {S : List Activity} {experiment : Experiment}
  {config : RunConfig} {m : MethodOutcome}

theorem emit_hands (thread : Thread) (event : LifecycleEvent) : Always (Entry.Hands S) (controls.emit thread event) := by
  refine Always.bind (Always.forEach _ (fun h handler _ => ?_) 0) fun _ => Always.pure _
  exact Always.bind (Always.log trivial) fun _ => Always.catchUnwind (Always.settle _)

theorem isCancelled_hands (token : Option CancellationToken) (moment : Moment) :
    Always (Entry.Hands S) (isCancelled token moment) := by
  cases token with
  | none => exact Always.pure _
  | some token => exact Always.bind (Always.log trivial) fun _ => Always.pure _

variable {activity : Activity} {site : Site}

theorem executeSingleActivity_hands (h : activity ∈ S) (token : Option CancellationToken) :
    Always (Entry.Hands S) (executeSingleActivity Γ executor controls site activity token) :=
  executeSingleActivity_always (fun _ _ => trivial) token (fun _ _ => trivial) fun _ => h

theorem executeForegroundActivity_hands (h : activity ∈ S) (token : Option CancellationToken) :
    Always (Entry.Hands S) (executeForegroundActivity Γ executor controls site activity token) :=
  executeForegroundActivity_always (fun _ _ => trivial) token (fun _ _ => trivial) fun _ => h

theorem pauseActivity_hands (phase : Phase) (seconds : Option F64) (token : Option CancellationToken) :
    Always (Entry.Hands S) (pauseActivity phase site seconds token) := by
  have hread : Always (Entry.Hands S) (do
      let cancelled ← isCancelled token (.pause phase site)
      pure !cancelled) := Always.bind (isCancelled_hands token _) fun _ => Always.pure _
  unfold pauseActivity
  split
  · exact hread
  · refine Always.bind (Always.log trivial) fun _ => ?_
    split
    · exact hread
    · exact Always.unwind _

theorem executePendingActivity_hands (h : activity ∈ S) (token : Option CancellationToken) :
    Always (Entry.Hands S) (executePendingActivity Γ executor controls site activity token) := by
  refine Always.bind (pauseActivity_hands .before _ token) fun waited => ?_
  cases waited with
  | false => exact Always.pure _
  | true =>
    refine Always.bind (executeForegroundActivity_hands h token) fun _ => ?_
    exact Always.bind (pauseActivity_hands .after _ token) fun _ => Always.pure _

/-- The method hands out its own steps. -/
theorem executeActivities_hands {activities : List Activity} (h : ∀ a ∈ activities, a ∈ S) (token : Option CancellationToken)
    (cap : Option Nat) : Always (Entry.Hands S) (executeActivities Γ executor controls activities token cap) := by
  refine Always.bind (Always.forEach _ (fun i a ha => ?_) 0) fun joined => Always.bind (Always.whileSome _ (fun i a ha => ?_) 0)
    fun _ => Always.pure _
  · refine Always.bind (Always.catchUnwind ?_) fun _ => Always.pure _
    refine Always.bind (Always.bind (isCancelled_hands token _) fun _ => Always.pure _) fun permitted => ?_
    cases permitted with
    | false => exact Always.pure _
    | true => exact executePendingActivity_hands (h a (List.mem_of_mem_filter ha)) token
  · exact Always.bind (executePendingActivity_hands (h a (List.mem_of_mem_filter ha)) token) fun _ => Always.pure _

theorem evaluateHypothesis_hands {hypothesis : Hypothesis} (h : ∀ a ∈ hypothesis.probes, a ∈ S) (phase : Phase) :
    Always (Entry.Hands S) (evaluateHypothesis Γ executor controls phase hypothesis) := by
  refine Always.bind (Always.forEach _ (fun i probe hprobe => ?_) 0) fun _ => Always.pure _
  exact Always.bind (executeSingleActivity_hands (h probe hprobe) none) fun _ => Always.pure _

theorem call_hands (h : activity ∈ S) : Always (Entry.Hands S) (executor.call site activity) :=
  Always.bind (Always.log h) fun _ => Always.settle _

theorem sampleProbeRound_hands {hypothesis : Hypothesis} (h : ∀ a ∈ hypothesis.probes, a ∈ S) (at_ : Nat → Site) :
    Always (Entry.Hands S) (sampleProbeRound Γ executor at_ hypothesis) := by
  refine Always.bind (Always.forEach _ (fun i probe hprobe => ?_) 0) fun _ => Always.pure _
  exact Always.bind (call_hands (h probe hprobe)) fun _ => Always.pure _

theorem collectDuringSamples_hands {hypothesis : Hypothesis} (h : ∀ a ∈ hypothesis.probes, a ∈ S) (rounds round : Nat)
    (perProbe : ProbeSamples) : Always (Entry.Hands S) (collectDuringSamples Γ executor hypothesis rounds round perProbe) := by
  induction rounds generalizing round perProbe with
  | zero => exact Always.pure _
  | succ rounds ih =>
    refine Always.bind (Always.catchUnwind (sampleProbeRound_hands h _)) fun o => ?_
    cases o with
    | returned samples => exact ih (round + 1) _
    | unwound m => exact Always.pure _

theorem collectPostSamples_hands {hypothesis : Hypothesis} (h : ∀ a ∈ hypothesis.probes, a ∈ S) (token : Option CancellationToken)
    (rounds round : Nat) (perProbe : ProbeSamples) :
    Always (Entry.Hands S) (collectPostSamples Γ executor hypothesis token rounds round perProbe) := by
  induction rounds generalizing round perProbe with
  | zero =>
    unfold collectPostSamples
    refine Always.bind (sampleProbeRound_hands h _) fun s => Always.bind (isCancelled_hands token _) fun cancelled => ?_
    dsimp only
    split <;> exact Always.pure _
  | succ rounds ih =>
    unfold collectPostSamples
    refine Always.bind (sampleProbeRound_hands h _) fun s => Always.bind (isCancelled_hands token _) fun cancelled => ?_
    dsimp only
    split
    · exact Always.pure _
    · exact ih (round + 1) _

theorem guardRound_hands (round i : Nat) {guards : List (Guard × Nat)} (h : ∀ g ∈ guards, g.1.probe ∈ S) :
    Always (Entry.Hands S) (guardRound Γ executor round i guards) := by
  induction guards generalizing i with
  | nil => exact Always.pure _
  | cons g guards ih =>
    obtain ⟨g, consecutive⟩ := g
    have hrest := ih (i + 1) fun g' hg' => h g' (List.mem_cons_of_mem _ hg')
    unfold guardRound
    refine Always.bind (call_hands (h _ List.mem_cons_self)) fun outcome => ?_
    split
    · exact Always.bind hrest fun _ => Always.pure _
    · split
      · exact Always.bind (Always.log trivial) fun _ => Always.pure _
      · exact Always.bind hrest fun _ => Always.pure _

/-- A round counts breaches and keeps the guards. -/
theorem guardRound_guards (round i : Nat) (guards : List (Guard × Nat)) :
    Yields (guardRound Γ executor round i guards) fun r => ∀ guards', r = .ok guards' → guards'.map (·.1) = guards.map (·.1) := by
  induction guards generalizing i with
  | nil =>
    refine Yields.pure ?_
    rintro guards' ⟨⟩
    rfl
  | cons g guards ih =>
    obtain ⟨g, consecutive⟩ := g
    have hcons (n : Nat) (r : Except HaltRecord (List (Guard × Nat)))
        (hr : ∀ guards', r = .ok guards' → guards'.map (·.1) = guards.map (·.1)) (guards' : List (Guard × Nat))
        (h : r.map ((g, n) :: ·) = .ok guards') : guards'.map (·.1) = ((g, consecutive) :: guards).map (·.1) := by
      cases r with
      | error e => cases h
      | ok rest =>
        obtain rfl := Except.ok.inj h
        simp [hr rest rfl]
    unfold guardRound
    refine Yields.after fun outcome => ?_
    split
    · exact Yields.bind (ih (i + 1)) fun r hr => Yields.pure (hcons 0 r hr)
    · split
      · refine Yields.after fun _ => Yields.pure ?_
        rintro guards' ⟨⟩
      · exact Yields.bind (ih (i + 1)) fun r hr => Yields.pure (hcons (consecutive + 1) r hr)

theorem runGuardMonitor_hands (rounds round : Nat) {guards : List (Guard × Nat)} (h : ∀ g ∈ guards.map (·.1), g.probe ∈ S) :
    Always (Entry.Hands S) (runGuardMonitor Γ executor rounds round guards) := by
  induction rounds generalizing round guards with
  | zero => exact Always.pure _
  | succ rounds ih =>
    have hround : Always (Entry.Hands S) (guardRound Γ executor round 0 guards) :=
      guardRound_hands round 0 fun g hg => h g.1 (List.mem_map_of_mem hg)
    refine Always.bindYields hround (guardRound_guards round 0 guards) fun r hr => ?_
    cases r with
    | error record => exact Always.pure _
    | ok guards' => exact ih (round + 1) (by rwa [hr guards' rfl])

theorem startLoad_hands : Always (Entry.Hands S) (startLoad experiment config) := by
  unfold startLoad
  split
  · refine Always.bind (Always.log trivial) fun _ => Always.bind (Always.settle _) fun r => ?_
    cases r <;> exact Always.pure _
  · exact Always.pure _

theorem stopLoad_hands (handle : Option LoadHandle) (loadExecutor : Option LoadExecutor) :
    Always (Entry.Hands S) (stopLoad handle loadExecutor) := by
  unfold stopLoad
  split
  · refine Always.bind (Always.log trivial) fun _ => Always.bind (Always.settle _) fun r => ?_
    cases r <;> exact Always.pure _
  · exact Always.pure _

/-! The phases of a run hand out the activities of its experiment. -/

theorem mem_activities_of_step {a : Activity} (h : a ∈ experiment.method) : a ∈ experiment.activities := by
  simp [Experiment.activities, h]

theorem mem_activities_of_rollback {a : Activity} (h : a ∈ experiment.rollbacks) : a ∈ experiment.activities := by
  simp [Experiment.activities, h]

theorem mem_activities_of_probe {a : Activity} {hypothesis : Hypothesis} (h : experiment.steadyStateHypothesis = some hypothesis)
    (ha : a ∈ hypothesis.probes) : a ∈ experiment.activities := by
  simp [Experiment.activities, h, ha]

theorem mem_activities_of_guard {g : Guard} (h : g ∈ experiment.guards) : g.probe ∈ experiment.activities := by
  simp only [Experiment.activities, List.mem_append]
  exact .inr (List.mem_map_of_mem h)

theorem runHypothesisPhase_hands (phase : Phase) :
    Always (Entry.Hands experiment.activities) (runHypothesisPhase Γ executor controls phase experiment) := by
  unfold runHypothesisPhase
  split
  · exact Always.pure _
  · next hypothesis hsome =>
    refine Always.bind (emit_hands _ _) fun _ => ?_
    refine Always.bind (evaluateHypothesis_hands (fun a ha => mem_activities_of_probe hsome ha) _) fun _ => ?_
    exact Always.bind (emit_hands _ _) fun _ => Always.pure _

theorem runRollbacks_hands (strategy : RollbackStrategy) (needs : Bool) :
    Always (Entry.Hands experiment.activities) (runRollbacks Γ executor controls experiment strategy needs) := by
  unfold runRollbacks
  split
  · exact Always.pure _
  · refine Always.bind (emit_hands _ _) fun _ => ?_
    refine Always.bind (Always.forEach _ (fun i a ha => executeForegroundActivity_hands (mem_activities_of_rollback ha) none) 0)
      fun _ => ?_
    exact Always.bind (emit_hands _ _) fun _ => Always.pure _

theorem sampledHypothesis_some {hypothesis : Hypothesis} (h : sampledHypothesis experiment = some hypothesis) :
    experiment.steadyStateHypothesis = some hypothesis := by
  unfold sampledHypothesis at h
  exact (Option.filter_eq_some_iff.mp h).1

theorem duringSampler_hands : Always (Entry.Hands experiment.activities) (duringSampler Γ executor experiment) := by
  unfold duringSampler
  split
  · exact Always.pure _
  · next hypothesis hsome =>
    have hprobes : ∀ a ∈ hypothesis.probes, a ∈ experiment.activities :=
      fun a ha => mem_activities_of_probe (sampledHypothesis_some hsome) ha
    exact Always.bind (collectDuringSamples_hands hprobes _ 0 []) fun _ => Always.pure _

theorem postSampling_hands (token : Option CancellationToken) :
    Always (Entry.Hands experiment.activities) (postSampling Γ executor experiment token) := by
  unfold postSampling
  split
  · exact Always.pure _
  · next hypothesis hsome =>
    have hprobes : ∀ a ∈ hypothesis.probes, a ∈ experiment.activities :=
      fun a ha => mem_activities_of_probe (sampledHypothesis_some hsome) ha
    exact Always.bind (collectPostSamples_hands hprobes token _ 0 []) fun _ => Always.pure _

theorem guardMonitor_hands : Always (Entry.Hands experiment.activities) (guardMonitor Γ executor experiment) := by
  unfold guardMonitor
  split
  · exact Always.pure _
  · have hguards : ∀ g ∈ (experiment.guards.map (·, 0)).map (·.1), g.probe ∈ experiment.activities := by
      intro g hg
      exact mem_activities_of_guard (by simpa using hg)
    refine Always.bind (Always.catchUnwind (runGuardMonitor_hands _ 0 hguards)) fun o => ?_
    cases o <;> exact Always.pure _

theorem methodPhase_hands (before : Option HypothesisResult) (handle : Option LoadHandle) :
    Always (Entry.Hands experiment.activities) (methodPhase Γ executor controls experiment config before handle) := by
  refine Always.bind (emit_hands _ _) fun _ => Always.bind duringSampler_hands fun _ => Always.bind guardMonitor_hands fun halt => ?_
  refine Always.bind (executeActivities_hands (fun a ha => mem_activities_of_step ha) _ _) fun _ => ?_
  exact Always.bind (emit_hands _ _) fun _ => Always.pure _

theorem endRegular_hands : Always (Entry.Hands experiment.activities) (endRegular Γ executor controls experiment config m) := by
  refine Always.bind (postSampling_hands _) fun _ => Always.bind (stopLoad_hands _ _) fun _ => Always.bind ?_ fun _ => ?_
  · refine Always.bind (isCancelled_hands _ _) fun skip => ?_
    cases skip with
    | true => exact Always.pure _
    | false => exact runHypothesisPhase_hands _
  · refine Always.bind (isCancelled_hands _ _) fun _ => Always.bind (runRollbacks_hands _ _) fun _ => ?_
    exact Always.bind (isCancelled_hands _ _) fun _ => Always.bind (emit_hands _ _) fun _ => Always.pure _

theorem endRun_hands (halt : Option HaltRecord) :
    Always (Entry.Hands experiment.activities) (endRun Γ executor controls experiment config m halt) := by
  have hstopped {α : Type} (f : Option LoadResult → List ActivityResult → α) : Always (Entry.Hands experiment.activities) (do
      let loadResult ← stopLoad m.loadHandle config.loadExecutor
      let rollbackResults ← runRollbacks Γ executor controls experiment config.rollbackStrategy true
      controls.emit .main .afterExperiment
      pure (f loadResult rollbackResults)) :=
    Always.bind (stopLoad_hands _ _) fun _ => Always.bind (runRollbacks_hands _ _) fun _ =>
      Always.bind (emit_hands _ _) fun _ => Always.pure _
  unfold endRun
  split
  · exact hstopped _
  · refine Always.bind (isCancelled_hands _ _) fun interrupted => ?_
    cases interrupted with
    | true => exact hstopped _
    | false => exact endRegular_hands

/-- Whatever the executor answers and whenever the run is cancelled, what is handed out is an activity of the experiment. -/
theorem runExperiment_hands : Always (Entry.Hands experiment.activities) (runExperiment Γ executor controls experiment config) := by
  unfold runExperiment
  split_ifs with honly hload hmethod
  · unfold runProbeOnly
    split
    · exact Always.pure _
    · next hypothesis hsome =>
      have hprobes := (Option.filter_eq_some_iff.mp hsome).1
      refine Always.bind (isCancelled_hands _ _) fun cancelled => ?_
      cases cancelled with
      | true => exact Always.pure _
      | false =>
        refine Always.bind (evaluateHypothesis_hands (fun a ha => mem_activities_of_probe hprobes ha) _) fun _ => ?_
        exact Always.bind (isCancelled_hands _ _) fun _ => Always.pure _
  · exact Always.pure _
  · exact Always.pure _
  · refine Always.bind (isCancelled_hands _ _) fun cancelled => ?_
    cases cancelled with
    | true => exact Always.pure _
    | false =>
      refine Always.bind (emit_hands _ _) fun _ => Always.bind (runHypothesisPhase_hands _) fun before => ?_
      dsimp only
      split
      · refine Always.bind ?_ fun _ => Always.pure _
        exact Always.bind (runRollbacks_hands _ _) fun _ => Always.bind (emit_hands _ _) fun _ => Always.pure _
      · refine Always.bind (isCancelled_hands _ _) fun cancelled => ?_
        cases cancelled with
        | true => exact Always.bind (emit_hands _ _) fun _ => Always.pure _
        | false =>
          refine Always.bind startLoad_hands fun r => ?_
          cases r with
          | error e => exact Always.pure _
          | ok handle =>
            refine Always.bind (methodPhase_hands _ _) fun mh => ?_
            exact Always.bind (endRun_hands _) fun _ => Always.pure _

end Hands

/-! ## What an accepted experiment promises -/

/-- A plugin or function name that stays inside the plugin search paths. -/
structure WellFormedName (s : String) : Prop where
  nonempty : s ≠ ""
  slash : '/' ∉ s.toList
  backslash : '\\' ∉ s.toList
  parent : ¬ ['.', '.'] <:+: s.toList
  null : '\x00' ∉ s.toList
  whitespace : ∀ c ∈ s.toList, Text.isWhitespace c = false

/-- Both names of a script provider are well formed. -/
def Provider.NamesOk (provider : Provider) : Prop :=
  ∀ plugin function arguments timeoutS, provider = .script plugin function arguments timeoutS →
    WellFormedName plugin ∧ WellFormedName function

/-- What the validation is to ensure of an activity that runs. -/
structure Activity.WellFormed (compiles : String → Bool) (activity : Activity) : Prop where
  names : activity.provider.NamesOk
  regex : ∀ pattern, activity.tolerance = some (.regex pattern) → compiles pattern = true
  range : ∀ lower upper, activity.tolerance = some (.range lower upper) → lower.le upper = true

/-- Every activity of the experiment is well formed, and so is whatever a run hands to the executor. -/
structure Experiment.Covered (compiles : String → Bool) (experiment : Experiment) : Prop where
  declared : ∀ a ∈ experiment.activities, a.WellFormed compiles
  handed : ∀ (Γ : RunnerCtx) (executor : ActivityExecutor) (controls : ControlRegistry) (config : RunConfig) (site : Site)
    (a : Activity) (answer : Outcome ActivityOutcome),
    .called site a answer ∈ (runExperiment Γ executor controls experiment config).trace → a.WellFormed compiles

/-- What the validation leaves to the author: the script names of the guard probes, and bounds that are numbers. -/
structure Experiment.LeftOut (experiment : Experiment) : Prop where
  guardNames : ∀ g ∈ experiment.guards, g.probe.provider.NamesOk
  bounds : ∀ a ∈ experiment.activities, ∀ lower upper, a.tolerance = some (.range lower upper) → lower ≠ .nan ∧ upper ≠ .nan

/-- The text occurs in the other, as an infix. -/
theorem containsText_iff (value part : String) : containsText value part = true ↔ part.toList <:+: value.toList := by
  unfold containsText
  rw [List.any_eq_true]
  constructor
  · rintro ⟨tail, htail, hprefix⟩
    exact (List.isPrefixOf_iff_prefix.mp hprefix).isInfix.trans ((List.mem_tails _ _).mp htail).isInfix
  · intro h
    obtain ⟨before, after, heq⟩ := h
    refine ⟨part.toList ++ after, (List.mem_tails _ _).mpr ⟨before, by simpa using heq⟩, ?_⟩
    exact List.isPrefixOf_iff_prefix.mpr (List.prefix_append _ _)

theorem validateScriptName_ok_iff (activity field value : String) :
    validateScriptName Text.isWhitespace activity field value = .ok () ↔ WellFormedName value := by
  have hparent : containsText value ".." = true ↔ ['.', '.'] <:+: value.toList := containsText_iff value ".."
  unfold validateScriptName
  dsimp only
  split_ifs with hempty hsep hdots hnull hspace
  · exact ⟨nofun, fun h => absurd hempty h.nonempty⟩
  · refine ⟨nofun, fun h => ?_⟩
    simp [h.slash, h.backslash] at hsep
  · exact ⟨nofun, fun h => absurd (hparent.mp hdots) h.parent⟩
  · refine ⟨nofun, fun h => ?_⟩
    simp [h.null] at hnull
  · refine ⟨nofun, fun h => ?_⟩
    obtain ⟨c, hc, hwhite⟩ := List.any_eq_true.mp hspace
    rw [h.whitespace c hc] at hwhite
    cases hwhite
  · simp only [Bool.or_eq_true, List.contains_iff_mem, not_or] at hsep
    refine ⟨fun _ => ⟨hempty, hsep.1, hsep.2, fun h => hdots (hparent.mpr h), by simpa using hnull, fun c hc => ?_⟩, fun _ => rfl⟩
    simpa using fun hwhite => hspace (List.any_eq_true.mpr ⟨c, hc, hwhite⟩)

/-- A pattern compiles, and no bound is above the other. -/
def ToleranceOk (compiles : String → Bool) (tolerance : Option Tolerance) : Prop :=
  (∀ pattern, tolerance = some (.regex pattern) → compiles pattern = true) ∧
    ∀ lower upper, tolerance = some (.range lower upper) → lower.gt upper = false

theorem validateTolerance_ok_iff (compiles : String → Bool) (activity : String) (tolerance : Option Tolerance) :
    validateTolerance compiles activity tolerance = .ok () ↔ ToleranceOk compiles tolerance := by
  unfold ToleranceOk
  rcases tolerance with _ | ⟨value⟩ | ⟨lower, upper⟩ | ⟨pattern⟩
  · simp [validateTolerance]
  · simp [validateTolerance]
  · cases h : lower.gt upper <;> simp [validateTolerance, h]
  · cases h : compiles pattern <;> simp [validateTolerance, h]

/-- A sequence of checks passes when both parts do. -/
theorem check_bind_ok {ε : Type} {x : Except ε Unit} {f : Unit → Except ε Unit} (h : (x >>= f) = .ok ()) :
    x = .ok () ∧ f () = .ok () := by
  cases x with
  | error e => cases h
  | ok u => exact ⟨rfl, h⟩

/-- A refusal that was passed did not apply. -/
theorem refusal_passed {ε : Type} {c : Prop} [Decidable c] {e : ε} {f : Unit → Except ε Unit}
    (h : (if c then (Except.error e : Except ε Unit) >>= f else f ()) = .ok ()) : f () = .ok () := by
  split_ifs at h
  · cases (check_bind_ok h).1
  · exact h

theorem validateGuard_ok {compiles : String → Bool} {g : Guard} (h : validateGuard compiles g = .ok ()) :
    ToleranceOk compiles g.probe.tolerance := by
  unfold validateGuard at h
  split_ifs at h
  exact (validateTolerance_ok_iff _ _ _).mp h

theorem validateActivity_ok {compiles : String → Bool} {a : Activity} (h : validateActivity compiles Text.isWhitespace a = .ok ()) :
    ToleranceOk compiles a.tolerance ∧ a.provider.NamesOk := by
  obtain ⟨htolerance, hprovider⟩ := check_bind_ok h
  refine ⟨(validateTolerance_ok_iff _ _ _).mp htolerance, ?_⟩
  intro plugin function arguments timeoutS heq
  rw [heq] at hprovider
  obtain ⟨hplugin, hfunction⟩ := check_bind_ok hprovider
  exact ⟨(validateScriptName_ok_iff _ _ _).mp hplugin, (validateScriptName_ok_iff _ _ _).mp hfunction⟩

/-- An accepted experiment has well-formed tolerances everywhere, up to bounds that are not numbers, and well-formed names
everywhere but in its guards. -/
theorem validateExperiment_ok {compiles : String → Bool} {experiment : Experiment}
    (h : validateExperiment compiles Text.isWhitespace experiment = .ok ()) :
    (∀ g ∈ experiment.guards, ToleranceOk compiles g.probe.tolerance) ∧
      ∀ a ∈ experiment.method ++ experiment.rollbacks ++ (experiment.steadyStateHypothesis.map (·.probes)).getD [],
        ToleranceOk compiles a.tolerance ∧ a.provider.NamesOk := by
  unfold validateExperiment at h
  dsimp only at h
  have hrest := refusal_passed (refusal_passed (refusal_passed h))
  have hchecks : (do
      experiment.guards.forM (validateGuard compiles)
      (experiment.method ++ experiment.rollbacks ++ (experiment.steadyStateHypothesis.map Hypothesis.probes).getD []).forM
        (validateActivity compiles Text.isWhitespace)) = .ok () := by
    cases hhypothesis : experiment.steadyStateHypothesis with
    | none =>
      rw [hhypothesis] at hrest
      exact (check_bind_ok hrest).2
    | some hypothesis =>
      rw [hhypothesis] at hrest
      exact refusal_passed hrest
  obtain ⟨hguards, hactivities⟩ := check_bind_ok hchecks
  exact ⟨fun g hg => validateGuard_ok (Checks.forM_ok hguards g hg), fun a ha => validateActivity_ok (Checks.forM_ok hactivities a ha)⟩

theorem mem_activities {experiment : Experiment} {a : Activity} : a ∈ experiment.activities ↔
    a ∈ experiment.method ++ experiment.rollbacks ++ (experiment.steadyStateHypothesis.map (·.probes)).getD [] ∨
      ∃ g ∈ experiment.guards, g.probe = a := by
  simp [Experiment.activities, or_assoc]

theorem F64.le_iff (x y : F64) : x.le y = true ↔ (x ≠ .nan ∧ y ≠ .nan) ∧ x.gt y = false := by
  simp [F64.le]

/-- What the validation accepts is well formed, and stays so whatever runs, exactly when the guard probes' names are well formed and
every bound is a number. -/
theorem validation_covers_iff (compiles : String → Bool) (experiment : Experiment)
    (h : validateExperiment compiles Text.isWhitespace experiment = .ok ()) : experiment.Covered compiles ↔ experiment.LeftOut := by
  obtain ⟨hguards, hactivities⟩ := validateExperiment_ok h
  have htolerance : ∀ a ∈ experiment.activities, ToleranceOk compiles a.tolerance := by
    intro a ha
    rcases mem_activities.mp ha with ha | ⟨g, hg, rfl⟩
    · exact (hactivities a ha).1
    · exact hguards g hg
  constructor
  · intro hcovered
    refine ⟨fun g hg => (hcovered.declared _ (mem_activities_of_guard hg)).names, fun a ha lower upper hrange => ?_⟩
    exact ((F64.le_iff lower upper).mp ((hcovered.declared a ha).range lower upper hrange)).1
  · intro hleft
    have hdeclared : ∀ a ∈ experiment.activities, a.WellFormed compiles := by
      intro a ha
      refine ⟨?_, (htolerance a ha).1, fun lower upper hrange => ?_⟩
      · rcases mem_activities.mp ha with ha | ⟨g, hg, rfl⟩
        · exact (hactivities a ha).2
        · exact hleft.guardNames g hg
      · exact (F64.le_iff lower upper).mpr ⟨hleft.bounds a ha lower upper hrange, (htolerance a ha).2 lower upper hrange⟩
    refine ⟨hdeclared, fun Γ executor controls config site a answer hcalled => hdeclared a ?_⟩
    have hands : Always (Entry.Hands experiment.activities) (runExperiment Γ executor controls experiment config) :=
      runExperiment_hands
    exact hands.trace _ hcalled

/-- An experiment whose guard calls a script with the plugin name given. -/
def guardedBy (plugin : String) : Experiment where
  title := "latency under guard"
  guards := [⟨"error rate", ⟨"error-rate", .probe, .script plugin "error_rate" [] none,
    some (.range (.finite 0) (.finite 1)), none, none, false⟩, 1⟩]
  method := [nativeAction "inject-latency"]

theorem validation_covers_guarded : (guardedBy "tumult-metrics").Covered (fun _ => true) ↔ (guardedBy "tumult-metrics").LeftOut :=
  validation_covers_iff _ _ (by decide)

/-- A guard probe may name a plugin outside the search paths: the validation accepts it, and the run hands it to the executor. -/
theorem validation_covers_false :
    validateExperiment (fun _ => true) Text.isWhitespace (guardedBy "../../tmp/evil") = .ok () ∧
      (∃ site answer, ∃ a, .called site a answer ∈
        (runExperiment stillCtx succeedingExecutor ⟨[]⟩ (guardedBy "../../tmp/evil") {}).trace ∧
          a.provider = .script "../../tmp/evil" "error_rate" [] none) ∧
      ¬ (guardedBy "../../tmp/evil").Covered (fun _ => true) := by
  refine ⟨by decide, ⟨.guard 0 0, .returned ⟨true, none, none, 1⟩, ⟨"error-rate", .probe,
    .script "../../tmp/evil" "error_rate" [] none, some (.range (.finite 0) (.finite 1)), none, none, false⟩, ?_, rfl⟩, fun hcovered => ?_⟩
  · exact List.mem_of_getElem? (i := 0) rfl
  · have hnames := (hcovered.declared _ (mem_activities_of_guard List.mem_cons_self)).names _ _ _ _ rfl
    exact absurd hnames.1.slash (by decide)

end Tumult
