import Tumult.Runner.Records

/-!
# The steps behind a journal

A journal keeps the results of the method's steps, under the names of their activities alone. Here are the steps themselves, each
with the activity it executed: what the method declares, what was handed to a provider, and what the journal says of them.
-/

namespace Tumult

open Traced

variable {Γ : RunnerCtx} {executor : ActivityExecutor} {controls : ControlRegistry} {experiment : Experiment} {config : RunConfig}

/-- The steps the method of a run executes, with their results. -/
def executedSteps (Γ : RunnerCtx) (executor : ActivityExecutor) (controls : ControlRegistry) (experiment : Experiment)
    (config : RunConfig) : List Executed :=
  (guardMonitor Γ executor experiment).outcome.elim (fun halt =>
    (executeActivities Γ executor controls experiment.method (some (methodToken Γ config halt.isSome))
      (config.maxConcurrentFaults.or experiment.maxConcurrentFaults)).outcome.elim (·.1) fun _ => []) fun _ => []

/-- The steps behind the results of a run's journal; a run that was over before its method has none. -/
def journalSteps (Γ : RunnerCtx) (executor : ActivityExecutor) (controls : ControlRegistry) (experiment : Experiment)
    (config : RunConfig) (journal : Journal) : List Executed :=
  if journal.methodResults = [] then [] else executedSteps Γ executor controls experiment config

/-- The action is handed to its provider by the method. -/
def Dispatched (trace : List Entry) (activity : Activity) : Prop :=
  activity.activityType = .action ∧ ∃ site answer, site.isMethod = true ∧ .called site activity answer ∈ trace

/-- The step's action failed or timed out, as the journal says. -/
def Executed.Failing (x : Executed) : Prop :=
  x.activity.activityType = .action ∧ (x.result.status = .failed ∨ x.result.status = .timeout)

instance (x : Executed) : Decidable x.Failing := by unfold Executed.Failing; infer_instance

/-- What is known of the steps behind a journal. -/
structure StepsBehind (experiment : Experiment) (trace : List Entry) (journal : Journal) (steps : List Executed) : Prop where
  results : steps.map (·.result) = journal.methodResults
  named : ∀ x ∈ steps, x.result.name = x.activity.name ∧ x.result.activityType = x.activity.activityType
  declared : ∀ x ∈ steps, x.activity ∈ experiment.method
  dispatched : ∀ activity, Dispatched trace activity → ∃ x ∈ steps, x.activity = activity
  failing : (∃ x ∈ steps, x.Failing) → journal.status ≠ .completed
  halted : journal.halt.isSome → journal.status ≠ .completed

/-! ## Where the steps come from -/

/-- Every step executes an activity of the list. -/
theorem executeActivities_declared {activities : List Activity} {token : Option CancellationToken} {cap : Option Nat} :
    Yields (executeActivities Γ executor controls activities token cap) fun p => ∀ x ∈ p.1, x.activity ∈ activities := by
  unfold executeActivities partitionBackground
  refine Yields.bind (Yields.forEach (Q := fun o => ∀ x ∈ o, x.activity ∈ activities) _ (fun i a ha => ?_) 0) fun joined hjoined => ?_
  · refine Yields.after fun o => Yields.pure ?_
    have hmem : a ∈ activities := (List.mem_filter.mp ha).1
    rintro x hx
    cases o with
    | returned result =>
      cases result with
      | none => cases hx
      | some result =>
        cases hx
        exact hmem
    | unwound m =>
      cases hx
      exact hmem
  · refine Yields.bind (Yields.whileSome (Q := fun x => x.activity ∈ activities) _ (fun i a ha => ?_) 0) fun sequential hsequential => ?_
    · refine Yields.after fun result => Yields.pure ?_
      have hmem : a ∈ activities := (List.mem_filter.mp ha).1
      rintro x hx
      cases result with
      | none => cases hx
      | some result =>
        cases hx
        exact hmem
    · refine Yields.pure fun x hx => ?_
      rcases List.mem_append.mp hx with hx | hx
      · exact hsequential x hx
      · obtain ⟨o, ho, hx⟩ := List.mem_filterMap.mp hx
        exact hjoined o ho x hx

/-- The method's outcome holds the executed steps. -/
theorem methodPhase_steps {before : Option HypothesisResult} {handle : Option LoadHandle} {m : MethodOutcome}
    {halt : Option HaltRecord}
    (h : (methodPhase Γ executor controls experiment config before handle).outcome = .returned (m, halt)) :
    m.executed = executedSteps Γ executor controls experiment config ∧ ∀ x ∈ m.executed, x.activity ∈ experiment.method := by
  unfold methodPhase at h
  obtain ⟨_, _, h, -⟩ := bind_returned h
  obtain ⟨during, _, h, -⟩ := bind_returned h
  obtain ⟨halt', hguards, h, -⟩ := bind_returned h
  obtain ⟨⟨executed, peak⟩, hexecuted, h, -⟩ := bind_returned h
  obtain ⟨_, _, h, -⟩ := bind_returned h
  cases h
  refine ⟨?_, executeActivities_declared _ hexecuted⟩
  unfold executedSteps
  rw [hguards, Outcome.elim_returned, hexecuted, Outcome.elim_returned]

/-! ## What the journal says of them -/

section Ends

variable {m : MethodOutcome}

/-- The journal of the method's results, completed only when they are successes, and halted when there is a record of a halt. -/
structure EndsWith (m : MethodOutcome) (journal : Journal) : Prop where
  results : journal.methodResults = m.methodResults
  completed : journal.status = .completed → allSucceeded m.methodResults = true
  halted : journal.halt.isSome → journal.status ≠ .completed

theorem endRegular_endsWith : Yields (endRegular Γ executor controls experiment config m) (EndsWith m) := by
  refine Yields.after fun post => Yields.after fun load => Yields.after fun after => Yields.after fun interrupted => ?_
  refine Yields.after fun results => Yields.after fun late => Yields.after fun _ => Yields.pure ⟨rfl, fun h => ?_, by rintro ⟨⟩⟩
  dsimp only at h
  cases late with
  | true => cases h
  | false => exact (decideStatus_completed.mp h).2.2.1

theorem endRun_endsWith (halt : Option HaltRecord) : Yields (endRun Γ executor controls experiment config m halt) (EndsWith m) := by
  unfold endRun
  cases halt with
  | some halt =>
    refine Yields.after fun load => Yields.after fun results => Yields.after fun _ => Yields.pure ⟨rfl, by rintro ⟨⟩, ?_⟩
    rintro - ⟨⟩
  | none =>
    refine Yields.after fun interrupted => ?_
    cases interrupted with
    | true => exact Yields.after fun load => Yields.after fun results => Yields.after fun _ => Yields.pure ⟨rfl, by rintro ⟨⟩, by rintro ⟨⟩⟩
    | false => exact endRegular_endsWith

end Ends

theorem Dispatched.actionDispatched {trace : List Entry} {activity : Activity} (h : Dispatched trace activity) :
    ActionDispatched trace := by
  obtain ⟨haction, site, answer, hsite, he⟩ := h
  exact ⟨_, he, by simp [Entry.dispatchesAction, hsite, haction]⟩

/-- A step handed to a provider is handed to it by the method. -/
theorem mem_method_of_stage {w : List Entry} {stage : Stage} (h : ∀ e ∈ w, e.OfStage stage) (hstage : stage ≠ .method) {site : Site}
    (hsite : site.isMethod = true) {activity : Activity} {answer : Outcome ActivityOutcome} : .called site activity answer ∉ w := by
  intro he
  have hplace := h _ he (.site site) rfl
  cases site <;> simp_all [Site.isMethod, Place.stage]

/-- The steps behind the journal of a run. -/
theorem journalSteps_behind {journal : Journal}
    (h : (runExperiment Γ executor controls experiment config).outcome = .returned (.ok journal)) :
    StepsBehind experiment (runExperiment Γ executor controls experiment config).trace journal
      (journalSteps Γ executor controls experiment config journal) := by
  rcases @runExperiment_goesLive Γ executor controls experiment config with ⟨hlive, hr⟩ | ⟨v, before, handle, hstart, htrace, ho⟩
  · obtain ⟨hresults, hhalt⟩ := hr _ h journal rfl
    have hsteps : journalSteps Γ executor controls experiment config journal = [] := if_pos hresults
    rw [hsteps]
    exact
      { results := hresults.symm
        named := by simp
        declared := by simp
        dispatched := fun activity hd => absurd (.inl hd.actionDispatched) hlive
        failing := by simp
        halted := by simp [hhalt] }
  · rw [ho] at h
    cases hout : (liveRun Γ executor controls experiment config before handle).outcome with
    | unwound message =>
      rw [hout] at h
      cases h
    | returned journal' =>
      rw [hout] at h
      cases h
      unfold liveRun at hout htrace
      obtain ⟨⟨m, halt⟩, hm, hend, hsplit⟩ := bind_returned hout
      obtain ⟨-, -, hrecorded⟩ := methodPhase_records hm
      obtain ⟨hexecuted, hdeclared⟩ := methodPhase_steps hm
      obtain ⟨hresults, hcompleted, hhalted⟩ := endRun_endsWith halt _ hend
      have hsteps : journalSteps Γ executor controls experiment config journal = m.executed := by
        unfold journalSteps
        split
        · next hnil =>
          rw [hresults] at hnil
          exact (List.map_eq_nil_iff.mp hnil).symm
        · exact hexecuted.symm
      rw [hsteps, htrace, hsplit]
      refine ⟨hresults.symm, hrecorded.result, hdeclared, ?_, ?_, hhalted⟩
      · rintro activity ⟨-, site, answer, hsite, he⟩
        rcases List.mem_append.mp he with he | he
        · exact absurd he (mem_method_of_stage (fun e he => (hstart.early e he).1) (by decide) hsite)
        · rcases List.mem_append.mp he with he | he
          · exact hrecorded.dispatched site activity answer he hsite
          · exact absurd he (mem_method_of_stage (fun e he => ((endRun_within halt).trace e he).2) (by decide) hsite)
      · rintro ⟨x, hx, -, hfailed⟩ hstatus
        have hall := hcompleted hstatus
        simp only [allSucceeded, Bool.and_eq_true, List.all_eq_true, decide_eq_true_eq] at hall
        have hsucceeded := hall.2 x.result (List.mem_map_of_mem hx)
        rcases hfailed with hfailed | hfailed <;> rw [hfailed] at hsucceeded <;> cases hsucceeded

end Tumult
