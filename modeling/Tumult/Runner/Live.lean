import Tumult.Runner.Footprint

/-!
# Live runs

Once an action of the method was dispatched or the load test is running, the run is live: what is left of it is the method and an
end (`runExperiment_live`).
-/

namespace Tumult

open Traced

/-- An action of the method is handed to its provider. -/
def Entry.dispatchesAction : Entry → Bool
  | .called site activity _ => site.isMethod && activity.activityType = .action
  | _ => false

def ActionDispatched (trace : List Entry) : Prop := ∃ e ∈ trace, e.dispatchesAction = true

/-- The load test is started and runs. -/
def LoadRunning (trace : List Entry) : Prop := ∃ handle, .loadStarted (.returned (.ok handle)) ∈ trace

/-- A fault or the load may be live. -/
def Live (trace : List Entry) : Prop := ActionDispatched trace ∨ LoadRunning trace

def Entry.rollbackCall? : Entry → Option Activity
  | .called (.rollback _) activity _ => some activity
  | _ => none

/-- The rollbacks handed to a provider, in order. -/
def rollbackCalls (trace : List Entry) : List Activity := trace.filterMap Entry.rollbackCall?

/-- The answer lets a run complete: a method step succeeds and is not cancelled at its dispatch, a pause can be waited, a probe of
the hypothesis after the method is within its tolerance, the load result is there, the token has not fired when the status is
decided. -/
def Entry.sound (Γ : RunnerCtx) : Entry → Bool
  | .called (.foreground _) _ answer | .called (.background _) _ answer =>
    match answer with
    | .returned outcome => outcome.success
    | .unwound _ => false
  | .called (.hypothesis .after _) probe answer =>
    match answer with
    | .returned outcome => probeOutcomeOk Γ probe outcome.success outcome.output
    | .unwound _ => false
  | .read (.dispatch _) cancelled | .read .status cancelled => !cancelled
  | .paused _ _ seconds => seconds.fitsDuration
  | .loadStopped answer =>
    match answer with
    | .returned (.ok _) => true
    | _ => false
  | _ => true

variable {Γ : RunnerCtx} {executor : ActivityExecutor} {controls : ControlRegistry} {experiment : Experiment} {config : RunConfig}

/-! ## Live runs -/

/-- The method and the end of a run. -/
def liveRun (Γ : RunnerCtx) (executor : ActivityExecutor) (controls : ControlRegistry) (experiment : Experiment) (config : RunConfig)
    (before : Option HypothesisResult) (handle : Option LoadHandle) : Traced Entry Journal := do
  let (m, halt) ← methodPhase Γ executor controls experiment config before handle
  endRun Γ executor controls experiment config m halt

/-- An entry of the part of a run before its method. -/
def Entry.Early (Γ : RunnerCtx) (e : Entry) : Prop := e.OfStage .before ∧ e.sound Γ = true

/-- An early entry that does not say that the load test runs. -/
def Entry.Calm (Γ : RunnerCtx) (e : Entry) : Prop := e.Early Γ ∧ ∀ handle, e ≠ .loadStarted (.returned (.ok handle))

theorem not_dispatched_of_early {w : List Entry} (h : ∀ e ∈ w, e.OfStage .before) : ¬ ActionDispatched w := by
  rintro ⟨e, he, hd⟩
  cases e with
  | called site activity answer =>
    have hstage := h _ he (.site site) rfl
    cases site <;> simp_all [Entry.dispatchesAction, Site.isMethod, Place.stage]
  | _ => cases hd

theorem not_live_of_calm {w : List Entry} (h : All (Entry.Calm Γ) w) : ¬ Live w := by
  rintro (hd | ⟨handle, he⟩)
  · exact not_dispatched_of_early (fun e he => (h e he).1.1) hd
  · exact (h _ he).2 handle rfl

theorem live_append {v w : List Entry} (hv : All (Entry.Calm Γ) v) (h : Live (v ++ w)) : Live w := by
  rcases h with ⟨e, he, hd⟩ | ⟨handle, he⟩
  · rcases List.mem_append.mp he with he | he
    · exact absurd (.inl ⟨e, he, hd⟩) (not_live_of_calm hv)
    · exact .inl ⟨e, he, hd⟩
  · rcases List.mem_append.mp he with he | he
    · exact absurd (.inr ⟨handle, he⟩) (not_live_of_calm hv)
    · exact .inr ⟨handle, he⟩

/-- How a live run came to its method. -/
structure Start (Γ : RunnerCtx) (experiment : Experiment) (config : RunConfig) (v : List Entry)
    (before : Option HypothesisResult) (handle : Option LoadHandle) : Prop where
  early : ∀ e ∈ v, e.Early Γ
  met : before.map (·.met) ≠ some false
  running : ∀ h, .loadStarted (.returned (.ok h)) ∈ v → handle = some h
  executor : handle.isSome → config.loadExecutor.isSome
  load : handle.isSome = experiment.load.isSome

/-- A journal without results of a method and without a halt, if any. -/
abbrev Resultless (r : Except RunnerError Journal) : Prop :=
  ∀ journal, r = .ok journal → journal.methodResults = [] ∧ journal.halt = none

/-- The run is not live and its journal has no results, or it is its early part and then the live run. -/
def GoesLive (Γ : RunnerCtx) (executor : ActivityExecutor) (controls : ControlRegistry) (experiment : Experiment) (config : RunConfig)
    (w : List Entry) (o : Outcome (Except RunnerError Journal)) : Prop :=
  (¬ Live w ∧ ∀ r, o = .returned r → Resultless r) ∨ ∃ v before handle, Start Γ experiment config v before handle ∧
    w = v ++ (liveRun Γ executor controls experiment config before handle).trace ∧
    o = mapOutcome .ok (liveRun Γ executor controls experiment config before handle).outcome

section GoesLive

variable {α : Type} {f : α → Traced Entry (Except RunnerError Journal)}

theorem GoesLive.calm {x : Traced Entry (Except RunnerError Journal)} (h : Always (Entry.Calm Γ) x) (hx : Yields x Resultless) :
    Ensures x (GoesLive Γ executor controls experiment config) := .inl ⟨not_live_of_calm h.trace, hx⟩

/-- A calm part before. -/
theorem GoesLive.bind {x : Traced Entry α} (hx : Always (Entry.Calm Γ) x)
    (hf : ∀ a, Ensures (f a) (GoesLive Γ executor controls experiment config)) :
    Ensures (x >>= f) (GoesLive Γ executor controls experiment config) := by
  refine Ensures.bind (Q := fun w _ => All (Entry.Calm Γ) w) hx.trace (fun v a hv => ?_) fun v m hv =>
    .inl ⟨not_live_of_calm hv, by rintro r ⟨⟩⟩
  rcases hf a with ⟨hn, hr⟩ | ⟨u, before, handle, hstart, hw, ho⟩
  · exact .inl ⟨fun h => hn (live_append hv h), hr⟩
  · refine .inr ⟨v ++ u, before, handle, ?_, by rw [hw, List.append_assoc], ho⟩
    refine { hstart with early := ?_, running := ?_ }
    · exact fun e he => (List.mem_append.mp he).elim (fun he => (hv e he).1) (hstart.early e)
    · intro h he
      rcases List.mem_append.mp he with he | he
      · exact absurd rfl ((hv _ he).2 h)
      · exact hstart.running h he

end GoesLive

theorem emit_calm (event : LifecycleEvent) : Always (Entry.Calm Γ) (controls.emit .main event) := by
  refine Always.bind (Always.forEach _ (fun h handler _ => ?_) 0) fun _ => Always.pure _
  exact Always.bind (Always.log ⟨⟨by rintro p ⟨⟩, rfl⟩, by rintro h ⟨⟩⟩) fun _ => Always.catchUnwind (Always.settle _)

theorem isCancelled_calm (token : Option CancellationToken) {moment : Moment} (hstage : moment.place.stage = .before)
    (hsound : ∀ b, (Entry.read moment b).sound Γ = true) : Always (Entry.Calm Γ) (isCancelled token moment) := by
  cases token with
  | none => exact Always.pure _
  | some token =>
    exact Always.bind (Always.log ⟨⟨by rintro p ⟨⟩; exact hstage, hsound _⟩, by rintro h ⟨⟩⟩) fun _ => Always.pure _

theorem executeSingleActivity_calm (i : Nat) (probe : Activity) :
    Always (Entry.Calm Γ) (executeSingleActivity Γ executor controls (.hypothesis .before i) probe none) :=
  executeSingleActivity_always (fun _ _ => ⟨⟨by rintro p ⟨⟩, rfl⟩, by rintro h ⟨⟩⟩) none (fun h => absurd rfl h)
    fun _ => ⟨⟨by rintro p ⟨⟩; rfl, rfl⟩, by rintro h ⟨⟩⟩

theorem evaluateHypothesis_calm (hypothesis : Hypothesis) :
    Always (Entry.Calm Γ) (evaluateHypothesis Γ executor controls .before hypothesis) := by
  refine Always.bind (Always.forEach _ (fun i probe _ => ?_) 0) fun _ => Always.pure _
  exact Always.bind (executeSingleActivity_calm i probe) fun _ => Always.pure _

theorem runHypothesisPhase_calm : Always (Entry.Calm Γ) (runHypothesisPhase Γ executor controls .before experiment) := by
  unfold runHypothesisPhase
  split
  · exact Always.pure _
  · refine Always.bind (emit_calm _) fun _ => Always.bind (evaluateHypothesis_calm _) fun _ => ?_
    exact Always.bind (emit_calm _) fun _ => Always.pure _

theorem runProbeOnly_calm : Always (Entry.Calm Γ) (runProbeOnly Γ executor experiment config) := by
  unfold runProbeOnly
  split
  · exact Always.pure _
  · refine Always.bind (isCancelled_calm _ rfl fun _ => rfl) fun cancelled => ?_
    cases cancelled with
    | true => exact Always.pure _
    | false =>
      refine Always.bind (evaluateHypothesis_calm _) fun _ => ?_
      exact Always.bind (isCancelled_calm _ rfl fun _ => rfl) fun _ => Always.pure _

theorem not_live_of_ending {w : List Entry} (h : All (Entry.OnMain .ending) w) : ¬ Live w := by
  rintro (⟨e, he, hd⟩ | ⟨handle, he⟩)
  · cases e with
    | called site activity answer =>
      have hstage := (h _ he).2 (.site site) rfl
      cases site <;> simp_all [Entry.dispatchesAction, Site.isMethod, Place.stage]
    | _ => cases hd
  · exact absurd ((h _ he).2 .loadStart rfl) (by decide)

/-- The load test runs or is not declared, or the run is over. -/
theorem startLoad_cases (hload : ¬ (experiment.load.isSome && config.loadExecutor.isNone) = true) :
    (∃ handle, (startLoad experiment config).outcome = .returned (.ok handle) ∧
      ∀ before : Option HypothesisResult, before.map (·.met) ≠ some false →
        Start Γ experiment config (startLoad experiment config).trace before handle) ∨
    ((∀ handle, (startLoad experiment config).outcome ≠ .returned (.ok handle)) ∧ ¬ Live (startLoad experiment config).trace) := by
  have hquiet : ∀ answer, (∀ handle, answer ≠ .returned (.ok handle)) → ¬ Live [.loadStarted answer] := by
    rintro answer hanswer (⟨e, he, hd⟩ | ⟨handle, he⟩)
    · obtain rfl := List.mem_singleton.mp he
      cases hd
    · exact hanswer handle (Entry.loadStarted.inj (List.mem_singleton.mp he)).symm
  cases hconfig : experiment.load with
  | none =>
    have hpure : startLoad experiment config = pure (.ok none) := by simp only [startLoad, hconfig]
    rw [hpure]
    refine .inl ⟨none, rfl, fun before hmet => ⟨by simp, hmet, by simp, by simp, by simp [hconfig]⟩⟩
  | some loadConfig =>
    cases hexecutor : config.loadExecutor with
    | none => simp [hconfig, hexecutor] at hload
    | some loadExecutor =>
      cases ho : loadExecutor.start loadConfig with
      | returned r =>
        cases r with
        | ok handle =>
          have hstart : startLoad experiment config = ⟨[.loadStarted (.returned (.ok handle))], .returned (.ok (some handle))⟩ := by
            simp only [startLoad, hconfig, hexecutor, ho]
            rfl
          rw [hstart]
          refine .inl ⟨some handle, rfl, fun before hmet => ⟨?_, hmet, ?_, by simp [hexecutor], by simp [hconfig]⟩⟩
          · intro e he
            obtain rfl := List.mem_singleton.mp he
            exact ⟨by rintro p ⟨⟩; rfl, rfl⟩
          · intro h he
            cases List.mem_singleton.mp he
            rfl
        | error e =>
          have hstart : startLoad experiment config = ⟨[.loadStarted (.returned (.error e))], .returned (.error (.loadStart e))⟩ := by
            simp only [startLoad, hconfig, hexecutor, ho]
            rfl
          rw [hstart]
          exact .inr ⟨by rintro handle ⟨⟩, hquiet _ (by rintro handle ⟨⟩)⟩
      | unwound message =>
        have hstart : startLoad experiment config = ⟨[.loadStarted (.unwound message)], .unwound message⟩ := by
          simp only [startLoad, hconfig, hexecutor, ho]
          rfl
        rw [hstart]
        exact .inr ⟨by rintro handle ⟨⟩, hquiet _ (by rintro handle ⟨⟩)⟩

theorem runMethod_goesLive (hload : ¬ (experiment.load.isSome && config.loadExecutor.isNone) = true)
    {before : Option HypothesisResult} (hmet : before.map (·.met) ≠ some false) :
    Ensures (runMethod Γ executor controls experiment config before) (GoesLive Γ executor controls experiment config) := by
  unfold runMethod
  rcases @startLoad_cases Γ experiment config hload with ⟨handle, ho, hstart⟩ | ⟨hno, hquiet⟩
  · rw [bind_of_returned ho]
    have hlive : (methodPhase Γ executor controls experiment config before handle >>= fun p =>
        (Except.ok : Journal → Except RunnerError Journal) <$> endRun Γ executor controls experiment config p.1 p.2) =
        ⟨(liveRun Γ executor controls experiment config before handle).trace,
          mapOutcome .ok (liveRun Γ executor controls experiment config before handle).outcome⟩ := bind_map _ _ _
    refine .inr ⟨_, before, handle, hstart before hmet, ?_, ?_⟩
    · exact congrArg (_ ++ ·) (congrArg Traced.trace hlive)
    · exact congrArg Traced.outcome hlive
  · cases ho : (startLoad experiment config).outcome with
    | returned r =>
      cases r with
      | ok handle => exact absurd ho (hno handle)
      | error e =>
        rw [bind_of_returned ho]
        exact .inl ⟨by simpa using hquiet, by rintro r ⟨⟩ journal ⟨⟩⟩
    | unwound m =>
      rw [bind_of_unwound ho]
      exact .inl ⟨hquiet, by rintro r ⟨⟩⟩

theorem runProbeOnly_resultless : Yields (runProbeOnly Γ executor experiment config) Resultless := by
  unfold runProbeOnly
  split
  · exact Yields.pure (by rintro journal ⟨⟩)
  · refine Yields.after fun cancelled => ?_
    cases cancelled with
    | true => exact Yields.pure (by rintro journal ⟨⟩; exact ⟨rfl, rfl⟩)
    | false => exact Yields.after fun _ => Yields.after fun _ => Yields.pure (by rintro journal ⟨⟩; exact ⟨rfl, rfl⟩)

theorem endAborted_resultless (before : Option HypothesisResult) :
    Yields ((Except.ok : Journal → Except RunnerError Journal) <$> endAborted Γ executor controls experiment config before)
      Resultless := by
  have haborted : Yields (endAborted Γ executor controls experiment config before) fun journal =>
      journal.methodResults = [] ∧ journal.halt = none := Yields.after fun _ => Yields.after fun _ => Yields.pure ⟨rfl, rfl⟩
  refine Yields.bind haborted fun journal hjournal => Yields.pure ?_
  rintro journal' ⟨⟩
  exact hjournal

/-- Every run is one that is over before its method or one that goes live. -/
theorem runExperiment_goesLive :
    Ensures (runExperiment Γ executor controls experiment config) (GoesLive Γ executor controls experiment config) := by
  unfold runExperiment
  split
  · exact GoesLive.calm runProbeOnly_calm runProbeOnly_resultless
  · split
    · exact GoesLive.calm (Always.pure _) (Yields.pure (by rintro journal ⟨⟩))
    · split
      · exact GoesLive.calm (Always.pure _) (Yields.pure (by rintro journal ⟨⟩))
      · next hload _ =>
        refine GoesLive.bind (isCancelled_calm _ rfl fun _ => rfl) fun cancelled => ?_
        cases cancelled with
        | true => exact GoesLive.calm (Always.pure _) (Yields.pure (by rintro journal ⟨⟩; exact ⟨rfl, rfl⟩))
        | false =>
          refine GoesLive.bind (emit_calm _) fun _ => GoesLive.bind runHypothesisPhase_calm fun before => ?_
          dsimp only
          split
          · exact .inl ⟨not_live_of_ending (Keeps.andPure _ (endAborted_within before)).trace, endAborted_resultless before⟩
          · next hmet =>
            refine GoesLive.bind (isCancelled_calm _ rfl fun _ => rfl) fun cancelled => ?_
            cases cancelled with
            | true =>
              refine GoesLive.calm (Always.bind (emit_calm _) fun _ => Always.pure _) ?_
              exact Yields.after fun _ => Yields.pure (by rintro journal ⟨⟩; exact ⟨rfl, rfl⟩)
            | false => exact runMethod_goesLive hload hmet

theorem runExperiment_live (h : Live (runExperiment Γ executor controls experiment config).trace) :
    ∃ v before handle, Start Γ experiment config v before handle ∧
      (runExperiment Γ executor controls experiment config).trace =
        v ++ (liveRun Γ executor controls experiment config before handle).trace ∧
      (runExperiment Γ executor controls experiment config).outcome =
        mapOutcome .ok (liveRun Γ executor controls experiment config before handle).outcome :=
  runExperiment_goesLive.resolve_left fun hn => hn.1 h

end Tumult
