import Tumult.Theorems.Cleanup

/-!
# Containment

What unwinds out of a live run is one of four kinds of call. A run in which none of them panics returns a journal, with the load
stopped and, unless it was stopped late, with the rollbacks its strategy requires.
-/

namespace Tumult

open Traced

/-- A panic that nothing contains: of a probe sampled after the method, of a probe of the hypothesis after the method, of stopping
the load, or of a sequential step's pause that no duration can hold. -/
def Entry.escapes : Entry → Bool
  | .called (.post _ _) _ (.unwound _) | .called (.hypothesis .after _) _ (.unwound _) => true
  | .loadStopped (.unwound _) => true
  | .paused _ (.foreground _) seconds => !seconds.fitsDuration
  | _ => false

/-- The strategy requires the rollbacks of a run with this journal. -/
def RollbackRequired (strategy : RollbackStrategy) (trace : List Entry) (journal : Journal) : Prop :=
  strategy = .always ∨
    strategy = .onDeviation ∧
      (journal.status = .deviated ∨ ActionDispatched trace ∧ journal.status ∈ [.failed, .interrupted, .halted])

/-- A run with a fault or the load live returns a journal, with the required rollbacks attempted and the load's stop called. -/
def Contained (experiment : Experiment) (config : RunConfig) (run : Traced Entry (Except RunnerError Journal)) : Prop :=
  Live run.trace → ∃ journal, run.outcome = .returned (.ok journal) ∧
    (RollbackRequired config.rollbackStrategy run.trace journal → RolledBack experiment run.trace journal) ∧
    (LoadRunning run.trace → ∃ answer, .loadStopped answer ∈ run.trace)

variable {Γ : RunnerCtx} {executor : ActivityExecutor} {controls : ControlRegistry} {experiment : Experiment} {config : RunConfig}

/-! ## What escapes -/

/-- The entry lets nothing escape. -/
def Entry.Spares (e : Entry) : Prop := e.escapes = false

def Escaped (w : List Entry) : Prop := ∃ e ∈ w, e.escapes = true

theorem spares_precedes_escaped : Precedes (All Entry.Spares) Escaped :=
  fun _ _ _ ⟨e, he, hescapes⟩ => ⟨e, List.mem_append_right _ he, hescapes⟩

theorem not_escaped_of_spares {w : List Entry} (h : All Entry.Spares w) : ¬ Escaped w := by
  rintro ⟨e, he, hescapes⟩
  rw [h e he] at hescapes
  cases hescapes

/-- A place something can escape from. -/
def Place.exposed : Place → Bool
  | .site (.post _ _) | .site (.hypothesis .after _) | .site (.foreground _) | .loadStop => true
  | _ => false

theorem Entry.spares_of_place {e : Entry} (h : ∀ p, e.place? = some p → p.exposed = false) : e.Spares := by
  cases e with
  | called site activity answer =>
    have hplace := h _ rfl
    unfold Entry.Spares Entry.escapes
    split <;> simp_all [Place.exposed]
  | paused phase site seconds =>
    have hplace := h _ rfl
    unfold Entry.Spares Entry.escapes
    split <;> simp_all [Place.exposed]
  | loadStopped answer => cases h _ rfl
  | _ => rfl

section Spares

variable {α β : Type} {m : MethodOutcome}

/-- A part of the run at places nothing can escape from. -/
theorem spares_of_within {x : Traced Entry α} {thread : Thread} (h : Always (Entry.Within thread fun p => p.exposed = false) x) :
    Always Entry.Spares x :=
  h.mono (All.mono fun _ he => Entry.spares_of_place he.2) (All.mono fun _ he => Entry.spares_of_place he.2)

/-- Part of a run out of which only an escape unwinds. -/
abbrev Contains (x : Traced Entry α) : Prop := Keeps (All Entry.Spares) Escaped x

theorem Contains.bind {x : Traced Entry α} {f : α → Traced Entry β} (hx : Contains x) (hf : ∀ a, Contains (f a)) :
    Contains (x >>= f) := Keeps.bind All.precedes spares_precedes_escaped hx hf

theorem Contains.pure (a : α) : Contains (Pure.pure a) := Keeps.pure .nil

theorem Contains.forEach {f : Nat → α → Traced Entry β} (as : List α) (hf : ∀ i, ∀ a ∈ as, Contains (f i a)) (i : Nat) :
    Contains (forEach f i as) := Keeps.forEach .nil All.precedes spares_precedes_escaped as hf i

theorem Contains.whileSome {f : Nat → α → Traced Entry (Option β)} (as : List α) (hf : ∀ i, ∀ a ∈ as, Contains (f i a)) (i : Nat) :
    Contains (whileSome f i as) := Keeps.whileSome .nil All.precedes spares_precedes_escaped as hf i

theorem emit_contains (thread : Thread) (event : LifecycleEvent) : Contains (controls.emit thread event) := by
  refine Contains.bind (Contains.forEach _ (fun h handler _ => ?_) 0) fun _ => Contains.pure _
  exact Contains.bind (Keeps.log (by simp [All, Entry.Spares, Entry.escapes])) fun _ => ⟨fun _ _ => .nil, by rintro m ⟨⟩⟩

theorem isCancelled_contains (token : Option CancellationToken) (moment : Moment) : Contains (isCancelled token moment) := by
  cases token with
  | none => exact Contains.pure _
  | some token => exact Contains.bind (Keeps.log (by simp [All, Entry.Spares, Entry.escapes])) fun _ => Contains.pure _

/-- A provider's panic is contained in the activity's result. -/
theorem executeForegroundActivity_contains {site : Site} {activity : Activity} (token : Option CancellationToken)
    (hsite : ∀ answer, (Entry.called site activity answer).escapes = false) :
    Contains (executeForegroundActivity Γ executor controls site activity token) :=
  Keeps.of_returns (executeForegroundActivity_always (p := Entry.Spares) (fun _ _ => rfl) token (fun _ _ => rfl) hsite)
    (executeForegroundActivity_returns token)

theorem call_contains {site : Site} {activity : Activity}
    (hpanics : ∀ m, (Entry.called site activity (.unwound m)).escapes = true) : Contains (executor.call site activity) := by
  rw [call_eq]
  constructor
  · intro outcome ho
    change executor.execute site activity = .returned outcome at ho
    intro e he
    rw [List.mem_singleton.mp he, ho]
    unfold Entry.Spares Entry.escapes
    split <;> simp_all
  · intro m ho
    change executor.execute site activity = .unwound m at ho
    exact ⟨_, List.mem_singleton_self _, by rw [ho]; exact hpanics m⟩

theorem pauseActivity_contains (i : Nat) (phase : Phase) (seconds : Option F64) (token : Option CancellationToken) :
    Contains (pauseActivity phase (.foreground i) seconds token) := by
  have hread : Contains (do
      let cancelled ← isCancelled token (.pause phase (.foreground i))
      pure !cancelled) := (isCancelled_contains _ _).andPure _
  unfold pauseActivity
  split
  · exact hread
  · next s _ =>
    cases hs : s.fitsDuration with
    | true => exact Contains.bind (Keeps.log (by simp [All, Entry.Spares, Entry.escapes, hs])) fun _ => hread
    | false => exact ⟨by rintro b ⟨⟩, fun m _ => ⟨_, List.mem_singleton_self _, by simp [Entry.escapes, hs]⟩⟩

theorem backgroundThread_spares (i : Nat) (activity : Activity) (cap : Option Nat) (token : Option CancellationToken) :
    Always Entry.Spares (backgroundThread Γ executor controls cap token i activity) := by
  have hread : ∀ moment, Always Entry.Spares (isCancelled token moment) := by
    intro moment
    cases token with
    | none => exact Always.pure _
    | some token => exact Always.bind (Always.log rfl) fun _ => Always.pure _
  have hpause : ∀ phase seconds, Always Entry.Spares (pauseActivity phase (.background i) seconds token) := by
    intro phase seconds
    unfold pauseActivity
    split
    · exact Always.bind (hread _) fun _ => Always.pure _
    · refine Always.bind (Always.log rfl) fun _ => ?_
      split
      · exact Always.bind (hread _) fun _ => Always.pure _
      · exact Always.unwind _
  refine Always.bind (Always.bind (hread _) fun _ => Always.pure _) fun permitted => ?_
  cases permitted with
  | false => exact Always.pure _
  | true =>
    refine Always.bind (hpause .before _) fun waited => ?_
    cases waited with
    | false => exact Always.pure _
    | true =>
      refine Always.bind (executeForegroundActivity_always (fun _ _ => rfl) token (fun _ _ => rfl) fun _ => rfl) fun _ => ?_
      exact Always.bind (hpause .after _) fun _ => Always.pure _

theorem executeActivities_contains (activities : List Activity) (token : Option CancellationToken) (cap : Option Nat) :
    Contains (executeActivities Γ executor controls activities token cap) := by
  refine Contains.bind (Contains.forEach _ (fun i a _ => ?_) 0) fun joined =>
    Keeps.andPure _ (Contains.whileSome _ (fun i a _ => Keeps.andPure _ ?_) 0)
  · exact Keeps.andPure _ (Keeps.catchUnwind (backgroundThread_spares i a cap token))
  · refine Contains.bind (pauseActivity_contains i .before _ token) fun waited => ?_
    cases waited with
    | false => exact Contains.pure _
    | true =>
      refine Contains.bind (executeForegroundActivity_contains token fun _ => rfl) fun _ => ?_
      exact Keeps.andPure _ (pauseActivity_contains i .after _ token)

/-- Only a pause escapes from the method. -/
theorem methodPhase_contains (before : Option HypothesisResult) (handle : Option LoadHandle) :
    Contains (methodPhase Γ executor controls experiment config before handle) := by
  have hsampler : Contains (duringSampler Γ executor experiment) :=
    (spares_of_within (duringSampler_within (fun _ _ => rfl) experiment)).of_returns (duringSampler_returns experiment)
  have hguards : Contains (guardMonitor Γ executor experiment) :=
    (spares_of_within (guardMonitor_within (fun _ _ => rfl) experiment)).of_returns (guardMonitor_returns experiment)
  refine Contains.bind (emit_contains _ _) fun _ => Contains.bind hsampler fun _ => Contains.bind hguards fun halt => ?_
  refine Contains.bind (executeActivities_contains _ _ _) fun _ => ?_
  exact Keeps.andPure _ (emit_contains _ _)

theorem runRollbacks_contains (strategy : RollbackStrategy) (needs : Bool) :
    Contains (runRollbacks Γ executor controls experiment strategy needs) :=
  (spares_of_within (runRollbacks_within (fun _ => rfl) experiment strategy needs)).of_returns (runRollbacks_returns _ _ _)

theorem stopLoad_contains (handle : Option LoadHandle) (loadExecutor : Option LoadExecutor) : Contains (stopLoad handle loadExecutor) := by
  unfold stopLoad
  split
  · next handle loadExecutor =>
    cases ho : loadExecutor.stop handle with
    | returned r =>
      refine Contains.bind (Keeps.log (by simp [All, Entry.Spares, Entry.escapes])) fun _ => ?_
      refine Contains.bind (Keeps.pure .nil : Contains (settle (.returned r))) fun r => ?_
      cases r <;> exact Contains.pure _
    | unwound message => exact ⟨by rintro a ⟨⟩, fun _ _ => ⟨_, List.mem_singleton_self _, rfl⟩⟩
  · exact Contains.pure _

theorem postSampling_contains (token : Option CancellationToken) : Contains (postSampling Γ executor experiment token) := by
  have hround : ∀ round hypothesis, Contains (sampleProbeRound Γ executor (.post round) hypothesis) := fun round hypothesis =>
    Keeps.andPure _ (Contains.forEach _ (fun i probe _ => Keeps.andPure _ (call_contains fun _ => rfl)) 0)
  have hcollect : ∀ hypothesis rounds round perProbe,
      Contains (collectPostSamples Γ executor hypothesis token rounds round perProbe) := by
    intro hypothesis rounds
    induction rounds with
    | zero =>
      intro round perProbe
      unfold collectPostSamples
      refine Contains.bind (hround round hypothesis) fun s => Contains.bind (isCancelled_contains token _) fun cancelled => ?_
      dsimp only
      split <;> exact Contains.pure _
    | succ rounds ih =>
      intro round perProbe
      unfold collectPostSamples
      refine Contains.bind (hround round hypothesis) fun s => Contains.bind (isCancelled_contains token _) fun cancelled => ?_
      dsimp only
      split
      · exact Contains.pure _
      · exact ih (round + 1) _
  unfold postSampling
  split
  · exact Contains.pure _
  · exact Keeps.andPure _ (hcollect _ _ 0 [])

theorem hypothesisAfterPhase_contains : Contains (hypothesisAfterPhase Γ executor controls experiment config) := by
  have hprobe : ∀ i probe, Contains (executeSingleActivity Γ executor controls (.hypothesis .after i) probe none) := by
    intro i probe
    refine Contains.bind (emit_contains _ _) fun _ => Contains.bind (isCancelled_contains none _) fun cancelled => ?_
    cases cancelled with
    | true => exact Contains.pure _
    | false => exact Contains.bind (call_contains fun _ => rfl) fun _ => Keeps.andPure _ (emit_contains _ _)
  refine Contains.bind (isCancelled_contains _ _) fun skip => ?_
  cases skip with
  | true => exact Contains.pure _
  | false =>
    simp only [Bool.false_eq_true, if_false]
    unfold runHypothesisPhase
    split
    · exact Contains.pure _
    · refine Contains.bind (emit_contains _ _) fun _ => Contains.bind ?_ fun _ => Keeps.andPure _ (emit_contains _ _)
      exact Keeps.andPure _ (Contains.forEach _ (fun i probe _ => Keeps.andPure _ (hprobe i probe)) 0)

theorem endRun_contains (halt : Option HaltRecord) : Contains (endRun Γ executor controls experiment config m halt) := by
  unfold endRun
  split
  · refine Contains.bind (stopLoad_contains _ _) fun _ => Contains.bind (runRollbacks_contains _ _) fun _ => ?_
    exact Keeps.andPure _ (emit_contains _ _)
  · refine Contains.bind (isCancelled_contains _ _) fun interrupted => ?_
    cases interrupted with
    | true =>
      refine Contains.bind (stopLoad_contains _ _) fun _ => Contains.bind (runRollbacks_contains _ _) fun _ => ?_
      exact Keeps.andPure _ (emit_contains _ _)
    | false =>
      refine Contains.bind (postSampling_contains _) fun _ => Contains.bind (stopLoad_contains _ _) fun _ => ?_
      refine Contains.bind hypothesisAfterPhase_contains fun _ => Contains.bind (isCancelled_contains _ _) fun _ => ?_
      refine Contains.bind (runRollbacks_contains _ _) fun _ => Contains.bind (isCancelled_contains _ _) fun _ => ?_
      exact Keeps.andPure _ (emit_contains _ _)

/-- Only an escape unwinds out of a live run. -/
theorem liveRun_contains (before : Option HypothesisResult) (handle : Option LoadHandle) :
    Contains (liveRun Γ executor controls experiment config before handle) :=
  Contains.bind (methodPhase_contains before handle) fun p => endRun_contains p.2

end Spares

/-- What comes before the method lets nothing escape. -/
theorem Start.spares {v : List Entry} {before : Option HypothesisResult} {handle : Option LoadHandle}
    (h : Start Γ experiment config v before handle) : All Entry.Spares v := by
  refine fun e he => Entry.spares_of_place fun p hplace => ?_
  have hstage := (h.early e he).1 p hplace
  cases p with
  | site site => cases site <;> first | rfl | cases hstage | (rename_i phase _; cases phase <;> first | rfl | cases hstage)
  | loadStop => cases hstage
  | _ => rfl

theorem runExperiment_escapes (hlive : Live (runExperiment Γ executor controls experiment config).trace) :
    Escaped (runExperiment Γ executor controls experiment config).trace ↔
      ∀ journal, (runExperiment Γ executor controls experiment config).outcome ≠ .returned (.ok journal) := by
  obtain ⟨v, before, handle, hstart, htrace, ho⟩ := runExperiment_live hlive
  have hcontains := @liveRun_contains Γ executor controls experiment config before handle
  rw [htrace, ho]
  cases hout : (liveRun Γ executor controls experiment config before handle).outcome with
  | returned journal =>
    have hspares := not_escaped_of_spares (All.precedes _ _ hstart.spares (hcontains.returned journal hout))
    exact iff_of_false hspares fun h => h journal rfl
  | unwound message =>
    refine iff_of_true ?_ (by rintro journal ⟨⟩)
    exact spares_precedes_escaped _ _ hstart.spares (hcontains.unwound message hout)

/-! ## The load -/

section Load

variable {m : MethodOutcome}

/-- The load's stop was called. -/
def LoadStopped (w : List Entry) : Prop := ∃ answer, .loadStopped answer ∈ w

/-- Part of a run that calls the load's stop, if it returns. -/
abbrev Stops {α : Type} (x : Traced Entry α) : Prop := Keeps LoadStopped (fun _ => True) x

theorem keeps_any {α : Type} (x : Traced Entry α) : Keeps (fun _ => True) (fun _ => True) x :=
  ⟨fun _ _ => trivial, fun _ _ => trivial⟩

theorem Stops.later {α β : Type} {x : Traced Entry α} {f : α → Traced Entry β} (hf : ∀ a, Stops (f a)) : Stops (x >>= f) :=
  Keeps.bind (fun _ _ _ ⟨answer, he⟩ => ⟨answer, List.mem_append_right _ he⟩) (fun _ _ _ _ => trivial) (keeps_any x) hf

theorem Stops.first {α β : Type} {x : Traced Entry α} {f : α → Traced Entry β} (hx : Stops x) : Stops (x >>= f) :=
  Keeps.seq hx (fun a => keeps_any (f a)) (fun _ _ ⟨answer, he⟩ _ => ⟨answer, List.mem_append_left _ he⟩) (fun _ _ _ _ => trivial)
    fun _ => id

theorem stopLoad_stops {handle : Option LoadHandle} {loadExecutor : Option LoadExecutor} (hhandle : handle.isSome)
    (hexecutor : loadExecutor.isSome) : Stops (stopLoad handle loadExecutor) := by
  obtain ⟨handle, rfl⟩ := Option.isSome_iff_exists.mp hhandle
  obtain ⟨loadExecutor, rfl⟩ := Option.isSome_iff_exists.mp hexecutor
  exact Stops.first (Keeps.log ⟨_, List.mem_singleton_self _⟩)

/-- However a run ends, the load is stopped. -/
theorem endRun_stops (hhandle : m.loadHandle.isSome) (hexecutor : config.loadExecutor.isSome) (halt : Option HaltRecord) :
    Stops (endRun Γ executor controls experiment config m halt) := by
  unfold endRun
  cases halt with
  | some halt => exact Stops.first (stopLoad_stops hhandle hexecutor)
  | none =>
    refine Stops.later fun interrupted => ?_
    cases interrupted with
    | true => exact Stops.first (stopLoad_stops hhandle hexecutor)
    | false => exact Stops.later fun _ => Stops.first (stopLoad_stops hhandle hexecutor)

theorem liveRun_stops {before : Option HypothesisResult} {handle : Option LoadHandle} {journal : Journal} (hhandle : handle.isSome)
    (hexecutor : config.loadExecutor.isSome)
    (h : (liveRun Γ executor controls experiment config before handle).outcome = .returned journal) :
    LoadStopped (liveRun Γ executor controls experiment config before handle).trace := by
  unfold liveRun at h ⊢
  obtain ⟨⟨m, halt⟩, hm, hend, htrace⟩ := bind_returned h
  obtain ⟨-, rfl, -⟩ := methodPhase_records hm
  obtain ⟨answer, he⟩ := (endRun_stops hhandle hexecutor halt).returned journal hend
  exact ⟨answer, by rw [htrace]; exact List.mem_append_right _ he⟩

theorem not_started_of_stage {w : List Entry} {stage : Stage} (h : ∀ e ∈ w, e.OfStage stage) (hstage : stage ≠ .before)
    (answer : Outcome (Except String LoadHandle)) : .loadStarted answer ∉ w :=
  fun he => hstage (h _ he .loadStart rfl).symm

theorem liveRun_stage (before : Option HypothesisResult) (handle : Option LoadHandle) :
    ∀ e ∈ (liveRun Γ executor controls experiment config before handle).trace, ∃ stage, stage ≠ .before ∧ e.OfStage stage := by
  have hlater : Always (fun e => ∃ stage, stage ≠ Stage.before ∧ e.OfStage stage)
      (liveRun Γ executor controls experiment config before handle) := by
    refine Always.bind ?_ fun p => ?_
    · exact (methodPhase_stage before handle).mono (All.mono fun _ he => ⟨.method, by decide, he⟩)
        (All.mono fun _ he => ⟨.method, by decide, he⟩)
    · exact (endRun_within p.2).mono (All.mono fun _ he => ⟨.ending, by decide, he.2⟩)
        (All.mono fun _ he => ⟨.ending, by decide, he.2⟩)
  exact hlater.trace

theorem runExperiment_stops {journal : Journal} (hrunning : LoadRunning (runExperiment Γ executor controls experiment config).trace)
    (h : (runExperiment Γ executor controls experiment config).outcome = .returned (.ok journal)) :
    LoadStopped (runExperiment Γ executor controls experiment config).trace := by
  obtain ⟨v, before, handle, hstart, htrace, ho⟩ := runExperiment_live (.inr hrunning)
  have hhandle : handle.isSome := by
    obtain ⟨h, he⟩ := hrunning
    rw [htrace] at he
    rcases List.mem_append.mp he with he | he
    · simp [hstart.running h he]
    · obtain ⟨stage, hstage, hplace⟩ := liveRun_stage before handle _ he
      exact absurd (hplace .loadStart rfl).symm hstage
  rw [ho] at h
  cases hout : (liveRun Γ executor controls experiment config before handle).outcome with
  | unwound message =>
    rw [hout] at h
    cases h
  | returned journal' =>
    obtain ⟨answer, he⟩ := liveRun_stops hhandle (hstart.executor hhandle) hout
    exact ⟨answer, by rw [htrace]; exact List.mem_append_right _ he⟩

end Load

/-! ## When a run is contained -/

theorem Ended.rolledBack_of_empty {strategy : RollbackStrategy} {needs : Bool} {w : List Entry} {journal : Journal}
    (h : Ended experiment strategy needs w journal) (hempty : experiment.rollbacks = []) : RolledBack experiment w journal := by
  cases hs : shouldRollback strategy needs with
  | true => exact h.needed hs
  | false =>
    obtain ⟨hresults, hcalls⟩ := h.skipped hs
    exact ⟨by rw [hcalls, hempty], by rw [hresults, hempty]; rfl⟩

/-- The rollbacks that are required are attempted, unless the run is stopped late. -/
theorem RunReturned.rolledBack_of_required {journal : Journal} (r : RunReturned Γ experiment config journal)
    (ho : (runExperiment Γ executor controls experiment config).outcome = .returned (.ok journal))
    (htrace : (runExperiment Γ executor controls experiment config).trace = r.trace)
    (hlate : config.rollbackStrategy = .onDeviation → experiment.rollbacks ≠ [] → ¬ StoppedLate Γ r.trace)
    (h : RollbackRequired config.rollbackStrategy r.trace journal) : RolledBack experiment r.trace journal := by
  by_cases hempty : experiment.rollbacks = []
  · refine r.rolledBack ?_
    rcases r.live.ended with ⟨-, hended, -⟩ | ⟨status, hregular⟩
    · exact hended.rolledBack_of_empty hempty
    · exact hregular.ended.rolledBack_of_empty hempty
  · rcases h with halways | ⟨honDeviation, hdeviated | ⟨hdispatched, hstatus⟩⟩
    · refine r.rolledBack ?_
      rcases r.live.ended with ⟨-, hended, -⟩ | ⟨status, hregular⟩
      · exact hended.needed (by rw [halways]; rfl)
      · exact hregular.ended.needed (by rw [halways]; rfl)
    · refine r.rolledBack ?_
      rcases r.live.ended with ⟨hstatus, -, -⟩ | ⟨status, hregular⟩
      · rw [hdeviated] at hstatus
        simp at hstatus
      · have hwritten := hregular.written
        rw [hdeviated] at hwritten
        obtain rfl : status = .deviated := by
          split at hwritten
          · cases hwritten
          · exact hwritten.symm
        exact hregular.ended.needed (by rw [honDeviation]; rfl)
    · have hcleans := @cleansUp_of_not_stoppedLate Γ executor controls experiment config
        (by rw [honDeviation]; decide) (.inr (by rw [htrace]; exact hlate honDeviation hempty))
      rw [← htrace] at hdispatched ⊢
      refine hcleans journal ho hdispatched ?_
      simp only [List.mem_cons, List.not_mem_nil, or_false] at hstatus ⊢
      tauto

/-- A provider that succeeds, but whose second call of a hypothesis' probe panics. -/
def panicsAfter : ActivityExecutor where
  execute site _ :=
    match site with
    | .hypothesis .after _ => .unwound "probe panicked"
    | _ => .returned ⟨true, none, none, 1⟩

/-- One action, one rollback, and a hypothesis of one probe. -/
def probedExperiment : Experiment where
  title := "latency"
  method := [nativeAction "inject latency"]
  rollbacks := [nativeAction "remove latency"]
  steadyStateHypothesis := some ⟨"healthy", [{ nativeAction "health" with activityType := .probe }]⟩

end Tumult
