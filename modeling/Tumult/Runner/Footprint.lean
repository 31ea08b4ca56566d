import Tumult.Runner.Experiment

/-!
# Where the entries of a run are made

Each part of a run makes its entries on its own thread and calls out at its own places. One lemma a function; what a part
cannot do to another's entries follows from them.
-/

namespace Tumult

open Traced

def Moment.thread : Moment → Thread
  | .permit i => .background i
  | .pause _ site | .dispatch site => site.thread
  | _ => .main

/-- The thread that makes the entry. -/
def Entry.thread : Entry → Thread
  | .received thread _ _ => thread
  | .called site _ _ | .paused _ site _ => site.thread
  | .read moment _ => moment.thread
  | .loadStarted _ | .loadStopped _ => .main
  | .methodCancelled => .guards

/-- What an entry is about: an activity at its site, the load test, or a read of the token between the activities. -/
inductive Place where
  | site (site : Site)
  | loadStart
  | loadStop
  | token (moment : Moment)

def Moment.place : Moment → Place
  | .permit i => .site (.background i)
  | .pause _ site | .dispatch site => .site site
  | moment => .token moment

/-- The place an entry reaches out from; an event is only told to the handlers. -/
def Entry.place? : Entry → Option Place
  | .called site _ _ | .paused _ site _ => some (.site site)
  | .read moment _ => some moment.place
  | .loadStarted _ => some .loadStart
  | .loadStopped _ => some .loadStop
  | .received _ _ _ | .methodCancelled => none

/-- The entry is made on the thread, at one of the places. -/
def Entry.Within (thread : Thread) (places : Place → Prop) (e : Entry) : Prop :=
  e.thread = thread ∧ ∀ p, e.place? = some p → places p

variable {Γ : RunnerCtx} {executor : ActivityExecutor} {controls : ControlRegistry} {thread : Thread} {P : Place → Prop}

theorem emit_within (event : LifecycleEvent) : Always (Entry.Within thread P) (controls.emit thread event) := by
  refine Always.bind (Always.forEach _ (fun h handler _ => ?_) 0) fun _ => Always.pure _
  exact Always.bind (Always.log ⟨rfl, by rintro p ⟨⟩⟩) fun _ => Always.catchUnwind (Always.settle _)

theorem isCancelled_within (token : Option CancellationToken) {moment : Moment} (h : moment.thread = thread) (hP : P moment.place) :
    Always (Entry.Within thread P) (isCancelled token moment) := by
  cases token with
  | none => exact Always.pure _
  | some token => exact Always.bind (Always.log ⟨h, by rintro p ⟨⟩; exact hP⟩) fun _ => Always.pure _

theorem call_eq (site : Site) (activity : Activity) :
    executor.call site activity = ⟨[.called site activity (executor.execute site activity)], executor.execute site activity⟩ := rfl

theorem isCancelled_some (token : CancellationToken) (moment : Moment) :
    isCancelled (some token) moment = ⟨[.read moment (token.isCancelled moment)], .returned (token.isCancelled moment)⟩ := rfl

variable {site : Site} {activity : Activity}

/-- What an activity leaves in the trace: its events, the read at its dispatch boundary, its call. -/
theorem executeSingleActivity_always {p : Entry → Prop} (hevent : ∀ handler event, p (.received site.thread handler event))
    (token : Option CancellationToken) (hread : token ≠ none → ∀ cancelled, p (.read (.dispatch site) cancelled))
    (hcall : ∀ answer, p (.called site activity answer)) : Always p (executeSingleActivity Γ executor controls site activity token) := by
  have hemit : ∀ event, Always p (controls.emit site.thread event) := by
    intro event
    refine Always.bind (Always.forEach _ (fun h handler _ => ?_) 0) fun _ => Always.pure _
    exact Always.bind (Always.log (hevent h event)) fun _ => Always.catchUnwind (Always.settle _)
  have hcancelled : Always p (isCancelled token (.dispatch site)) := by
    cases token with
    | none => exact Always.pure _
    | some token => exact Always.bind (Always.log (hread (by simp) _)) fun _ => Always.pure _
  refine Always.bind (hemit _) fun _ => Always.bind hcancelled fun cancelled => ?_
  cases cancelled with
  | true => exact Always.pure _
  | false =>
    refine Always.bind (Always.bind (Always.log (hcall _)) fun _ => Always.settle _) fun _ => ?_
    exact Always.bind (hemit _) fun _ => Always.pure _

theorem executeForegroundActivity_always {p : Entry → Prop} (hevent : ∀ handler event, p (.received site.thread handler event))
    (token : Option CancellationToken) (hread : token ≠ none → ∀ cancelled, p (.read (.dispatch site) cancelled))
    (hcall : ∀ answer, p (.called site activity answer)) : Always p (executeForegroundActivity Γ executor controls site activity token) := by
  refine Always.bind (Always.catchUnwind (executeSingleActivity_always hevent token hread hcall)) fun o => ?_
  cases o <;> exact Always.pure _

theorem call_within (h : P (.site site)) : Always (Entry.Within site.thread P) (executor.call site activity) := by
  refine Always.bind (Always.log ⟨rfl, ?_⟩) fun _ => Always.settle _
  rintro p ⟨⟩
  exact h

theorem executeSingleActivity_within (h : P (.site site)) (token : Option CancellationToken) :
    Always (Entry.Within site.thread P) (executeSingleActivity Γ executor controls site activity token) :=
  executeSingleActivity_always (fun _ _ => ⟨rfl, by rintro p ⟨⟩⟩) token (fun _ _ => ⟨rfl, by rintro p ⟨⟩; exact h⟩)
    fun _ => ⟨rfl, by rintro p ⟨⟩; exact h⟩

theorem executeForegroundActivity_within (h : P (.site site)) (token : Option CancellationToken) :
    Always (Entry.Within site.thread P) (executeForegroundActivity Γ executor controls site activity token) :=
  executeForegroundActivity_always (fun _ _ => ⟨rfl, by rintro p ⟨⟩⟩) token (fun _ _ => ⟨rfl, by rintro p ⟨⟩; exact h⟩)
    fun _ => ⟨rfl, by rintro p ⟨⟩; exact h⟩

theorem pauseActivity_within (h : P (.site site)) (phase : Phase) (seconds : Option F64) (token : Option CancellationToken) :
    Always (Entry.Within site.thread P) (pauseActivity phase site seconds token) := by
  have hread : Always (Entry.Within site.thread P) (do
      let cancelled ← isCancelled token (.pause phase site)
      pure !cancelled) := Always.bind (isCancelled_within token rfl h) fun _ => Always.pure _
  unfold pauseActivity
  split
  · exact hread
  · refine Always.bind (Always.log ⟨rfl, by rintro p ⟨⟩; exact h⟩) fun _ => ?_
    split
    · exact hread
    · exact Always.unwind _

theorem executePendingActivity_within (h : P (.site site)) (token : Option CancellationToken) :
    Always (Entry.Within site.thread P) (executePendingActivity Γ executor controls site activity token) := by
  refine Always.bind (pauseActivity_within h .before _ token) fun waited => ?_
  cases waited with
  | false => exact Always.pure _
  | true =>
    refine Always.bind (executeForegroundActivity_within h token) fun _ => ?_
    exact Always.bind (pauseActivity_within h .after _ token) fun _ => Always.pure _

theorem backgroundThread_within {i : Nat} (h : P (.site (.background i))) (cap : Option Nat) (token : Option CancellationToken) :
    Always (Entry.Within (.background i) P) (backgroundThread Γ executor controls cap token i activity) := by
  refine Always.bind (Always.bind (isCancelled_within token rfl h) fun _ => Always.pure _) fun permitted => ?_
  cases permitted with
  | false => exact Always.pure _
  | true => exact executePendingActivity_within h token

theorem evaluateHypothesis_within {phase : Phase} (h : ∀ i, P (.site (.hypothesis phase i))) (hypothesis : Hypothesis) :
    Always (Entry.Within .main P) (evaluateHypothesis Γ executor controls phase hypothesis) := by
  refine Always.bind (Always.forEach _ (fun i probe _ => ?_) 0) fun _ => Always.pure _
  exact Always.bind (executeSingleActivity_within (h i) none) fun _ => Always.pure _

theorem runHypothesisPhase_within {phase : Phase} (h : ∀ i, P (.site (.hypothesis phase i))) (experiment : Experiment) :
    Always (Entry.Within .main P) (runHypothesisPhase Γ executor controls phase experiment) := by
  unfold runHypothesisPhase
  split
  · exact Always.pure _
  · refine Always.bind (emit_within _) fun _ => Always.bind (evaluateHypothesis_within h _) fun _ => ?_
    exact Always.bind (emit_within _) fun _ => Always.pure _

theorem runRollbacks_within (h : ∀ i, P (.site (.rollback i))) (experiment : Experiment) (strategy : RollbackStrategy) (needs : Bool) :
    Always (Entry.Within .main P) (runRollbacks Γ executor controls experiment strategy needs) := by
  unfold runRollbacks
  split
  · exact Always.pure _
  · refine Always.bind (emit_within _) fun _ => ?_
    refine Always.bind (Always.forEach _ (fun i a _ => executeForegroundActivity_within (h i) none) 0) fun _ => ?_
    exact Always.bind (emit_within _) fun _ => Always.pure _

theorem sampleProbeRound_within {at_ : Nat → Site} (hthread : ∀ i, (at_ i).thread = thread) (h : ∀ i, P (.site (at_ i)))
    (hypothesis : Hypothesis) : Always (Entry.Within thread P) (sampleProbeRound Γ executor at_ hypothesis) := by
  refine Always.bind (Always.forEach _ (fun i probe _ => ?_) 0) fun _ => Always.pure _
  refine Always.bind ?_ fun _ => Always.pure _
  have hcall : Always (Entry.Within (at_ i).thread P) (executor.call (at_ i) probe) := call_within (h i)
  rwa [hthread i] at hcall

theorem collectDuringSamples_within (h : ∀ round i, P (.site (.during round i))) (hypothesis : Hypothesis) (rounds round : Nat)
    (perProbe : ProbeSamples) :
    Always (Entry.Within .sampler P) (collectDuringSamples Γ executor hypothesis rounds round perProbe) := by
  induction rounds generalizing round perProbe with
  | zero => exact Always.pure _
  | succ rounds ih =>
    refine Always.bind (Always.catchUnwind (sampleProbeRound_within (by intro i; rfl) (h round) hypothesis)) fun o => ?_
    cases o with
    | returned samples => exact ih (round + 1) _
    | unwound m => exact Always.pure _

theorem duringSampler_within (h : ∀ round i, P (.site (.during round i))) (experiment : Experiment) :
    Always (Entry.Within .sampler P) (duringSampler Γ executor experiment) := by
  unfold duringSampler
  split
  · exact Always.pure _
  · exact Always.bind (collectDuringSamples_within h _ _ 0 []) fun _ => Always.pure _

theorem collectPostSamples_within (h : ∀ round i, P (.site (.post round i))) (hread : ∀ round, P (.token (.postRound round)))
    (hypothesis : Hypothesis)
    (token : Option CancellationToken) (rounds round : Nat) (perProbe : ProbeSamples) :
    Always (Entry.Within .main P) (collectPostSamples Γ executor hypothesis token rounds round perProbe) := by
  induction rounds generalizing round perProbe with
  | zero =>
    unfold collectPostSamples
    refine Always.bind (sampleProbeRound_within (by intro i; rfl) (h round) hypothesis) fun s => ?_
    refine Always.bind (isCancelled_within token rfl (hread round)) fun cancelled => ?_
    dsimp only
    split <;> exact Always.pure _
  | succ rounds ih =>
    unfold collectPostSamples
    refine Always.bind (sampleProbeRound_within (by intro i; rfl) (h round) hypothesis) fun s => ?_
    refine Always.bind (isCancelled_within token rfl (hread round)) fun cancelled => ?_
    dsimp only
    split
    · exact Always.pure _
    · exact ih (round + 1) _

theorem postSampling_within (h : ∀ round i, P (.site (.post round i))) (hread : ∀ round, P (.token (.postRound round)))
    (experiment : Experiment) (token : Option CancellationToken) :
    Always (Entry.Within .main P) (postSampling Γ executor experiment token) := by
  unfold postSampling
  split
  · exact Always.pure _
  · exact Always.bind (collectPostSamples_within h hread _ token _ 0 []) fun _ => Always.pure _

theorem guardRound_within {round : Nat} (h : ∀ i, P (.site (.guard round i))) (guards : List (Guard × Nat)) (i : Nat) :
    Always (Entry.Within .guards P) (guardRound Γ executor round i guards) := by
  induction guards generalizing i with
  | nil => exact Always.pure _
  | cons g guards ih =>
    obtain ⟨g, consecutive⟩ := g
    unfold guardRound
    refine Always.bind (call_within (h i)) fun outcome => ?_
    split
    · exact Always.bind (ih (i + 1)) fun _ => Always.pure _
    · split
      · exact Always.bind (Always.log ⟨rfl, by rintro p ⟨⟩⟩) fun _ => Always.pure _
      · exact Always.bind (ih (i + 1)) fun _ => Always.pure _

theorem runGuardMonitor_within (h : ∀ round i, P (.site (.guard round i))) (rounds round : Nat) (guards : List (Guard × Nat)) :
    Always (Entry.Within .guards P) (runGuardMonitor Γ executor rounds round guards) := by
  induction rounds generalizing round guards with
  | zero => exact Always.pure _
  | succ rounds ih =>
    refine Always.bind (guardRound_within (h round) guards 0) fun r => ?_
    cases r with
    | error record => exact Always.pure _
    | ok guards => exact ih (round + 1) guards

theorem guardMonitor_within (h : ∀ round i, P (.site (.guard round i))) (experiment : Experiment) :
    Always (Entry.Within .guards P) (guardMonitor Γ executor experiment) := by
  unfold guardMonitor
  split
  · exact Always.pure _
  · refine Always.bind (Always.catchUnwind (runGuardMonitor_within h _ 0 _)) fun o => ?_
    cases o <;> exact Always.pure _

theorem startLoad_within (h : P .loadStart) (experiment : Experiment) (config : RunConfig) :
    Always (Entry.Within .main P) (startLoad experiment config) := by
  unfold startLoad
  split
  · refine Always.bind (Always.log ⟨rfl, by rintro p ⟨⟩; exact h⟩) fun _ => Always.bind (Always.settle _) fun r => ?_
    cases r <;> exact Always.pure _
  · exact Always.pure _

theorem stopLoad_within (h : P .loadStop) (handle : Option LoadHandle) (loadExecutor : Option LoadExecutor) :
    Always (Entry.Within .main P) (stopLoad handle loadExecutor) := by
  unfold stopLoad
  split
  · refine Always.bind (Always.log ⟨rfl, by rintro p ⟨⟩; exact h⟩) fun _ => Always.bind (Always.settle _) fun r => ?_
    cases r <;> exact Always.pure _
  · exact Always.pure _

/-! ## What is contained -/

theorem emit_returns (event : LifecycleEvent) : Returns (controls.emit thread event) :=
  Returns.bind (Returns.forEach _ (fun _ _ _ => Returns.bind (Returns.log _) fun _ => Returns.catchUnwind _) 0) fun _ =>
    Returns.pure _

theorem isCancelled_returns (token : Option CancellationToken) (moment : Moment) : Returns (isCancelled token moment) := by
  cases token with
  | none => exact Returns.pure _
  | some token => exact Returns.bind (Returns.log _) fun _ => Returns.pure _

theorem executeForegroundActivity_returns (token : Option CancellationToken) :
    Returns (executeForegroundActivity Γ executor controls site activity token) := by
  refine Returns.bind (Returns.catchUnwind _) fun o => ?_
  cases o <;> exact Returns.pure _

theorem runRollbacks_returns (experiment : Experiment) (strategy : RollbackStrategy) (needs : Bool) :
    Returns (runRollbacks Γ executor controls experiment strategy needs) := by
  unfold runRollbacks
  split
  · exact Returns.pure _
  · refine Returns.bind (emit_returns _) fun _ => Returns.bind ?_ fun _ => Returns.bind (emit_returns _) fun _ => Returns.pure _
    exact Returns.forEach _ (fun _ _ _ => executeForegroundActivity_returns none) 0

theorem collectDuringSamples_returns (hypothesis : Hypothesis) (rounds round : Nat) (perProbe : ProbeSamples) :
    Returns (collectDuringSamples Γ executor hypothesis rounds round perProbe) := by
  induction rounds generalizing round perProbe with
  | zero => exact Returns.pure _
  | succ rounds ih =>
    refine Returns.bind (Returns.catchUnwind _) fun o => ?_
    cases o with
    | returned samples => exact ih (round + 1) _
    | unwound m => exact Returns.pure _

/-- A panic of the sampler is contained. -/
theorem duringSampler_returns (experiment : Experiment) : Returns (duringSampler Γ executor experiment) := by
  unfold duringSampler
  split
  · exact Returns.pure _
  · exact Returns.bind (collectDuringSamples_returns _ _ 0 []) fun _ => Returns.pure _

/-- A panic of the guard monitor is contained. -/
theorem guardMonitor_returns (experiment : Experiment) : Returns (guardMonitor Γ executor experiment) := by
  unfold guardMonitor
  split
  · exact Returns.pure _
  · refine Returns.bind (Returns.catchUnwind _) fun o => ?_
    cases o <;> exact Returns.pure _

/-! ## The stages of a run -/

inductive Stage where
  | before
  | method
  | ending
  deriving DecidableEq, Repr

/-- When in a run a place is reached. -/
def Place.stage : Place → Stage
  | .site (.hypothesis .before _) | .loadStart | .token .start | .token .beforeMethod | .token .observed => .before
  | .site (.foreground _) | .site (.background _) | .site (.during _ _) | .site (.guard _ _) => .method
  | _ => .ending

section Stages

variable {experiment : Experiment} {config : RunConfig} {m : MethodOutcome}

/-- The sequential and background steps are the method's. -/
theorem executeActivities_within (hforeground : ∀ i, P (.site (.foreground i))) (hbackground : ∀ i, P (.site (.background i)))
    (activities : List Activity) (token : Option CancellationToken) (cap : Option Nat) :
    Always (fun e => ∃ t, e.Within t P) (executeActivities Γ executor controls activities token cap) := by
  have hsome : ∀ {α : Type} {t : Thread} {x : Traced Entry α}, Always (Entry.Within t P) x → Always (fun e => ∃ t, e.Within t P) x :=
    fun h => h.mono (All.mono fun _ he => ⟨_, he⟩) (All.mono fun _ he => ⟨_, he⟩)
  refine Always.bind (Always.forEach _ (fun i a _ => ?_) 0) fun joined => Always.bind (Always.whileSome _ (fun i a _ => ?_) 0) fun _ =>
    Always.pure _
  · exact Always.bind (Always.catchUnwind (hsome (backgroundThread_within (hbackground i) cap token))) fun _ => Always.pure _
  · exact Always.bind (hsome (executePendingActivity_within (hforeground i) token)) fun _ => Always.pure _

/-- The entry is of the stage, on whatever thread. -/
def Entry.OfStage (stage : Stage) (e : Entry) : Prop := ∀ p, e.place? = some p → p.stage = stage

theorem ofStage_of_within {α : Type} {stage : Stage} {x : Traced Entry α}
    (h : Always (Entry.Within thread fun p => p.stage = stage) x) : Always (Entry.OfStage stage) x :=
  h.mono (All.mono fun _ he => he.2) (All.mono fun _ he => he.2)

theorem methodPhase_stage (before : Option HypothesisResult) (handle : Option LoadHandle) :
    Always (Entry.OfStage .method) (methodPhase Γ executor controls experiment config before handle) := by
  refine Always.bind (ofStage_of_within (emit_within _)) fun _ => ?_
  refine Always.bind (ofStage_of_within (duringSampler_within (fun _ _ => rfl) _)) fun _ => ?_
  refine Always.bind (ofStage_of_within (guardMonitor_within (fun _ _ => rfl) _)) fun _ => Always.bind ?_ fun _ => ?_
  · have hactivities : ∀ token cap, Always (fun e => ∃ t, Entry.Within t (fun p => p.stage = .method) e)
        (executeActivities Γ executor controls experiment.method token cap) :=
      fun token cap => executeActivities_within (fun _ => rfl) (fun _ => rfl) _ token cap
    exact (hactivities _ _).mono (All.mono fun _ ⟨_, he⟩ => he.2) (All.mono fun _ ⟨_, he⟩ => he.2)
  · exact Always.bind (ofStage_of_within (emit_within _)) fun _ => Always.pure _

/-! What follows is on the main thread. -/

/-- An entry of the main thread at a place of the stage. -/
abbrev Entry.OnMain (stage : Stage) : Entry → Prop := Entry.Within .main fun p => p.stage = stage

theorem stop_within (handle : Option LoadHandle) (loadExecutor : Option LoadExecutor) :
    Always (Entry.OnMain .ending) (stopLoad handle loadExecutor) :=
  stopLoad_within (P := fun p => p.stage = .ending) rfl _ _

theorem read_within (token : Option CancellationToken) {moment : Moment} (h : moment.thread = .main)
    (hstage : moment.place.stage = .ending) : Always (Entry.OnMain .ending) (isCancelled token moment) := isCancelled_within _ h hstage

theorem rollbacks_within (strategy : RollbackStrategy) (needs : Bool) :
    Always (Entry.OnMain .ending) (runRollbacks Γ executor controls experiment strategy needs) :=
  runRollbacks_within (fun _ => rfl) _ _ _

theorem endHalted_within (halt : HaltRecord) :
    Always (Entry.OnMain .ending) (endHalted Γ executor controls experiment config m halt) := by
  refine Always.bind (stop_within _ _) fun _ => Always.bind (rollbacks_within _ _) fun _ => ?_
  exact Always.bind (emit_within _) fun _ => Always.pure _

theorem endInterrupted_within : Always (Entry.OnMain .ending) (endInterrupted Γ executor controls experiment config m) := by
  refine Always.bind (stop_within _ _) fun _ => Always.bind (rollbacks_within _ _) fun _ => ?_
  exact Always.bind (emit_within _) fun _ => Always.pure _

theorem hypothesisAfterPhase_within {P : Place → Prop} (h : ∀ i, P (.site (.hypothesis .after i)))
    (hread : P (.token .beforeHypothesisAfter)) :
    Always (Entry.Within .main P) (hypothesisAfterPhase Γ executor controls experiment config) := by
  refine Always.bind (isCancelled_within _ rfl hread) fun skip => ?_
  cases skip with
  | true => exact Always.pure _
  | false => exact runHypothesisPhase_within h _

theorem endRegular_within : Always (Entry.OnMain .ending) (endRegular Γ executor controls experiment config m) := by
  refine Always.bind (postSampling_within (fun _ _ => rfl) (fun _ => rfl) _ _) fun _ => Always.bind (stop_within _ _) fun _ => ?_
  refine Always.bind (hypothesisAfterPhase_within (fun _ => rfl) rfl) fun _ => ?_
  refine Always.bind (read_within _ rfl rfl) fun _ => Always.bind (rollbacks_within _ _) fun _ => ?_
  refine Always.bind (read_within _ rfl rfl) fun _ => ?_
  exact Always.bind (emit_within _) fun _ => Always.pure _

theorem endRun_within (halt : Option HaltRecord) :
    Always (Entry.OnMain .ending) (endRun Γ executor controls experiment config m halt) := by
  unfold endRun
  split
  · exact endHalted_within _
  · refine Always.bind (read_within _ rfl rfl) fun interrupted => ?_
    cases interrupted with
    | true => exact endInterrupted_within
    | false => exact endRegular_within

theorem endAborted_within (before : Option HypothesisResult) :
    Always (Entry.OnMain .ending) (endAborted Γ executor controls experiment config before) := by
  refine Always.bind (rollbacks_within _ _) fun _ => ?_
  exact Always.bind (emit_within _) fun _ => Always.pure _

end Stages

end Tumult
