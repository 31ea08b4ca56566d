import Tumult.Lib.Brackets
import Tumult.Runner.Footprint

/-!
# Lifecycle events

Every Before event is followed by its After event exactly when nothing breaks an activity or the run off between the two: a provider
that panics inside the pair, a step cancelled at its dispatch boundary, a load test that does not start. On each thread the trace is
settled in the sense of `Brackets.Settled`: what is broken off leaves its event open for good.
-/

namespace Tumult

open Traced Brackets

/-- What a pair of events encloses. -/
inductive Span where
  | experiment
  | method
  | activity (name : String)
  | rollback
  | hypothesis
  deriving DecidableEq, Repr

/-- An event opens or closes what it is about. -/
def LifecycleEvent.mark : LifecycleEvent → Mark Span
  | .beforeExperiment => .opens .experiment
  | .afterExperiment => .closes .experiment
  | .beforeMethod => .opens .method
  | .afterMethod => .closes .method
  | .beforeActivity name => .opens (.activity name)
  | .afterActivity name => .closes (.activity name)
  | .beforeRollback => .opens .rollback
  | .afterRollback => .closes .rollback
  | .beforeHypothesis => .opens .hypothesis
  | .afterHypothesis => .closes .hypothesis

/-- The event, when the handler received it on the thread. -/
def Entry.receivedOn (handler : Nat) (thread : Thread) : Entry → Option LifecycleEvent
  | .received t h event => if t = thread ∧ h = handler then some event else none
  | _ => none

/-- The events a handler received on a thread, in order. -/
def eventsOn (handler : Nat) (thread : Thread) (trace : List Entry) : List LifecycleEvent :=
  trace.filterMap (Entry.receivedOn handler thread)

/-- The events are well bracketed. -/
def Bracketed (events : List LifecycleEvent) : Prop := Balanced (events.map LifecycleEvent.mark)

/-- The thread of the sequential steps, or of a background step. -/
def activityThread : Option Nat → Thread
  | none => .main
  | some i => .background i

/-- What breaks an activity or the run off: a provider call or a load call that panics, a step cancelled at its dispatch boundary, a
load test that does not start, a sequential step's pause too long for a duration. The sampler and the guard monitor are contained in
their threads. -/
def Entry.breaksOff : Entry → Bool
  | .called (.during _ _) _ _ | .called (.guard _ _) _ _ => false
  | .called _ _ (.unwound _) => true
  | .read (.dispatch _) cancelled => cancelled
  | .paused _ (.foreground _) seconds => !seconds.fitsDuration
  | .loadStarted (.returned (.ok _)) => false
  | .loadStarted _ => true
  | .loadStopped (.unwound _) => true
  | _ => false

section Thread

variable (handler : Nat) (thread : Thread)

def Entry.markOn (e : Entry) : Option (Mark Span) := (e.receivedOn handler thread).map LifecycleEvent.mark

def Entry.faultOn (e : Entry) : Prop := e.thread = thread ∧ e.breaksOff

/-- The trace is settled on the thread. -/
abbrev SettledOn : List Entry → Prop := Settled (Entry.markOn handler thread) (Entry.faultOn thread)

/-- The trace is broken off on the thread. -/
abbrev BrokenOn : List Entry → Prop := Broken (Entry.markOn handler thread) (Entry.faultOn thread)

/-- The trace finishes what is open on the thread. -/
abbrev FinishesOn : Span → List Entry → Prop := Finishes (Entry.markOn handler thread) (Entry.faultOn thread)

end Thread

variable {Γ : RunnerCtx} {executor : ActivityExecutor} {controls : ControlRegistry} {handler : Nat} {thread : Thread}

theorem bracketed_eventsOn (trace : List Entry) :
    Bracketed (eventsOn handler thread trace) ↔ Balanced (trace.filterMap (Entry.markOn handler thread)) := by
  unfold Bracketed eventsOn
  rw [List.map_filterMap]
  rfl

theorem settled_precedes_settled : Precedes (SettledOn handler thread) (SettledOn handler thread) := fun _ _ => Settled.append

theorem settled_precedes_broken : Precedes (SettledOn handler thread) (BrokenOn handler thread) := fun _ _ => Broken.after

theorem settled_precedes_finishes {span : Span} : Precedes (SettledOn handler thread) (FinishesOn handler thread span) :=
  fun _ _ => Finishes.after

theorem settled_nil : SettledOn handler thread [] := Settled.silent (by simp)

/-! ## What leaves a thread alone -/

/-- Nothing of an entry concerns the brackets of the thread. -/
def Entry.SilentOn (handler : Nat) (thread : Thread) (e : Entry) : Prop := e.markOn handler thread = none ∧ ¬ e.faultOn thread

theorem Entry.silent_of_thread_ne {e : Entry} (h : e.thread ≠ thread) : e.SilentOn handler thread := by
  refine ⟨?_, fun hf => h hf.1⟩
  cases e with
  | received t _ _ => simp [Entry.markOn, Entry.receivedOn, show t ≠ thread from h]
  | _ => rfl

variable {α β : Type}

theorem keeps_of_silent {x : Traced Entry α} (h : Always (Entry.SilentOn handler thread) x) :
    Keeps (SettledOn handler thread) (SettledOn handler thread) x :=
  h.mono (fun _ hw => Settled.silent hw) fun _ hw => Settled.silent hw

/-- A part of the run on another thread. -/
theorem keeps_of_within {x : Traced Entry α} {other : Thread} {P : Place → Prop} (h : Always (Entry.Within other P) x)
    (hne : other ≠ thread) : Keeps (SettledOn handler thread) (SettledOn handler thread) x :=
  keeps_of_silent (h.mono (All.mono fun _ he => Entry.silent_of_thread_ne (he.1.symm ▸ hne))
    (All.mono fun _ he => Entry.silent_of_thread_ne (he.1.symm ▸ hne)))

/-! ## Events -/

theorem emit_marks (event : LifecycleEvent) (handlers : List ControlHandler) (i : Nat) :
    (forEach (fun h (handler : ControlHandler) => do
        log (Entry.received thread h event)
        catchUnwind (settle (handler.onEvent event))) i handlers).trace.filterMap (Entry.markOn handler thread) =
      (if i ≤ handler ∧ handler < i + handlers.length then [event.mark] else []) := by
  induction handlers generalizing i with
  | nil =>
    rw [if_neg (by simp only [List.length_nil]; omega)]
    rfl
  | cons c handlers ih =>
    have hstep : ∀ rest : Traced Entry (List (Outcome Unit)),
        ((do
          let o ← (do log (.received thread i event); catchUnwind (settle (c.onEvent event)))
          let os ← rest
          pure (o :: os)) : Traced Entry _).trace = .received thread i event :: rest.trace := by
      intro rest
      obtain ⟨w, o⟩ := rest
      cases o <;> simp [bind, pure, log, catchUnwind, settle]
    unfold forEach
    rw [hstep, List.filterMap_cons]
    by_cases hi : i = handler
    · subst hi
      rw [ih, if_neg (by omega), if_pos (by simp only [List.length_cons]; omega)]
      simp [Entry.markOn, Entry.receivedOn]
    · have hnone : (Entry.received thread i event).markOn handler thread = none := by simp [Entry.markOn, Entry.receivedOn, hi]
      rw [hnone, ih]
      simp only [List.length_cons]
      congr 1
      apply propext
      omega

/-- Every handler of the registry receives an event once, whatever the handlers do with it. -/
theorem emit_keeps (event : LifecycleEvent) {U : List Entry → Prop} :
    Keeps (fun w => w.filterMap (Entry.markOn handler thread) = (if handler < controls.handlers.length then [event.mark] else []) ∧
      ∀ e ∈ w, e.breaksOff = false) U (controls.emit thread event) := by
  have hreturns : ∀ i, Keeps (All fun e : Entry => e.breaksOff = false) (fun _ => False)
      (forEach (fun h (handler : ControlHandler) => do
        log (.received thread h event)
        catchUnwind (settle (handler.onEvent event))) i controls.handlers) := by
    refine Keeps.forEach .nil All.precedes (fun _ _ _ => id) controls.handlers fun i c _ => ?_
    refine Keeps.bind All.precedes (fun _ _ _ => id) (Keeps.log (by simp [All, Entry.breaksOff])) fun _ => ?_
    exact ⟨fun _ _ => .nil, by rintro m ⟨⟩⟩
  have hmarks := @emit_marks handler thread event controls.handlers 0
  unfold ControlRegistry.emit
  cases ho : (forEach (fun h (handler : ControlHandler) => do
      log (Entry.received thread h event)
      catchUnwind (settle (handler.onEvent event))) 0 controls.handlers).outcome with
  | returned os =>
    rw [bind_of_returned ho]
    refine ⟨fun _ _ => ?_, by rintro m ⟨⟩⟩
    simp only [pure_trace, List.append_nil, hmarks]
    exact ⟨by simp, (hreturns 0).returned os ho⟩
  | unwound m => exact absurd ((hreturns 0).unwound m ho) id

variable (hhandler : handler < controls.handlers.length)
include hhandler

/-- What runs between an event and what finishes it. -/
theorem opened_keeps {span : Span} {event : LifecycleEvent} (hevent : event.mark = .opens span) {x : Traced Entry α}
    (hx : Keeps (FinishesOn handler thread span) (BrokenOn handler thread) x) :
    Keeps (SettledOn handler thread) (fun w => SettledOn handler thread w ∧ BrokenOn handler thread w)
      (do controls.emit thread event; x) := by
  have hemit : Keeps (Opens (Entry.markOn handler thread) (Entry.faultOn thread) span) (fun _ => False) (controls.emit thread event) := by
    refine (@emit_keeps controls handler thread event fun _ => False).mono ?_ fun _ => id
    rintro w ⟨hmarks, hclean⟩
    rw [if_pos hhandler, hevent] at hmarks
    exact ⟨hmarks, fun e he hf => by simpa [hclean e he] using hf.2⟩
  refine Keeps.seq hemit (fun _ => hx) (fun v w hv hw => hv.settled hw) (fun v w hv hw => ?_) fun _ h => h.elim
  exact ⟨hv.settled (.inr hw), hv.broken hw⟩

/-- The event that closes what is open. -/
theorem closed_keeps {span : Span} {event : LifecycleEvent} (hevent : event.mark = .closes span) {U : List Entry → Prop} :
    Keeps (FinishesOn handler thread span) U (controls.emit thread event) := by
  refine (@emit_keeps controls handler thread event U).mono ?_ fun _ => id
  rintro w ⟨hmarks, hclean⟩
  rw [if_pos hhandler, hevent] at hmarks
  exact .inl ⟨⟨[], .nil, hmarks⟩, fun e he hf => by simpa [hclean e he] using hf.2⟩

/-- The event that closes what is open, when nothing but a value follows. -/
theorem ending_keeps {span : Span} {event : LifecycleEvent} (hevent : event.mark = .closes span) (b : β) {U : List Entry → Prop} :
    Keeps (FinishesOn handler thread span) U (do controls.emit thread event; pure b) :=
  (closed_keeps hhandler hevent).andPure _

omit hhandler

/-! ## One activity on its own thread -/

/-- An entry of the thread that is no event and breaks nothing off. -/
theorem settled_entry {e : Entry} (hmark : e.markOn handler thread = none) (hbreaks : e.breaksOff = false) :
    SettledOn handler thread [e] := by
  refine Settled.silent fun e' he => ?_
  rw [List.mem_singleton.mp he]
  exact ⟨hmark, fun hf => by simpa [hbreaks] using hf.2⟩

/-- An entry of the thread that breaks something off. -/
theorem broken_entry {e : Entry} (hmark : e.markOn handler thread = none) (hthread : e.thread = thread) (hbreaks : e.breaksOff = true) :
    BrokenOn handler thread [e] :=
  ⟨by simp [hmark], e, List.mem_singleton_self e, hthread, hbreaks⟩

variable {site : Site} {activity : Activity}

/-- The provider's panic at this site breaks something off on this thread. -/
structure Exposed (thread : Thread) (site : Site) : Prop where
  thread_eq : site.thread = thread
  breaks : ∀ activity message, (Entry.called site activity (.unwound message)).breaksOff = true

theorem exposed_background (i : Nat) : Exposed (.background i) (.background i) := ⟨rfl, fun _ _ => rfl⟩

theorem exposed_foreground (i : Nat) : Exposed .main (.foreground i) := ⟨rfl, fun _ _ => rfl⟩

theorem exposed_rollback (i : Nat) : Exposed .main (.rollback i) := ⟨rfl, fun _ _ => rfl⟩

theorem exposed_hypothesis (phase : Phase) (i : Nat) : Exposed .main (.hypothesis phase i) := ⟨rfl, fun _ _ => rfl⟩

theorem exposed_post (round i : Nat) : Exposed .main (.post round i) := ⟨rfl, fun _ _ => rfl⟩

theorem call_keeps (hsite : Exposed thread site) :
    Keeps (SettledOn handler thread) (BrokenOn handler thread) (executor.call site activity) := by
  rw [call_eq]
  constructor
  · intro outcome ho
    change executor.execute site activity = .returned outcome at ho
    exact settled_entry rfl (by simp only [ho]; unfold Entry.breaksOff; split <;> simp_all)
  · intro m ho
    change executor.execute site activity = .unwound m at ho
    refine broken_entry rfl hsite.thread_eq ?_
    rw [ho]
    exact hsite.breaks activity m

/-- A token read that is no dispatch boundary. -/
theorem isCancelled_keeps {moment : Moment} (h : ∀ b, (Entry.read moment b).breaksOff = false) (token : Option CancellationToken)
    {U : List Entry → Prop} : Keeps (SettledOn handler thread) U (isCancelled token moment) := by
  cases token with
  | none => exact Keeps.pure settled_nil
  | some token => exact (Keeps.log (settled_entry rfl (h _))).andPure _

include hhandler

/-- An activity is settled on its own thread, and one that unwinds is broken off. -/
theorem executeSingleActivity_keeps (hsite : Exposed thread site) (token : Option CancellationToken) :
    Keeps (SettledOn handler thread) (fun w => SettledOn handler thread w ∧ BrokenOn handler thread w)
      (executeSingleActivity Γ executor controls site activity token) := by
  have hcall : Keeps (FinishesOn handler thread (.activity activity.name)) (BrokenOn handler thread) (do
      let outcome ← executor.call site activity
      controls.emit thread (.afterActivity activity.name)
      pure (makeResult activity (Γ.now (.dispatch site)) outcome)) := by
    refine Keeps.bind settled_precedes_finishes settled_precedes_broken (call_keeps hsite) fun outcome => ?_
    exact ending_keeps hhandler rfl _
  unfold executeSingleActivity
  rw [hsite.thread_eq]
  refine opened_keeps hhandler rfl ?_
  cases token with
  | none => exact hcall
  | some token =>
    cases hc : token.isCancelled (.dispatch site) with
    | true =>
      -- the step is skipped, and its event stays open
      have hread : BrokenOn handler thread [.read (.dispatch site) true] := broken_entry rfl hsite.thread_eq rfl
      simp only [isCancelled, hc]
      exact ⟨fun _ _ => .inr hread, by rintro m ⟨⟩⟩
    | false =>
      have hread : SettledOn handler thread [.read (.dispatch site) false] := settled_entry rfl rfl
      simp only [isCancelled, hc]
      exact Keeps.after settled_precedes_finishes settled_precedes_broken rfl hread hcall

/-- A panic is contained, and leaves the activity's event open. -/
theorem executeForegroundActivity_keeps (hsite : Exposed thread site) (token : Option CancellationToken) {U : List Entry → Prop}
    (hU : Precedes (SettledOn handler thread) U) :
    Keeps (SettledOn handler thread) U (executeForegroundActivity Γ executor controls site activity token) := by
  have hsingle : Keeps (SettledOn handler thread) (SettledOn handler thread)
      (executeSingleActivity Γ executor controls site activity token) :=
    (executeSingleActivity_keeps hhandler hsite token).mono (fun _ => id) fun _ => And.left
  refine Keeps.bind settled_precedes_settled hU hsingle.catchUnwind fun o => ?_
  cases o <;> exact Keeps.pure settled_nil

omit hhandler

/-- A pause, when one that is too long may come out as told. -/
theorem pauseActivity_keeps {phase : Phase} {seconds : Option F64} {token : Option CancellationToken} {U : List Entry → Prop}
    (hU : Precedes (SettledOn handler thread) U) (hfits : ∀ s, s.fitsDuration = true → (Entry.paused phase site s).breaksOff = false)
    (hlong : ∀ s, s.fitsDuration = false → U [.paused phase site s]) :
    Keeps (SettledOn handler thread) U (pauseActivity phase site seconds token) := by
  have hread : Keeps (SettledOn handler thread) U (do
      let cancelled ← isCancelled token (.pause phase site)
      pure !cancelled) := (isCancelled_keeps (fun _ => rfl) token).andPure _
  unfold pauseActivity
  split
  · exact hread
  · next s _ =>
    cases hs : s.fitsDuration with
    | true =>
      exact Keeps.after settled_precedes_settled hU rfl (settled_entry rfl (hfits s hs)) hread
    | false => exact ⟨by rintro b ⟨⟩, fun m _ => hlong s hs⟩

theorem pauseActivity_foreground_keeps {i : Nat} {phase : Phase} {seconds : Option F64} {token : Option CancellationToken} :
    Keeps (SettledOn handler .main) (BrokenOn handler .main) (pauseActivity phase (.foreground i) seconds token) :=
  pauseActivity_keeps settled_precedes_broken (fun s hs => by simp [Entry.breaksOff, hs])
    fun s hs => broken_entry rfl rfl (by simp [Entry.breaksOff, hs])

/-- A background step's pause is outside its events. -/
theorem pauseActivity_background_keeps {i : Nat} {phase : Phase} {seconds : Option F64} {token : Option CancellationToken} :
    Keeps (SettledOn handler (.background i)) (SettledOn handler (.background i))
      (pauseActivity phase (.background i) seconds token) :=
  pauseActivity_keeps settled_precedes_settled (fun s hs => by rfl) fun s hs => settled_entry rfl rfl

include hhandler

theorem executePendingActivity_keeps (hsite : Exposed thread site) (token : Option CancellationToken) {U : List Entry → Prop}
    (hU : Precedes (SettledOn handler thread) U)
    (hpause : ∀ phase seconds, Keeps (SettledOn handler thread) U (pauseActivity phase site seconds token)) :
    Keeps (SettledOn handler thread) U (executePendingActivity Γ executor controls site activity token) := by
  refine Keeps.bind settled_precedes_settled hU (hpause .before _) fun waited => ?_
  cases waited with
  | false => exact Keeps.pure settled_nil
  | true =>
    refine Keeps.bind settled_precedes_settled hU (executeForegroundActivity_keeps hhandler hsite token hU) fun result => ?_
    exact (hpause .after _).andPure _

theorem backgroundThread_keeps {i : Nat} (cap : Option Nat) (token : Option CancellationToken) :
    Keeps (SettledOn handler (.background i)) (SettledOn handler (.background i))
      (backgroundThread Γ executor controls cap token i activity) := by
  refine Keeps.bind settled_precedes_settled settled_precedes_settled ((isCancelled_keeps (fun _ => rfl) token).andPure _)
    fun permitted => ?_
  cases permitted with
  | false => exact Keeps.pure settled_nil
  | true =>
    exact executePendingActivity_keeps hhandler (exposed_background i) token settled_precedes_settled
      fun _ _ => pauseActivity_background_keeps

/-! ## The method -/

/-- A background thread is settled on its own thread and says nothing on the others. -/
theorem backgroundThread_settled {i : Nat} (cap : Option Nat) (token : Option CancellationToken) :
    Keeps (SettledOn handler thread) (SettledOn handler thread) (backgroundThread Γ executor controls cap token i activity) := by
  by_cases h : thread = .background i
  · subst h
    exact backgroundThread_keeps hhandler cap token
  · exact keeps_of_within (backgroundThread_within (P := fun _ => True) trivial cap token) fun h' => h h'.symm

/-- The method is settled on every thread when its sequential part is. -/
theorem executeActivities_keeps (activities : List Activity) (token : Option CancellationToken) (cap : Option Nat)
    {U : List Entry → Prop} (hU : Precedes (SettledOn handler thread) U)
    (hforeground : ∀ i activity, Keeps (SettledOn handler thread) U
      (executePendingActivity Γ executor controls (.foreground i) activity token)) :
    Keeps (SettledOn handler thread) U (executeActivities Γ executor controls activities token cap) := by
  refine Keeps.bind settled_precedes_settled hU (Keeps.forEach settled_nil settled_precedes_settled hU _ (fun i a _ => ?_) 0)
    fun joined => ?_
  · exact (backgroundThread_settled hhandler cap token).catchUnwind.andPure _
  · refine (Keeps.whileSome settled_nil settled_precedes_settled hU _ (fun i a _ => ?_) 0).andPure _
    exact (hforeground i a).andPure _

/-! ## The run on its main thread -/

section Main

variable {experiment : Experiment} {config : RunConfig} {m : MethodOutcome}

theorem runHypothesisPhase_keeps (phase : Phase) :
    Keeps (SettledOn handler .main) (BrokenOn handler .main) (runHypothesisPhase Γ executor controls phase experiment) := by
  unfold runHypothesisPhase
  split
  · exact Keeps.pure settled_nil
  · next hypothesis _ =>
    refine (opened_keeps hhandler (x := _) rfl ?_).mono (fun _ => id) fun _ => And.right
    have hprobes : Keeps (SettledOn handler .main) (BrokenOn handler .main)
        (evaluateHypothesis Γ executor controls phase hypothesis) := by
      refine (Keeps.forEach settled_nil settled_precedes_settled settled_precedes_broken _ (fun i probe _ => ?_) 0).andPure _
      exact ((executeSingleActivity_keeps hhandler (exposed_hypothesis phase i) none).mono (fun _ => id) fun _ => And.right).andPure _
    exact Keeps.bind settled_precedes_finishes settled_precedes_broken hprobes fun _ => ending_keeps hhandler rfl _

theorem runRollbacks_keeps (strategy : RollbackStrategy) (needs : Bool) :
    Keeps (SettledOn handler .main) (BrokenOn handler .main) (runRollbacks Γ executor controls experiment strategy needs) := by
  unfold runRollbacks
  split
  · exact Keeps.pure settled_nil
  · refine (opened_keeps hhandler (x := _) rfl ?_).mono (fun _ => id) fun _ => And.right
    refine Keeps.bind settled_precedes_finishes settled_precedes_broken ?_ fun _ => ending_keeps hhandler rfl _
    exact Keeps.forEach settled_nil settled_precedes_settled settled_precedes_broken _
      (fun i a _ => executeForegroundActivity_keeps hhandler (exposed_rollback i) none settled_precedes_broken) 0

omit hhandler

theorem sampleProbeRound_keeps (round : Nat) (hypothesis : Hypothesis) :
    Keeps (SettledOn handler .main) (BrokenOn handler .main) (sampleProbeRound Γ executor (.post round) hypothesis) := by
  refine (Keeps.forEach settled_nil settled_precedes_settled settled_precedes_broken _ (fun i probe _ => ?_) 0).andPure _
  exact (call_keeps (exposed_post round i)).andPure _

theorem collectPostSamples_keeps (hypothesis : Hypothesis) (token : Option CancellationToken) (rounds round : Nat)
    (perProbe : ProbeSamples) :
    Keeps (SettledOn handler .main) (BrokenOn handler .main)
      (collectPostSamples Γ executor hypothesis token rounds round perProbe) := by
  induction rounds generalizing round perProbe with
  | zero =>
    unfold collectPostSamples
    refine Keeps.bind settled_precedes_settled settled_precedes_broken (sampleProbeRound_keeps round hypothesis) fun s => ?_
    refine Keeps.bind settled_precedes_settled settled_precedes_broken (isCancelled_keeps (fun _ => rfl) token) fun cancelled => ?_
    dsimp only
    split <;> exact Keeps.pure settled_nil
  | succ rounds ih =>
    unfold collectPostSamples
    refine Keeps.bind settled_precedes_settled settled_precedes_broken (sampleProbeRound_keeps round hypothesis) fun s => ?_
    refine Keeps.bind settled_precedes_settled settled_precedes_broken (isCancelled_keeps (fun _ => rfl) token) fun cancelled => ?_
    dsimp only
    split
    · exact Keeps.pure settled_nil
    · exact ih (round + 1) _

theorem postSampling_keeps (token : Option CancellationToken) :
    Keeps (SettledOn handler .main) (BrokenOn handler .main) (postSampling Γ executor experiment token) := by
  unfold postSampling
  split
  · exact Keeps.pure settled_nil
  · exact (collectPostSamples_keeps _ token _ 0 []).andPure _

theorem stopLoad_keeps (handle : Option LoadHandle) (loadExecutor : Option LoadExecutor) :
    Keeps (SettledOn handler .main) (BrokenOn handler .main) (stopLoad handle loadExecutor) := by
  unfold stopLoad
  split
  · next handle loadExecutor =>
    cases ho : loadExecutor.stop handle with
    | returned r =>
      refine Keeps.after settled_precedes_settled settled_precedes_broken rfl (settled_entry rfl rfl) ?_
      refine Keeps.after settled_precedes_settled settled_precedes_broken rfl settled_nil ?_
      cases r <;> exact Keeps.pure settled_nil
    | unwound message => exact ⟨by rintro a ⟨⟩, fun _ _ => broken_entry rfl rfl rfl⟩
  · exact Keeps.pure settled_nil

/-- A load test that starts is settled; one that does not breaks the run off. -/
theorem startLoad_ensures :
    Ensures (startLoad experiment config) fun w o =>
      (∃ handle, o = .returned (.ok handle) ∧ SettledOn handler .main w) ∨
        ((∀ handle, o ≠ .returned (.ok handle)) ∧ BrokenOn handler .main w) := by
  unfold startLoad
  split
  · next loadConfig loadExecutor _ _ =>
    cases ho : loadExecutor.start loadConfig with
    | returned r =>
      cases r with
      | ok handle => exact .inl ⟨some handle, rfl, settled_entry rfl rfl⟩
      | error e => exact .inr ⟨by rintro handle ⟨⟩, broken_entry rfl rfl rfl⟩
    | unwound message => exact .inr ⟨by rintro handle ⟨⟩, broken_entry rfl rfl rfl⟩
  · exact .inl ⟨none, rfl, settled_nil⟩

include hhandler

theorem endHalted_keeps (halt : HaltRecord) :
    Keeps (FinishesOn handler .main .experiment) (BrokenOn handler .main)
      (endHalted Γ executor controls experiment config m halt) := by
  refine Keeps.bind settled_precedes_finishes settled_precedes_broken (stopLoad_keeps _ _) fun _ => ?_
  refine Keeps.bind settled_precedes_finishes settled_precedes_broken (runRollbacks_keeps hhandler _ _) fun _ => ?_
  exact ending_keeps hhandler rfl _

theorem endInterrupted_keeps :
    Keeps (FinishesOn handler .main .experiment) (BrokenOn handler .main)
      (endInterrupted Γ executor controls experiment config m) := by
  refine Keeps.bind settled_precedes_finishes settled_precedes_broken (stopLoad_keeps _ _) fun _ => ?_
  refine Keeps.bind settled_precedes_finishes settled_precedes_broken (runRollbacks_keeps hhandler _ _) fun _ => ?_
  exact ending_keeps hhandler rfl _

theorem endRegular_keeps :
    Keeps (FinishesOn handler .main .experiment) (BrokenOn handler .main)
      (endRegular Γ executor controls experiment config m) := by
  refine Keeps.bind settled_precedes_finishes settled_precedes_broken (postSampling_keeps _) fun _ => ?_
  refine Keeps.bind settled_precedes_finishes settled_precedes_broken (stopLoad_keeps _ _) fun _ => ?_
  refine Keeps.bind (L := SettledOn handler .main) settled_precedes_finishes settled_precedes_broken ?_ fun _ => ?_
  · refine Keeps.bind settled_precedes_settled settled_precedes_broken (isCancelled_keeps (fun _ => rfl) _) fun skip => ?_
    cases skip with
    | true => exact Keeps.pure settled_nil
    | false => exact runHypothesisPhase_keeps hhandler .after
  · refine Keeps.bind settled_precedes_finishes settled_precedes_broken (isCancelled_keeps (fun _ => rfl) _) fun _ => ?_
    refine Keeps.bind settled_precedes_finishes settled_precedes_broken (runRollbacks_keeps hhandler _ _) fun _ => ?_
    refine Keeps.bind settled_precedes_finishes settled_precedes_broken (isCancelled_keeps (fun _ => rfl) _) fun _ => ?_
    exact ending_keeps hhandler rfl _

theorem endAborted_keeps (before : Option HypothesisResult) :
    Keeps (FinishesOn handler .main .experiment) (BrokenOn handler .main)
      (endAborted Γ executor controls experiment config before) := by
  refine Keeps.bind settled_precedes_finishes settled_precedes_broken (runRollbacks_keeps hhandler _ _) fun _ => ?_
  exact ending_keeps hhandler rfl _

theorem methodPhase_keeps (before : Option HypothesisResult) (handle : Option LoadHandle) :
    Keeps (SettledOn handler .main) (BrokenOn handler .main)
      (methodPhase Γ executor controls experiment config before handle) := by
  refine (opened_keeps hhandler (x := _) rfl ?_).mono (fun _ => id) fun _ => And.right
  have hsampler : Keeps (SettledOn handler .main) (SettledOn handler .main) (duringSampler Γ executor experiment) :=
    keeps_of_within (duringSampler_within (P := fun _ => True) (fun _ _ => trivial) experiment) (by decide)
  have hguards : Keeps (SettledOn handler .main) (SettledOn handler .main) (guardMonitor Γ executor experiment) :=
    keeps_of_within (guardMonitor_within (P := fun _ => True) (fun _ _ => trivial) experiment) (by decide)
  refine Keeps.bind settled_precedes_finishes settled_precedes_broken (hsampler.of_returns (duringSampler_returns _)) fun _ => ?_
  refine Keeps.bind settled_precedes_finishes settled_precedes_broken (hguards.of_returns (guardMonitor_returns _)) fun halt => ?_
  refine Keeps.bind settled_precedes_finishes settled_precedes_broken ?_ fun _ => ending_keeps hhandler rfl _
  refine executeActivities_keeps hhandler _ _ _ settled_precedes_broken fun i activity => ?_
  exact executePendingActivity_keeps hhandler (exposed_foreground i) _ settled_precedes_broken
    fun _ _ => pauseActivity_foreground_keeps

theorem endRun_keeps (halt : Option HaltRecord) :
    Keeps (FinishesOn handler .main .experiment) (BrokenOn handler .main)
      (endRun Γ executor controls experiment config m halt) := by
  unfold endRun
  split
  · exact endHalted_keeps hhandler _
  · refine Keeps.bind settled_precedes_finishes settled_precedes_broken (isCancelled_keeps (fun _ => rfl) _) fun interrupted => ?_
    cases interrupted with
    | true => exact endInterrupted_keeps hhandler
    | false => exact endRegular_keeps hhandler

theorem runMethod_keeps (before : Option HypothesisResult) :
    Keeps (FinishesOn handler .main .experiment) (BrokenOn handler .main)
      (runMethod Γ executor controls experiment config before) := by
  rcases @startLoad_ensures handler experiment config with ⟨handle, ho, hw⟩ | ⟨hno, hw⟩
  · refine Keeps.after settled_precedes_finishes settled_precedes_broken ho hw ?_
    refine Keeps.bind settled_precedes_finishes settled_precedes_broken (methodPhase_keeps hhandler before handle) fun p => ?_
    exact (endRun_keeps hhandler p.2).andPure _
  · -- the load test did not start: the run is over with its event open
    unfold runMethod
    cases ho : (startLoad experiment config).outcome with
    | returned r =>
      cases r with
      | error e =>
        rw [bind_of_returned ho]
        refine ⟨fun _ _ => .inr ?_, by rintro m ⟨⟩⟩
        simpa using hw
      | ok handle => exact absurd ho (hno handle)
    | unwound message =>
      rw [bind_of_unwound ho]
      exact ⟨by rintro r ⟨⟩, fun _ _ => hw⟩

theorem runStarted_keeps :
    Keeps (SettledOn handler .main) (SettledOn handler .main) (runStarted Γ executor controls experiment config) := by
  refine (opened_keeps hhandler (x := _) rfl ?_).mono (fun _ => id) fun _ => And.left
  refine Keeps.bind settled_precedes_finishes settled_precedes_broken (runHypothesisPhase_keeps hhandler .before) fun before => ?_
  dsimp only
  split
  · exact (endAborted_keeps hhandler before).andPure _
  · refine Keeps.bind settled_precedes_finishes settled_precedes_broken (isCancelled_keeps (fun _ => rfl) _) fun cancelled => ?_
    cases cancelled with
    | true => exact ending_keeps hhandler rfl _
    | false => exact runMethod_keeps hhandler before

end Main

/-! ## The run on a background step's thread -/

section Background

variable {experiment : Experiment} {config : RunConfig} {i : Nat}

omit hhandler in
/-- A part of the run on its main thread. -/
theorem keeps_of_main {x : Traced Entry α} {P : Place → Prop} (h : Always (Entry.Within .main P) x) :
    Keeps (SettledOn handler (.background i)) (SettledOn handler (.background i)) x := keeps_of_within h (by simp)

theorem runMethod_keeps_background (before : Option HypothesisResult) :
    Keeps (SettledOn handler (.background i)) (SettledOn handler (.background i))
      (runMethod Γ executor controls experiment config before) := by
  have hsettled : Precedes (SettledOn handler (.background i)) (SettledOn handler (.background i)) := settled_precedes_settled
  refine Keeps.bind hsettled hsettled (keeps_of_main (startLoad_within (P := fun _ => True) trivial experiment config)) fun r => ?_
  cases r with
  | error e => exact Keeps.pure settled_nil
  | ok handle =>
    refine Keeps.bind hsettled hsettled ?_ fun p => Keeps.andPure _ ?_
    · refine Keeps.bind hsettled hsettled (keeps_of_main (emit_within (P := fun _ => True) _)) fun _ => ?_
      refine Keeps.bind hsettled hsettled (keeps_of_within (duringSampler_within (P := fun _ => True) (fun _ _ => trivial) _)
        (by simp)) fun _ => ?_
      refine Keeps.bind hsettled hsettled (keeps_of_within (guardMonitor_within (P := fun _ => True) (fun _ _ => trivial) _)
        (by simp)) fun halt => ?_
      refine Keeps.bind hsettled hsettled (executeActivities_keeps hhandler _ _ _ hsettled fun j a => ?_) fun _ => ?_
      · have hstep : Always (Entry.Within (Site.foreground j).thread fun _ => True)
            (executePendingActivity Γ executor controls (.foreground j) a (some (methodToken Γ config halt.isSome))) :=
          executePendingActivity_within trivial _
        exact keeps_of_main hstep
      · exact (keeps_of_main (emit_within (P := fun _ => True) _)).andPure _
    · exact keeps_of_main (endRun_within p.2)

theorem runStarted_keeps_background :
    Keeps (SettledOn handler (.background i)) (SettledOn handler (.background i))
      (runStarted Γ executor controls experiment config) := by
  have hsettled : Precedes (SettledOn handler (.background i)) (SettledOn handler (.background i)) := settled_precedes_settled
  refine Keeps.bind hsettled hsettled (keeps_of_main (emit_within (P := fun _ => True) _)) fun _ => ?_
  refine Keeps.bind hsettled hsettled (keeps_of_main (runHypothesisPhase_within (P := fun _ => True) (fun _ => trivial) _)) fun before => ?_
  dsimp only
  split
  · exact (keeps_of_main (endAborted_within before)).andPure _
  · refine Keeps.bind hsettled hsettled (keeps_of_main (isCancelled_within (P := fun _ => True) _ rfl trivial)) fun cancelled => ?_
    cases cancelled with
    | true => exact (keeps_of_main (emit_within (P := fun _ => True) _)).andPure _
    | false => exact runMethod_keeps_background hhandler before

end Background

/-- A run that is not a probe-only observation is settled on every activity thread. -/
theorem runExperiment_settled {experiment : Experiment} {config : RunConfig} (hmode : config.baselineMode ≠ .only)
    (i : Option Nat) :
    SettledOn handler (activityThread i) (runExperiment Γ executor controls experiment config).trace := by
  have hstarted : Keeps (SettledOn handler (activityThread i)) (SettledOn handler (activityThread i))
      (runStarted Γ executor controls experiment config) := by
    cases i with
    | none => exact runStarted_keeps hhandler
    | some i => exact runStarted_keeps_background hhandler
  refine Keeps.trace ?_
  unfold runExperiment
  rw [if_neg hmode]
  split
  · exact Keeps.pure settled_nil
  · split
    · exact Keeps.pure settled_nil
    · refine Keeps.bind settled_precedes_settled settled_precedes_settled (isCancelled_keeps (fun _ => rfl) _) fun cancelled => ?_
      cases cancelled with
      | true => exact Keeps.pure settled_nil
      | false => exact hstarted

omit hhandler

/-! ## Probe-only observations -/

/-- An activity without handlers to tell. -/
theorem executeSingleActivity_unheard (site : Site) (activity : Activity) (token : Option CancellationToken) :
    Always (fun e => e.receivedOn handler thread = none) (executeSingleActivity Γ executor ⟨[]⟩ site activity token) := by
  have hemit : ∀ event, Always (fun e => e.receivedOn handler thread = none) (ControlRegistry.emit ⟨[]⟩ site.thread event) :=
    fun event => Always.pure ()
  have hread : Always (fun e => e.receivedOn handler thread = none) (isCancelled token (.dispatch site)) := by
    cases token with
    | none => exact Always.pure _
    | some token => exact Always.bind (Always.log rfl) fun _ => Always.pure _
  refine Always.bind (hemit _) fun _ => Always.bind hread fun cancelled => ?_
  cases cancelled with
  | true => exact Always.pure _
  | false =>
    refine Always.bind (Always.bind (Always.log rfl) fun _ => Always.settle _) fun _ => ?_
    exact Always.bind (hemit _) fun _ => Always.pure _

/-- A probe-only observation has no handlers to tell. -/
theorem runProbeOnly_silent (experiment : Experiment) (config : RunConfig) :
    eventsOn handler thread (runProbeOnly Γ executor experiment config).trace = [] := by
  have hread : ∀ moment, Always (fun e => e.receivedOn handler thread = none) (isCancelled config.cancellationToken moment) := by
    intro moment
    cases config.cancellationToken with
    | none => exact Always.pure _
    | some token => exact Always.bind (Always.log rfl) fun _ => Always.pure _
  refine List.filterMap_eq_nil_iff.mpr ?_
  change All (fun e => Entry.receivedOn handler thread e = none) _
  refine Keeps.trace ?_
  unfold runProbeOnly
  split
  · exact Always.pure _
  · refine Always.bind (hread _) fun cancelled => ?_
    cases cancelled with
    | true => exact Always.pure _
    | false =>
      refine Always.bind (Always.bind (Always.forEach _ (fun i probe _ => ?_) 0) fun _ => Always.pure _) fun _ => ?_
      · exact Always.bind (executeSingleActivity_unheard _ _ none) fun _ => Always.pure _
      · exact Always.bind (hread _) fun _ => Always.pure _

/-- On every activity thread the events a handler receives are well bracketed exactly when the run is a probe-only observation or
nothing breaks an activity or the run off on that thread. -/
theorem lifecycle_bracketed_iff (Γ : RunnerCtx) (executor : ActivityExecutor) (controls : ControlRegistry) (experiment : Experiment)
    (config : RunConfig) (handler : Fin controls.handlers.length) (i : Option Nat) :
    Bracketed (eventsOn handler (activityThread i) (runExperiment Γ executor controls experiment config).trace) ↔
      (config.baselineMode = .only ∨ ∀ e ∈ (runExperiment Γ executor controls experiment config).trace,
        e.thread = activityThread i → e.breaksOff = false) := by
  by_cases hmode : config.baselineMode = .only
  · have hprobe : runExperiment Γ executor controls experiment config = runProbeOnly Γ executor experiment config := if_pos hmode
    rw [hprobe, runProbeOnly_silent]
    exact iff_of_true .nil (.inl hmode)
  · rw [bracketed_eventsOn, (runExperiment_settled handler.isLt hmode i).balanced_iff]
    simp [hmode, Entry.faultOn]

/-! ## A step cancelled at its dispatch boundary -/

/-- A token that fires while the first sequential step's event is being handled. -/
def firesAtDispatch : CancellationToken where
  isCancelled moment := moment ∉ [.start, .beforeMethod, .pause .before (.foreground 0)]

/-- An experiment of one action, with a handler, and a token that fires before the action is dispatched: the handler receives the
Before event of the action and no After event. -/
theorem lifecycle_bracketed_false :
    ¬ ∀ (Γ : RunnerCtx) (executor : ActivityExecutor) (controls : ControlRegistry) (experiment : Experiment) (config : RunConfig)
      (handler : Fin controls.handlers.length) (i : Option Nat),
      Bracketed (eventsOn handler (activityThread i) (runExperiment Γ executor controls experiment config).trace) := by
  intro h
  have h := h stillCtx succeedingExecutor ⟨[⟨fun _ => .returned ()⟩]⟩ { method := [nativeAction "inject latency"] }
    { cancellationToken := some firesAtDispatch } 0 none
  have hevents : eventsOn 0 (activityThread none) (runExperiment stillCtx succeedingExecutor ⟨[⟨fun _ => .returned ()⟩]⟩
      { method := [nativeAction "inject latency"] } { cancellationToken := some firesAtDispatch }).trace =
      [.beforeExperiment, .beforeMethod, .beforeActivity "inject latency", .afterMethod, .afterExperiment] := by decide
  rw [show ((0 : Fin 1) : Nat) = 0 from rfl, hevents] at h
  have := Balanced.pending_eq_zero h
  simp [pending, LifecycleEvent.mark, Mark.weight] at this

end Tumult
