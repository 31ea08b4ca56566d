import Tumult.Runner.Live

/-!
# What a run records

The method records one result for each step handed to a provider, all of them successes exactly when its answers are sound. The end
of a run attempts the rollbacks its status calls for, each once and in order, whatever they come to.
-/

namespace Tumult

open Traced

variable {Γ : RunnerCtx} {executor : ActivityExecutor} {controls : ControlRegistry} {experiment : Experiment} {config : RunConfig}

/-! ## What the method records -/

/-- Every answer in the trace lets the run complete. -/
def Sound (Γ : RunnerCtx) (w : List Entry) : Prop := ∀ e ∈ w, e.sound Γ = true

@[simp] theorem sound_nil : Sound Γ [] := by simp [Sound]

@[simp] theorem sound_cons {e : Entry} {w : List Entry} : Sound Γ (e :: w) ↔ e.sound Γ = true ∧ Sound Γ w := by simp [Sound]

@[simp] theorem sound_append {v w : List Entry} : Sound Γ (v ++ w) ↔ Sound Γ v ∧ Sound Γ w := by
  simp only [Sound, List.mem_append]
  exact ⟨fun h => ⟨fun e he => h e (.inl he), fun e he => h e (.inr he)⟩, fun h e he => he.elim (h.1 e) (h.2 e)⟩

/-- The results recorded for a trace: one for each step handed to a provider, all of them successes exactly when the trace is
sound. -/
structure Recorded (Γ : RunnerCtx) (w : List Entry) (executed : List Executed) : Prop where
  dispatched : ∀ site activity answer, .called site activity answer ∈ w → site.isMethod = true → ∃ x ∈ executed, x.activity = activity
  sound : Sound Γ w ↔ ∀ x ∈ executed, x.result.status = .succeeded
  result : ∀ x ∈ executed, x.result.name = x.activity.name ∧ x.result.activityType = x.activity.activityType

theorem Recorded.append {v w : List Entry} {xs ys : List Executed} (hv : Recorded Γ v xs) (hw : Recorded Γ w ys) :
    Recorded Γ (v ++ w) (xs ++ ys) where
  dispatched site activity answer he hsite := by
    rcases List.mem_append.mp he with he | he
    · obtain ⟨x, hx, ha⟩ := hv.dispatched _ _ _ he hsite
      exact ⟨x, List.mem_append_left _ hx, ha⟩
    · obtain ⟨x, hx, ha⟩ := hw.dispatched _ _ _ he hsite
      exact ⟨x, List.mem_append_right _ hx, ha⟩
  sound := by
    rw [sound_append, hv.sound, hw.sound]
    simp only [List.mem_append]
    exact ⟨fun h x hx => hx.elim (h.1 x) (h.2 x), fun h => ⟨fun x hx => h x (.inl hx), fun x hx => h x (.inr hx)⟩⟩
  result x hx := (List.mem_append.mp hx).elim (hv.result x) (hw.result x)

/-- The order of the results does not matter. -/
theorem Recorded.perm {w : List Entry} {xs ys : List Executed} (h : Recorded Γ w xs) (hmem : ∀ x, x ∈ xs ↔ x ∈ ys) :
    Recorded Γ w ys where
  dispatched site activity answer he hsite := by
    obtain ⟨x, hx, ha⟩ := h.dispatched site activity answer he hsite
    exact ⟨x, (hmem x).mp hx, ha⟩
  sound := h.sound.trans ⟨fun h x hx => h x ((hmem x).mpr hx), fun h x hx => h x ((hmem x).mp hx)⟩
  result x hx := h.result x ((hmem x).mpr hx)

/-- An entry that is no step of the method and lets the run complete. -/
def Entry.Aside (Γ : RunnerCtx) (e : Entry) : Prop := e.sound Γ = true ∧ ∀ site activity answer, e = .called site activity answer → site.isMethod = false

/-- What stands aside from the method records nothing. -/
theorem Recorded.aside {w : List Entry} (h : All (Entry.Aside Γ) w) : Recorded Γ w [] where
  dispatched site activity answer he hsite := by
    have := (h _ he).2 site activity answer rfl
    simp [hsite] at this
  sound := iff_of_true (fun e he => (h e he).1) (by simp)
  result := by simp

theorem Recorded.before {v w : List Entry} {xs : List Executed} (hv : All (Entry.Aside Γ) v) (hw : Recorded Γ w xs) :
    Recorded Γ (v ++ w) xs := (Recorded.aside hv).append hw

theorem Recorded.andThen {v w : List Entry} {xs : List Executed} (hv : Recorded Γ v xs) (hw : All (Entry.Aside Γ) w) :
    Recorded Γ (v ++ w) xs := by simpa using hv.append (Recorded.aside hw)

theorem emit_aside (thread : Thread) (event : LifecycleEvent) : Always (Entry.Aside Γ) (controls.emit thread event) := by
  refine Always.bind (Always.forEach _ (fun h handler _ => ?_) 0) fun _ => Always.pure _
  exact Always.bind (Always.log ⟨rfl, by rintro s a o ⟨⟩⟩) fun _ => Always.catchUnwind (Always.settle _)

theorem isCancelled_aside (token : Option CancellationToken) {moment : Moment} (h : ∀ b, (Entry.read moment b).sound Γ = true) :
    Always (Entry.Aside Γ) (isCancelled token moment) := by
  cases token with
  | none => exact Always.pure _
  | some token => exact Always.bind (Always.log ⟨h _, by rintro s a o ⟨⟩⟩) fun _ => Always.pure _

section Step

variable {site : Site} {activity : Activity}

/-- A result of the activity, a success exactly when the trace is sound. -/
def Tells (Γ : RunnerCtx) (activity : Activity) (w : List Entry) (result : ActivityResult) : Prop :=
  result.name = activity.name ∧ result.activityType = activity.activityType ∧ (result.status = .succeeded ↔ Sound Γ w)

/-- A step of the method that returns tells its result; one that panics has an answer that is not sound. -/
theorem executeSingleActivity_tells (hsite : site.isMethod = true) (token : Option CancellationToken) :
    Ensures (executeSingleActivity Γ executor controls site activity token) fun w o =>
      o.elim (Tells Γ activity w) fun _ => ¬ Sound Γ w := by
  have hsound : ∀ outcome, (Entry.called site activity (.returned outcome)).sound Γ = outcome.success := by
    intro outcome
    cases site <;> first | rfl | cases hsite
  have hpanic : ∀ m, (Entry.called site activity (.unwound m)).sound Γ = false := by
    intro m
    cases site <;> first | rfl | cases hsite
  have hemit : ∀ event, ∃ w, controls.emit site.thread event = ⟨w, .returned ()⟩ ∧ Sound Γ w := by
    intro event
    obtain ⟨⟨⟩, hreturned⟩ := @emit_returns controls site.thread event
    exact ⟨_, by rw [← hreturned], fun e he => ((emit_aside site.thread event).trace e he).1⟩
  obtain ⟨w, hbefore, hw⟩ := hemit (.beforeActivity activity.name)
  obtain ⟨w', hafter, hw'⟩ := hemit (.afterActivity activity.name)
  have htells : ∀ outcome, Tells Γ activity (w ++ (.called site activity (.returned outcome) :: w'))
      (makeResult activity (Γ.now (.dispatch site)) outcome) := by
    intro outcome
    simp [Tells, makeResult, hsound, hw, hw']
  unfold executeSingleActivity
  rw [hbefore, hafter, call_eq]
  cases token with
  | none =>
    cases ho : executor.execute site activity with
    | returned outcome => simpa [Ensures, bind, pure, isCancelled] using htells outcome
    | unwound m => simp [Ensures, bind, isCancelled, hpanic]
  | some token =>
    rw [isCancelled_some]
    cases hc : token.isCancelled (.dispatch site) with
    | true => simp [Ensures, bind, pure, Tells, unfinishedResult, Entry.sound]
    | false =>
      cases ho : executor.execute site activity with
      | returned outcome => simpa [Ensures, bind, pure, Tells, Entry.sound, makeResult] using htells outcome
      | unwound m => simp [Ensures, bind, hpanic]

/-- A panic is told as a failure. -/
theorem executeForegroundActivity_tells (hsite : site.isMethod = true) (token : Option CancellationToken) :
    ∃ result, (executeForegroundActivity Γ executor controls site activity token).outcome = .returned result ∧
      Tells Γ activity (executeForegroundActivity Γ executor controls site activity token).trace result := by
  have htells := @executeSingleActivity_tells Γ executor controls site activity hsite token
  unfold Ensures at htells
  unfold executeForegroundActivity
  cases ho : (executeSingleActivity Γ executor controls site activity token).outcome with
  | returned result =>
    rw [ho] at htells
    refine ⟨result, ?_, ?_⟩
    · simp [bind, pure, catchUnwind, ho]
    · simpa [bind, pure, catchUnwind, ho] using htells
  | unwound m =>
    rw [ho] at htells
    refine ⟨_, by simp only [bind, catchUnwind, ho]; rfl, ?_⟩
    simpa [bind, pure, catchUnwind, ho, Tells, unfinishedResult] using htells

/-- A pause that ends is sound, and one that unwinds is not. -/
theorem pauseActivity_sound (phase : Phase) (seconds : Option F64) (token : Option CancellationToken) :
    Ensures (pauseActivity phase site seconds token) fun w o =>
      match o with
      | .returned _ => Sound Γ w
      | .unwound _ => ¬ Sound Γ w := by
  have hread : ∃ b w, (do
      let cancelled ← isCancelled token (.pause phase site)
      pure !cancelled : Traced Entry Bool) = ⟨w, .returned b⟩ ∧ Sound Γ w := by
    cases token with
    | none => exact ⟨true, [], rfl, by simp⟩
    | some token => exact ⟨!token.isCancelled (.pause phase site), [.read (.pause phase site) _], rfl, by simp [Entry.sound]⟩
  obtain ⟨b, w, hread, hw⟩ := hread
  unfold pauseActivity
  split
  · rw [hread]
    exact hw
  · next s _ =>
    cases hs : s.fitsDuration with
    | true =>
      simp only [if_true]
      rw [hread]
      simp [Ensures, bind, log, Entry.sound, hs, hw]
    | false => simp [Ensures, bind, log, unwind, Entry.sound, hs]

/-- What a step leaves: nothing, or its result; one whose pause unwinds is not sound. -/
def Steps (Γ : RunnerCtx) (activity : Activity) (w : List Entry) : Outcome (Option ActivityResult) → Prop
  | .returned result => Recorded Γ w (result.map (Executed.mk activity)).toList
  | .unwound _ => ¬ Sound Γ w ∧ ∀ site a answer, .called site a answer ∈ w → a = activity

theorem recorded_of_tells {w : List Entry} {result : ActivityResult} (htells : Tells Γ activity w result)
    (hcalls : ∀ site a answer, .called site a answer ∈ w → a = activity) : Recorded Γ w [⟨activity, result⟩] where
  dispatched site a answer he _ := ⟨_, List.mem_singleton_self _, (hcalls site a answer he).symm⟩
  sound := by simpa using htells.2.2.symm
  result := by simpa using ⟨htells.1, htells.2.1⟩

theorem pauseActivity_uncalled (phase : Phase) (seconds : Option F64) (token : Option CancellationToken) :
    Always (fun e => ∀ s a answer, e ≠ .called s a answer) (pauseActivity phase site seconds token) := by
  have hread : Always (fun e => ∀ s a answer, e ≠ .called s a answer) (do
      let cancelled ← isCancelled token (.pause phase site)
      pure !cancelled) := by
    refine Always.bind ?_ fun _ => Always.pure _
    cases token with
    | none => exact Always.pure _
    | some token => exact Always.bind (Always.log (by rintro s a o ⟨⟩)) fun _ => Always.pure _
  unfold pauseActivity
  split
  · exact hread
  · refine Always.bind (Always.log (by rintro s a o ⟨⟩)) fun _ => ?_
    split
    · exact hread
    · exact Always.unwind _

theorem executePendingActivity_steps (hsite : site.isMethod = true) (token : Option CancellationToken) :
    Ensures (executePendingActivity Γ executor controls site activity token) (Steps Γ activity) := by
  obtain ⟨result, hresult, htells⟩ := @executeForegroundActivity_tells Γ executor controls site activity
    hsite token
  have hcalls : ∀ s a answer, .called s a answer ∈ (executeForegroundActivity Γ executor controls site activity token).trace →
      a = activity := by
    have hall : Always (fun e => ∀ s a answer, e = .called s a answer → a = activity)
        (executeForegroundActivity Γ executor controls site activity token) :=
      executeForegroundActivity_always (by rintro h ev s a o ⟨⟩) token (by rintro - c s a o ⟨⟩) (by rintro c s a o ⟨⟩; rfl)
    exact fun s a answer he => hall.trace _ he s a answer rfl
  have hpause : ∀ phase seconds w o, pauseActivity phase site seconds token = ⟨w, o⟩ →
      (match o with | .returned _ => Sound Γ w | .unwound _ => ¬ Sound Γ w) ∧ ∀ s a answer, .called s a answer ∉ w := by
    intro phase seconds w o h
    have hs := @pauseActivity_sound Γ site phase seconds token
    have hu := (@pauseActivity_uncalled site phase seconds token).trace
    rw [h] at hs hu
    exact ⟨hs, fun s a answer he => hu _ he s a answer rfl⟩
  unfold executePendingActivity
  obtain ⟨w, o, hbefore⟩ : ∃ w o, pauseActivity .before site activity.pauseBeforeS token = ⟨w, o⟩ := ⟨_, _, rfl⟩
  obtain ⟨w', o', hafter⟩ : ∃ w o, pauseActivity .after site activity.pauseAfterS token = ⟨w, o⟩ := ⟨_, _, rfl⟩
  obtain ⟨hs, hu⟩ := hpause _ _ _ _ hbefore
  obtain ⟨hs', hu'⟩ := hpause _ _ _ _ hafter
  rw [hbefore, hafter]
  cases o with
  | unwound m => exact ⟨hs, fun s a answer he => absurd he (hu s a answer)⟩
  | returned waited =>
    cases waited with
    | false =>
      refine ⟨fun s a answer he => ?_, ?_, by simp⟩
      · exact absurd (by simpa [bind, pure] using he) (hu s a answer)
      · exact iff_of_true (by simpa [bind, pure] using hs) (by simp)
    | true =>
      have hmid : Recorded Γ w [] := ⟨fun s a answer he => absurd he (hu s a answer), iff_of_true hs (by simp), by simp⟩
      cases o' with
      | unwound m =>
        simp only [Ensures, Steps, bind, hresult, if_true, List.mem_append]
        refine ⟨by simp [hs'], ?_⟩
        · intro s a answer he
          rcases he with he | he | he
          · exact absurd he (hu s a answer)
          · exact hcalls s a answer he
          · exact absurd he (hu' s a answer)
      | returned b =>
        have hend : Recorded Γ w' [] := ⟨fun s a answer he => absurd he (hu' s a answer), iff_of_true hs' (by simp), by simp⟩
        have hrecorded := (hmid.append (recorded_of_tells htells hcalls)).append hend
        simpa [Ensures, Steps, bind, pure, hresult] using hrecorded

theorem Steps.after {v w : List Entry} {o : Outcome (Option ActivityResult)} (hv : Recorded Γ v []) (hs : Sound Γ v)
    (hu : ∀ s a answer, .called s a answer ∉ v) (h : Steps Γ activity w o) : Steps Γ activity (v ++ w) o := by
  cases o with
  | returned result => exact hv.append h
  | unwound m =>
    refine ⟨by simpa [hs] using h.1, fun s a answer he => ?_⟩
    rcases List.mem_append.mp he with he | he
    · exact absurd he (hu s a answer)
    · exact h.2 s a answer he

theorem backgroundThread_steps (i : Nat) (cap : Option Nat) (token : Option CancellationToken) :
    Ensures (backgroundThread Γ executor controls cap token i activity) (Steps Γ activity) := by
  have hpermit : ∃ v permitted, acquirePermit cap i token = ⟨v, .returned permitted⟩ ∧ All (Entry.Aside Γ) v ∧
      ∀ s a answer, .called s a answer ∉ v := by
    cases token with
    | none => exact ⟨[], _, rfl, .nil, by simp⟩
    | some token =>
      refine ⟨[.read (.permit i) (token.isCancelled (.permit i))], _, rfl, ?_, by simp⟩
      intro e he
      obtain rfl := List.mem_singleton.mp he
      exact ⟨rfl, by rintro s a o ⟨⟩⟩
  obtain ⟨v, permitted, hpermit, haside, hu⟩ := hpermit
  have hv := Recorded.aside haside
  unfold backgroundThread
  rw [hpermit, bind_of_returned rfl]
  cases permitted with
  | false =>
    have hnone : Steps Γ activity [] (.returned none) := Recorded.aside .nil
    exact hnone.after hv (hv.sound.mpr (by simp)) hu
  | true =>
    exact (@executePendingActivity_steps _ _ _ (.background i) _ rfl token).after hv (hv.sound.mpr (by simp)) hu

/-- Joining a thread records what its steps left, a panic as a failure. -/
theorem Steps.joined {w : List Entry} {o : Outcome (Option ActivityResult)} (i : Nat) (h : Steps Γ activity w o) :
    Recorded Γ w (joinedResult Γ activity i o).toList := by
  cases o with
  | returned result => exact h
  | unwound m => exact recorded_of_tells ⟨rfl, rfl, by simpa [unfinishedResult] using h.1⟩ h.2

end Step

/-! ## The method as a whole -/

theorem forEach_records {α : Type} {f : Nat → α → Traced Entry (Option Executed)} (as : List α)
    (hf : ∀ i, ∀ a ∈ as, ∃ x, (f i a).outcome = .returned x ∧ Recorded Γ (f i a).trace x.toList) (i : Nat) :
    ∃ xs, (forEach f i as).outcome = .returned xs ∧ Recorded Γ (forEach f i as).trace (xs.filterMap id) := by
  induction as generalizing i with
  | nil => exact ⟨[], rfl, Recorded.aside .nil⟩
  | cons a as ih =>
    obtain ⟨x, ho, hx⟩ := hf i a (by simp)
    obtain ⟨xs, hos, hxs⟩ := ih (fun i a ha => hf i a (by simp [ha])) (i + 1)
    have hrun : forEach f i (a :: as) = ⟨(f i a).trace ++ (forEach f (i + 1) as).trace, .returned (x :: xs)⟩ := by
      simp [forEach, bind, pure, ho, hos]
    rw [hrun]
    refine ⟨x :: xs, rfl, ?_⟩
    have hboth := hx.append hxs
    cases x <;> simpa using hboth

theorem whileSome_records {α : Type} {f : Nat → α → Traced Entry (Option Executed)} (as : List α)
    (hf : ∀ i, ∀ a ∈ as, ∀ x, (f i a).outcome = .returned x → Recorded Γ (f i a).trace x.toList) (i : Nat) :
    ∀ xs, (whileSome f i as).outcome = .returned xs → Recorded Γ (whileSome f i as).trace xs := by
  induction as generalizing i with
  | nil =>
    rintro xs ⟨⟩
    exact Recorded.aside .nil
  | cons a as ih =>
    intro xs h
    unfold whileSome at h ⊢
    obtain ⟨x, ho, hrest, htrace⟩ := bind_returned h
    have hx := hf i a (by simp) x ho
    rw [htrace]
    cases x with
    | none =>
      cases hrest
      simpa using hx
    | some x =>
      obtain ⟨ys, hos, hpure, htrace'⟩ := bind_returned hrest
      cases hpure
      rw [htrace']
      simpa using hx.append (ih (fun i a ha => hf i a (by simp [ha])) (i + 1) ys hos)

theorem executeActivities_records {activities : List Activity} {token : Option CancellationToken} {cap : Option Nat}
    {executed : List Executed} {peak : Nat}
    (h : (executeActivities Γ executor controls activities token cap).outcome = .returned (executed, peak)) :
    Recorded Γ (executeActivities Γ executor controls activities token cap).trace executed := by
  unfold executeActivities at h ⊢
  dsimp only at h ⊢
  obtain ⟨joined, hjoined, hrest, htrace⟩ := bind_returned h
  obtain ⟨sequential, hsequential, hpure, htrace'⟩ := bind_returned hrest
  cases hpure
  rw [htrace, htrace', pure_trace, List.append_nil]
  have hbackground : ∀ i, ∀ a ∈ (partitionBackground activities).2, ∃ x,
      (do let result ← catchUnwind (backgroundThread Γ executor controls cap token i a)
          pure (joinedResult Γ a i result)).outcome = .returned x ∧
      Recorded Γ (do let result ← catchUnwind (backgroundThread Γ executor controls cap token i a)
                     pure (joinedResult Γ a i result)).trace x.toList := by
    intro i a _
    refine ⟨joinedResult Γ a i (backgroundThread Γ executor controls cap token i a).outcome, rfl, ?_⟩
    have hjoin := (@backgroundThread_steps Γ executor controls a i cap token).joined i
    simpa [bind, pure, catchUnwind] using hjoin
  have hforeground : ∀ i, ∀ a ∈ (partitionBackground activities).1, ∀ x,
      (do let result ← executePendingActivity Γ executor controls (.foreground i) a token
          pure (result.map (Executed.mk a))).outcome = .returned x →
      Recorded Γ (do let result ← executePendingActivity Γ executor controls (.foreground i) a token
                     pure (result.map (Executed.mk a))).trace x.toList := by
    intro i a _ x hx
    obtain ⟨result, ho, hpure, htrace⟩ := bind_returned hx
    cases hpure
    have hsteps := @executePendingActivity_steps Γ executor controls (.foreground i) a rfl token
    unfold Ensures at hsteps
    rw [ho] at hsteps
    rw [htrace, pure_trace, List.append_nil]
    exact hsteps
  obtain ⟨xs, hxs, hjoins⟩ := forEach_records _ hbackground 0
  rw [hjoined] at hxs
  cases hxs
  have hsteps := whileSome_records _ hforeground 0 sequential hsequential
  refine (hjoins.append hsteps).perm fun x => ?_
  simp [or_comm]

theorem sampleProbeRound_aside {at_ : Nat → Site} (hmethod : ∀ i, (at_ i).isMethod = false)
    (hsound : ∀ i a answer, (Entry.called (at_ i) a answer).sound Γ = true) (hypothesis : Hypothesis) :
    Always (Entry.Aside Γ) (sampleProbeRound Γ executor at_ hypothesis) := by
  refine Always.bind (Always.forEach _ (fun i probe _ => ?_) 0) fun _ => Always.pure _
  refine Always.bind (Always.bind (Always.log ⟨hsound i _ _, ?_⟩) fun _ => Always.settle _) fun _ => Always.pure _
  rintro s a o ⟨⟩
  exact hmethod i

theorem duringSampler_aside : Always (Entry.Aside Γ) (duringSampler Γ executor experiment) := by
  have hcollect : ∀ hypothesis rounds round perProbe,
      Always (Entry.Aside Γ) (collectDuringSamples Γ executor hypothesis rounds round perProbe) := by
    intro hypothesis rounds
    induction rounds with
    | zero => exact fun _ _ => Always.pure _
    | succ rounds ih =>
      intro round perProbe
      refine Always.bind (Always.catchUnwind (sampleProbeRound_aside (fun _ => rfl) (fun _ _ _ => rfl) hypothesis)) fun o => ?_
      cases o with
      | returned samples => exact ih (round + 1) _
      | unwound m => exact Always.pure _
  unfold duringSampler
  split
  · exact Always.pure _
  · exact Always.bind (hcollect _ _ 0 []) fun _ => Always.pure _

theorem guardRound_aside (round : Nat) (guards : List (Guard × Nat)) (i : Nat) :
    Always (Entry.Aside Γ) (guardRound Γ executor round i guards) := by
  induction guards generalizing i with
  | nil => exact Always.pure _
  | cons g guards ih =>
    obtain ⟨g, consecutive⟩ := g
    unfold guardRound
    refine Always.bind (Always.bind (Always.log ⟨rfl, by rintro s a o ⟨⟩; rfl⟩) fun _ => Always.settle _) fun outcome => ?_
    split
    · exact Always.bind (ih (i + 1)) fun _ => Always.pure _
    · split
      · exact Always.bind (Always.log ⟨rfl, by rintro s a o ⟨⟩⟩) fun _ => Always.pure _
      · exact Always.bind (ih (i + 1)) fun _ => Always.pure _

theorem guardMonitor_aside : Always (Entry.Aside Γ) (guardMonitor Γ executor experiment) := by
  have hmonitor : ∀ rounds round guards, Always (Entry.Aside Γ) (runGuardMonitor Γ executor rounds round guards) := by
    intro rounds
    induction rounds with
    | zero => exact fun _ _ => Always.pure _
    | succ rounds ih =>
      intro round guards
      refine Always.bind (guardRound_aside round guards 0) fun r => ?_
      cases r with
      | error record => exact Always.pure _
      | ok guards => exact ih (round + 1) guards
  unfold guardMonitor
  split
  · exact Always.pure _
  · refine Always.bind (Always.catchUnwind (hmonitor _ 0 _)) fun o => ?_
    cases o <;> exact Always.pure _

/-- The method's outcome: what came before it, and a record of its steps. -/
theorem methodPhase_records {before : Option HypothesisResult} {handle : Option LoadHandle} {m : MethodOutcome}
    {halt : Option HaltRecord}
    (h : (methodPhase Γ executor controls experiment config before handle).outcome = .returned (m, halt)) :
    m.steadyStateBefore = before ∧ m.loadHandle = handle ∧
      Recorded Γ (methodPhase Γ executor controls experiment config before handle).trace m.executed := by
  unfold methodPhase at h ⊢
  obtain ⟨_, _, h, htrace1⟩ := bind_returned h
  obtain ⟨during, _, h, htrace2⟩ := bind_returned h
  obtain ⟨halt', _, h, htrace3⟩ := bind_returned h
  obtain ⟨⟨executed, peak⟩, hexecuted, h, htrace4⟩ := bind_returned h
  obtain ⟨_, _, h, htrace5⟩ := bind_returned h
  cases h
  refine ⟨rfl, rfl, ?_⟩
  rw [htrace1, htrace2, htrace3, htrace4, htrace5]
  change Recorded Γ (_ ++ (_ ++ (_ ++ (_ ++ (_ ++ []))))) executed
  rw [List.append_nil]
  have hafter : All (Entry.Aside Γ) (controls.emit .main .afterMethod).trace := (emit_aside _ _).trace
  have hsteps := (executeActivities_records hexecuted).andThen hafter
  exact ((hsteps.before guardMonitor_aside.trace).before duringSampler_aside.trace).before (emit_aside .main .beforeMethod).trace

/-! ## Rollbacks -/

/-- Every declared rollback was attempted exactly once, in declared order, and is in the journal. -/
structure RolledBack (experiment : Experiment) (trace : List Entry) (journal : Journal) : Prop where
  attempted : rollbackCalls trace = experiment.rollbacks
  recorded : journal.rollbackResults.map (·.name) = experiment.rollbacks.map (·.name)

@[simp] theorem rollbackCalls_nil : rollbackCalls [] = [] := rfl

@[simp] theorem rollbackCalls_append (v w : List Entry) : rollbackCalls (v ++ w) = rollbackCalls v ++ rollbackCalls w :=
  List.filterMap_append

@[simp] theorem rollbackCalls_rollback (i : Nat) (activity : Activity) (answer : Outcome ActivityOutcome) (w : List Entry) :
    rollbackCalls (.called (.rollback i) activity answer :: w) = activity :: rollbackCalls w := rfl

/-- Nothing is rolled back where no rollback is reached. -/
theorem rollbackCalls_eq_nil {w : List Entry} (h : ∀ e ∈ w, ∀ i, e.place? ≠ some (.site (.rollback i))) : rollbackCalls w = [] := by
  refine List.filterMap_eq_nil_iff.mpr fun e he => ?_
  cases e with
  | called site a answer =>
    cases site with
    | rollback i => exact absurd rfl (h _ he i)
    | _ => rfl
  | _ => rfl

theorem rollbackCalls_of_always {α : Type} {x : Traced Entry α} {thread : Thread} {P : Place → Prop}
    (h : Always (Entry.Within thread P) x) (hP : ∀ i, ¬ P (.site (.rollback i))) : rollbackCalls x.trace = [] :=
  rollbackCalls_eq_nil fun e he i hplace => hP i ((h.trace e he).2 _ hplace)

theorem emit_eq (thread : Thread) (event : LifecycleEvent) :
    ∃ w, controls.emit thread event = ⟨w, .returned ()⟩ ∧ Sound Γ w ∧ rollbackCalls w = [] := by
  obtain ⟨⟨⟩, hreturned⟩ := @emit_returns controls thread event
  refine ⟨_, by rw [← hreturned], fun e he => ((emit_aside thread event).trace e he).1, ?_⟩
  exact rollbackCalls_of_always (emit_within (P := fun _ => False) event) fun _ => id

/-- A rollback is handed to its provider once, whatever comes of it. -/
theorem rollback_called (i : Nat) (activity : Activity) :
    ∃ result, (executeForegroundActivity Γ executor controls (.rollback i) activity none).outcome = .returned result ∧
      result.name = activity.name ∧
      rollbackCalls (executeForegroundActivity Γ executor controls (.rollback i) activity none).trace = [activity] := by
  obtain ⟨w, hbefore, -, hw⟩ := @emit_eq Γ controls .main (.beforeActivity activity.name)
  obtain ⟨w', hafter, -, hw'⟩ := @emit_eq Γ controls .main (.afterActivity activity.name)
  have hreturned : ∀ outcome, executor.execute (.rollback i) activity = .returned outcome →
      executeSingleActivity Γ executor controls (.rollback i) activity none =
        ⟨w ++ (.called (.rollback i) activity (.returned outcome) :: w'),
          .returned (makeResult activity (Γ.now (.dispatch (.rollback i))) outcome)⟩ := by
    intro outcome ho
    unfold executeSingleActivity
    rw [show (Site.rollback i).thread = .main from rfl, hbefore, hafter, call_eq, ho]
    simp [bind, pure, isCancelled]
  have hunwound : ∀ m, executor.execute (.rollback i) activity = .unwound m →
      executeSingleActivity Γ executor controls (.rollback i) activity none =
        ⟨w ++ [.called (.rollback i) activity (.unwound m)], .unwound m⟩ := by
    intro m ho
    unfold executeSingleActivity
    rw [show (Site.rollback i).thread = .main from rfl, hbefore, hafter, call_eq, ho]
    simp [bind, pure, isCancelled]
  unfold executeForegroundActivity
  cases ho : executor.execute (.rollback i) activity with
  | returned outcome =>
    rw [hreturned outcome ho]
    exact ⟨_, rfl, rfl, by simp [bind, pure, catchUnwind, hw, hw']⟩
  | unwound m =>
    rw [hunwound m ho]
    exact ⟨_, rfl, rfl, by simp [bind, pure, catchUnwind, hw]⟩

theorem rollbacks_called (activities : List Activity) (i : Nat) :
    ∃ results, (forEach (fun i a => executeForegroundActivity Γ executor controls (.rollback i) a none) i activities).outcome =
        .returned results ∧ results.map (·.name) = activities.map (·.name) ∧
      rollbackCalls (forEach (fun i a => executeForegroundActivity Γ executor controls (.rollback i) a none) i activities).trace =
        activities := by
  induction activities generalizing i with
  | nil => exact ⟨[], rfl, rfl, rfl⟩
  | cons a activities ih =>
    obtain ⟨result, hresult, hname, hcalls⟩ := @rollback_called Γ executor controls i a
    obtain ⟨results, hresults, hnames, hrest⟩ := ih (i + 1)
    refine ⟨result :: results, ?_, by simp [hname, hnames], ?_⟩
    · simp [forEach, bind, pure, hresult, hresults]
    · simp [forEach, bind, pure, hresult, hresults, hcalls, hrest]

/-- The rollbacks are run, all of them, when the strategy calls for them, and else nothing is. -/
theorem runRollbacks_called (strategy : RollbackStrategy) (needs : Bool) :
    ∃ results, (runRollbacks Γ executor controls experiment strategy needs).outcome = .returned results ∧
      (shouldRollback strategy needs = true →
        results.map (·.name) = experiment.rollbacks.map (·.name) ∧
          rollbackCalls (runRollbacks Γ executor controls experiment strategy needs).trace = experiment.rollbacks) ∧
      (shouldRollback strategy needs = false →
        results = [] ∧ rollbackCalls (runRollbacks Γ executor controls experiment strategy needs).trace = []) := by
  unfold runRollbacks
  by_cases hempty : experiment.rollbacks = []
  · simp [hempty, pure]
  · cases hshould : shouldRollback strategy needs with
    | false => simp [pure]
    | true =>
      obtain ⟨w, hbefore, -, hw⟩ := @emit_eq Γ controls .main .beforeRollback
      obtain ⟨w', hafter, -, hw'⟩ := @emit_eq Γ controls .main .afterRollback
      obtain ⟨results, hresults, hnames, hcalls⟩ := @rollbacks_called Γ executor controls experiment.rollbacks 0
      rw [hbefore, hafter]
      refine ⟨results, ?_, fun _ => ⟨hnames, ?_⟩, by simp⟩
      · simp [hempty, bind, pure, hresults]
      · simp [hempty, bind, pure, hresults, hw, hw', hcalls]

/-! ## The end of a run -/

section Ends

variable {m : MethodOutcome}

theorem postSampling_sound (token : Option CancellationToken) : Always (fun e => e.sound Γ = true) (postSampling Γ executor experiment token) := by
  have hread : ∀ round, Always (fun e => e.sound Γ = true) (isCancelled token (.postRound round)) := fun round =>
    (isCancelled_aside token fun _ => rfl).mono (All.mono fun _ he => he.1) (All.mono fun _ he => he.1)
  have hround : ∀ round hypothesis, Always (fun e => e.sound Γ = true) (sampleProbeRound Γ executor (.post round) hypothesis) :=
    fun round hypothesis => (sampleProbeRound_aside (fun _ => rfl) (fun _ _ _ => rfl) hypothesis).mono (All.mono fun _ he => he.1)
      (All.mono fun _ he => he.1)
  have hcollect : ∀ hypothesis rounds round perProbe,
      Always (fun e => e.sound Γ = true) (collectPostSamples Γ executor hypothesis token rounds round perProbe) := by
    intro hypothesis rounds
    induction rounds with
    | zero =>
      intro round perProbe
      unfold collectPostSamples
      refine Always.bind (hround round hypothesis) fun s => Always.bind (hread round) fun cancelled => ?_
      dsimp only
      split <;> exact Always.pure _
    | succ rounds ih =>
      intro round perProbe
      unfold collectPostSamples
      refine Always.bind (hround round hypothesis) fun s => Always.bind (hread round) fun cancelled => ?_
      dsimp only
      split
      · exact Always.pure _
      · exact ih (round + 1) _
  unfold postSampling
  split
  · exact Always.pure _
  · exact Always.bind (hcollect _ _ 0 []) fun _ => Always.pure _

/-- Stopping the load is sound exactly when it gives the result of a load that ran. -/
theorem stopLoad_sound {handle : Option LoadHandle} {loadExecutor : Option LoadExecutor} {r : Option LoadResult}
    (hexecutor : handle.isSome → loadExecutor.isSome) (h : (stopLoad handle loadExecutor).outcome = .returned r) :
    Sound Γ (stopLoad handle loadExecutor).trace ↔ (handle.isNone || r.isSome) = true := by
  cases handle with
  | none =>
    cases h
    simp [stopLoad]
  | some handle =>
    cases loadExecutor with
    | none => simp at hexecutor
    | some loadExecutor =>
      simp only [stopLoad] at h ⊢
      cases ho : loadExecutor.stop handle with
      | returned result =>
        rw [ho] at h
        cases result <;> cases h <;> simp [bind, pure, log, settle, Entry.sound]
      | unwound message =>
        rw [ho] at h
        cases h

/-- A probe of the hypothesis after the method is sound exactly when its outcome is within its tolerance. -/
theorem probe_sound {i : Nat} {probe : Activity} {result : ActivityResult}
    (h : (executeSingleActivity Γ executor controls (.hypothesis .after i) probe none).outcome = .returned result) :
    Sound Γ (executeSingleActivity Γ executor controls (.hypothesis .after i) probe none).trace ↔
      probeOutcomeOk Γ probe (result.status = .succeeded) result.output = true := by
  obtain ⟨w, hbefore, hw, -⟩ := @emit_eq Γ controls .main (.beforeActivity probe.name)
  obtain ⟨w', hafter, hw', -⟩ := @emit_eq Γ controls .main (.afterActivity probe.name)
  unfold executeSingleActivity at h ⊢
  rw [show (Site.hypothesis .after i).thread = .main from rfl, hbefore, hafter, call_eq] at h ⊢
  cases ho : executor.execute (.hypothesis .after i) probe with
  | returned outcome =>
    rw [ho] at h
    cases h
    simp [bind, pure, isCancelled, Entry.sound, makeResult, hw, hw']
  | unwound m =>
    rw [ho] at h
    cases h

/-- The hypothesis after the method is sound exactly when it is met. -/
theorem evaluateHypothesis_sound {hypothesis : Hypothesis} {result : HypothesisResult}
    (h : (evaluateHypothesis Γ executor controls .after hypothesis).outcome = .returned result) :
    Sound Γ (evaluateHypothesis Γ executor controls .after hypothesis).trace ↔ result.met = true := by
  have hprobes : ∀ (probes : List Activity) (i : Nat) (rs : List (ActivityResult × Bool)),
      (forEach (fun i probe => do
        let result ← executeSingleActivity Γ executor controls (.hypothesis .after i) probe none
        pure (result, probeOutcomeOk Γ probe (result.status = .succeeded) result.output)) i probes).outcome = .returned rs →
      (Sound Γ (forEach (fun i probe => do
        let result ← executeSingleActivity Γ executor controls (.hypothesis .after i) probe none
        pure (result, probeOutcomeOk Γ probe (result.status = .succeeded) result.output)) i probes).trace ↔
          rs.all (·.2) = true) := by
    intro probes
    induction probes with
    | nil =>
      rintro i rs ⟨⟩
      simp [forEach]
    | cons probe probes ih =>
      intro i rs h
      unfold forEach at h ⊢
      obtain ⟨r, hr, hrest, htrace⟩ := bind_returned h
      obtain ⟨rs', hrs', hpure, htrace'⟩ := bind_returned hrest
      obtain ⟨result, hresult, hpure', htrace''⟩ := bind_returned hr
      cases hpure
      cases hpure'
      rw [htrace, htrace', htrace'']
      simp [probe_sound hresult, ih (i + 1) rs' hrs']
  unfold evaluateHypothesis at h ⊢
  obtain ⟨rs, hrs, hpure, htrace⟩ := bind_returned h
  cases hpure
  rw [htrace, pure_trace, List.append_nil]
  exact hprobes _ 0 rs hrs

theorem runHypothesisPhase_sound {result : Option HypothesisResult}
    (h : (runHypothesisPhase Γ executor controls .after experiment).outcome = .returned result) :
    Sound Γ (runHypothesisPhase Γ executor controls .after experiment).trace ↔ result.map (·.met) ≠ some false := by
  unfold runHypothesisPhase at h ⊢
  split at h
  · cases h
    simp [pure]
  · next hypothesis _ =>
    obtain ⟨w, hbefore, hw, -⟩ := @emit_eq Γ controls .main .beforeHypothesis
    obtain ⟨w', hafter, hw', -⟩ := @emit_eq Γ controls .main .afterHypothesis
    rw [hbefore, hafter] at h ⊢
    obtain ⟨_, _, h, htrace⟩ := bind_returned h
    obtain ⟨r, hr, h, htrace'⟩ := bind_returned h
    cases h
    rw [htrace, htrace']
    simp [bind, pure, hw, hw', evaluateHypothesis_sound hr]

/-- A read of the caller's token. -/
theorem isCancelled_eq (token : Option CancellationToken) (moment : Moment) :
    ∃ w, isCancelled token moment = ⟨w, .returned (token.any (·.isCancelled moment))⟩ ∧
      (∀ e ∈ w, e = .read moment (token.any (·.isCancelled moment))) ∧
      (token.any (·.isCancelled moment) = true → .read moment true ∈ w) := by
  cases token with
  | none => exact ⟨[], rfl, by simp, by simp⟩
  | some token =>
    refine ⟨[.read moment (token.isCancelled moment)], rfl, by simp, fun h => ?_⟩
    rw [show token.isCancelled moment = true from h]
    exact List.mem_singleton_self _

theorem runRollbacks_sound (strategy : RollbackStrategy) (needs : Bool) :
    Always (fun e => e.sound Γ = true) (runRollbacks Γ executor controls experiment strategy needs) := by
  have hemit : ∀ event, Always (fun e => e.sound Γ = true) (controls.emit .main event) := fun event =>
    (emit_aside .main event).mono (All.mono fun _ he => he.1) (All.mono fun _ he => he.1)
  unfold runRollbacks
  split
  · exact Always.pure _
  · refine Always.bind (hemit _) fun _ => Always.bind ?_ fun _ => Always.bind (hemit _) fun _ => Always.pure _
    exact Always.forEach _ (fun i a _ => executeForegroundActivity_always (fun _ _ => rfl) none (fun h => absurd rfl h) fun _ => rfl) 0

/-- What an end of a run does about the rollbacks when its status calls for them as told. -/
structure Ended (experiment : Experiment) (strategy : RollbackStrategy) (needs : Bool) (w : List Entry) (journal : Journal) : Prop where
  needed : shouldRollback strategy needs = true → RolledBack experiment w journal
  skipped : shouldRollback strategy needs = false → journal.rollbackResults = [] ∧ rollbackCalls w = []

theorem stopLoad_uncalled (handle : Option LoadHandle) (loadExecutor : Option LoadExecutor) :
    rollbackCalls (stopLoad handle loadExecutor).trace = [] :=
  rollbackCalls_of_always (stopLoad_within (P := (· = .loadStop)) rfl handle loadExecutor) fun i => by rintro ⟨⟩

/-- The end of a run that was stopped: the load, then the rollbacks. -/
theorem stopped_ended {strategy : RollbackStrategy} {needs : Bool} {b : Option LoadResult → List ActivityResult → Journal}
    (hb : ∀ l r, (b l r).rollbackResults = r) {x : Traced Entry Journal} {journal : Journal}
    (hx : x = do
      let loadResult ← stopLoad m.loadHandle config.loadExecutor
      let rollbackResults ← runRollbacks Γ executor controls experiment strategy needs
      controls.emit .main .afterExperiment
      pure (b loadResult rollbackResults)) (h : x.outcome = .returned journal) :
    (∃ l r, journal = b l r) ∧ Ended experiment strategy needs x.trace journal := by
  obtain ⟨results, hresults, hneeded, hskipped⟩ := @runRollbacks_called Γ executor controls experiment strategy needs
  obtain ⟨w, hemit, -, hw⟩ := @emit_eq Γ controls .main .afterExperiment
  rw [hx] at h ⊢
  obtain ⟨l, _, h, htrace⟩ := bind_returned h
  obtain ⟨r, hr, h, htrace'⟩ := bind_returned h
  rw [hresults] at hr
  cases hr
  rw [hemit] at h
  cases h
  have hcalls : ∀ tail : List Entry, rollbackCalls tail = [] → rollbackCalls ((stopLoad m.loadHandle config.loadExecutor).trace ++
      ((runRollbacks Γ executor controls experiment strategy needs).trace ++ tail)) =
      rollbackCalls (runRollbacks Γ executor controls experiment strategy needs).trace := by
    intro tail htail
    simp [stopLoad_uncalled, htail]
  rw [htrace, htrace', hemit]
  refine ⟨⟨l, results, rfl⟩, fun hs => ⟨?_, ?_⟩, fun hs => ⟨?_, ?_⟩⟩
  · rw [hcalls _ (by simp [bind, pure, hw])]
    exact (hneeded hs).2
  · rw [hb]
    exact (hneeded hs).1
  · rw [hb]
    exact (hskipped hs).1
  · rw [hcalls _ (by simp [bind, pure, hw])]
    exact (hskipped hs).2

theorem endHalted_ended {halt : HaltRecord} {journal : Journal}
    (h : (endHalted Γ executor controls experiment config m halt).outcome = .returned journal) :
    journal.status = .halted ∧ Ended experiment config.rollbackStrategy true
      (endHalted Γ executor controls experiment config m halt).trace journal := by
  obtain ⟨⟨l, r, rfl⟩, hended⟩ := stopped_ended (b := fun l r => { m.journal Γ experiment .halted r l with
    halt := some { halt with rollbackMs := Γ.elapsedMs .recheck } }) (fun _ _ => rfl) rfl h
  exact ⟨rfl, hended⟩

theorem endInterrupted_ended {journal : Journal}
    (h : (endInterrupted Γ executor controls experiment config m).outcome = .returned journal) :
    journal.status = .interrupted ∧ Ended experiment config.rollbackStrategy true
      (endInterrupted Γ executor controls experiment config m).trace journal := by
  obtain ⟨⟨l, r, rfl⟩, hended⟩ := stopped_ended (b := fun l r => m.journal Γ experiment .interrupted r l) (fun _ _ => rfl) rfl h
  exact ⟨rfl, hended⟩

/-- How a run ends that nothing stopped in its method: by the status decided before the rollbacks, unless the token has fired after
them. -/
structure RegularEnd (Γ : RunnerCtx) (experiment : Experiment) (config : RunConfig) (m : MethodOutcome) (w : List Entry)
    (journal : Journal) (status : ExperimentStatus) : Prop where
  ended : Ended experiment config.rollbackStrategy (needsRollback status m.faultStarted) w journal
  completed : status = .completed ↔
    m.steadyStateBefore.map (·.met) ≠ some false ∧ allSucceeded m.methodResults = true ∧ Sound Γ w
  notHalted : status ≠ .halted
  aborted : status = .aborted → m.steadyStateBefore.map (·.met) = some false
  written : journal.status = if config.cancellationToken.any (·.isCancelled .recheck) then .interrupted else status
  fired : .read .recheck true ∈ w ↔ config.cancellationToken.any (·.isCancelled .recheck) = true

/-- The status that is decided is complete when the token has not fired, the steps succeeded and the hypothesis holds. -/
theorem decideStatus_completed {interrupted : Bool} {after : Option HypothesisResult} {load : Option LoadResult} :
    decideStatus experiment m interrupted after load = .completed ↔
      interrupted = false ∧ m.steadyStateBefore.map (·.met) ≠ some false ∧ allSucceeded m.methodResults = true ∧
        (experiment.load.isNone || load.isSome) = true ∧ after.map (·.met) ≠ some false := by
  unfold decideStatus determineStatus
  cases interrupted <;> cases allSucceeded m.methodResults <;> cases (experiment.load.isNone || load.isSome) <;> split_ifs <;> simp_all

theorem decideStatus_aborted {interrupted : Bool} {after : Option HypothesisResult} {load : Option LoadResult}
    (h : decideStatus experiment m interrupted after load = .aborted) : m.steadyStateBefore.map (·.met) = some false := by
  unfold decideStatus determineStatus at h
  split_ifs at h
  assumption

theorem decideStatus_not_halted {interrupted : Bool} {after : Option HypothesisResult} {load : Option LoadResult} :
    decideStatus experiment m interrupted after load ≠ .halted := by
  unfold decideStatus determineStatus
  split_ifs <;> simp

/-- The hypothesis after the method is sound exactly when it is met or was left out. -/
theorem hypothesisAfterPhase_sound {after : Option HypothesisResult}
    (h : (hypothesisAfterPhase Γ executor controls experiment config).outcome = .returned after) :
    Sound Γ (hypothesisAfterPhase Γ executor controls experiment config).trace ↔ after.map (·.met) ≠ some false := by
  obtain ⟨w, hread, hmem, -⟩ := isCancelled_eq config.cancellationToken .beforeHypothesisAfter
  have hw : Sound Γ w := fun e he => by rw [hmem e he]; rfl
  unfold hypothesisAfterPhase at h ⊢
  rw [hread] at h ⊢
  cases hfired : config.cancellationToken.any (·.isCancelled .beforeHypothesisAfter) with
  | true =>
    rw [hfired] at h
    cases h
    simpa [bind, pure] using hw
  | false =>
    rw [hfired] at h
    obtain ⟨skip, hskip, h, htrace⟩ := bind_returned h
    cases hskip
    rw [htrace, sound_append]
    exact (and_iff_right hw).trans (runHypothesisPhase_sound h)

/-- The parts of an end that nothing stopped. -/
theorem endRegular_run {journal : Journal} (h : (endRegular Γ executor controls experiment config m).outcome = .returned journal) :
    ∃ load after results,
      (stopLoad m.loadHandle config.loadExecutor).outcome = .returned load ∧
      (hypothesisAfterPhase Γ executor controls experiment config).outcome = .returned after ∧
      let status := decideStatus experiment m (config.cancellationToken.any (·.isCancelled .status)) after load
      (runRollbacks Γ executor controls experiment config.rollbackStrategy (needsRollback status m.faultStarted)).outcome =
        .returned results ∧
      (journal.status = (if config.cancellationToken.any (·.isCancelled .recheck) then .interrupted else status) ∧
        journal.rollbackResults = results) ∧
      (endRegular Γ executor controls experiment config m).trace =
        (postSampling Γ executor experiment config.cancellationToken).trace ++
          ((stopLoad m.loadHandle config.loadExecutor).trace ++
            ((hypothesisAfterPhase Γ executor controls experiment config).trace ++
              ((isCancelled config.cancellationToken .status).trace ++
                ((runRollbacks Γ executor controls experiment config.rollbackStrategy (needsRollback status m.faultStarted)).trace ++
                  ((isCancelled config.cancellationToken .recheck).trace ++ (controls.emit .main .afterExperiment).trace))))) := by
  obtain ⟨wstatus, hstatus, -, -⟩ := isCancelled_eq config.cancellationToken .status
  obtain ⟨wrecheck, hrecheck, -, -⟩ := isCancelled_eq config.cancellationToken .recheck
  unfold endRegular at h ⊢
  obtain ⟨post, _, h, htrace1⟩ := bind_returned h
  obtain ⟨load, hload, h, htrace2⟩ := bind_returned h
  obtain ⟨after, hafter, h, htrace3⟩ := bind_returned h
  obtain ⟨interrupted, hinterrupted, h, htrace4⟩ := bind_returned h
  obtain ⟨results, hresults, h, htrace5⟩ := bind_returned h
  obtain ⟨late, hlate, h, htrace6⟩ := bind_returned h
  obtain ⟨_, _, h, htrace7⟩ := bind_returned h
  rw [hstatus] at hinterrupted
  rw [hrecheck] at hlate
  cases hinterrupted
  cases hlate
  cases h
  refine ⟨load, after, results, hload, hafter, hresults, ⟨rfl, rfl⟩, ?_⟩
  rw [htrace1, htrace2, htrace3, htrace4, htrace5, htrace6, htrace7, pure_trace, List.append_nil]

theorem read_uncalled (token : Option CancellationToken) (moment : Moment) : rollbackCalls (isCancelled token moment).trace = [] := by
  obtain ⟨w, hread, hmem, -⟩ := isCancelled_eq token moment
  rw [hread]
  refine List.filterMap_eq_nil_iff.mpr fun e he => ?_
  rw [hmem e he]
  rfl

/-- The token is not read again at this moment. -/
theorem not_read_of_always {α : Type} {x : Traced Entry α} {thread : Thread} {P : Place → Prop} (h : Always (Entry.Within thread P) x)
    {moment : Moment} (hP : ¬ P moment.place) (b : Bool) : .read moment b ∉ x.trace := fun he => hP ((h.trace _ he).2 _ rfl)

theorem endRegular_ended {journal : Journal} (hexecutor : m.loadHandle.isSome → config.loadExecutor.isSome)
    (hload : m.loadHandle.isSome = experiment.load.isSome)
    (h : (endRegular Γ executor controls experiment config m).outcome = .returned journal) :
    ∃ status, RegularEnd Γ experiment config m (endRegular Γ executor controls experiment config m).trace journal status := by
  obtain ⟨load, after, results, hstop, hafter, hrollbacks, ⟨hwritten, hresults⟩, htrace⟩ := endRegular_run h
  rw [htrace]
  clear htrace h
  generalize hstatus : decideStatus experiment m (config.cancellationToken.any (·.isCancelled .status)) after load = status at *
  have hpost : Always (Entry.Within .main fun p => (∃ round i, p = .site (.post round i)) ∨ ∃ round, p = .token (.postRound round))
      (postSampling Γ executor experiment config.cancellationToken) :=
    postSampling_within (fun round i => .inl ⟨round, i, rfl⟩) (fun round => .inr ⟨round, rfl⟩) _ _
  have hhypothesis : Always (Entry.Within .main fun p => (∃ i, p = .site (.hypothesis .after i)) ∨ p = .token .beforeHypothesisAfter)
      (hypothesisAfterPhase Γ executor controls experiment config) :=
    hypothesisAfterPhase_within (fun i => .inl ⟨i, rfl⟩) (.inr rfl)
  obtain ⟨wemit, hemit, hwsound, hwcalls⟩ := @emit_eq Γ controls .main .afterExperiment
  obtain ⟨wstatus, hwstatus, hmstatus, hfstatus⟩ := isCancelled_eq config.cancellationToken .status
  obtain ⟨results', hresults', hneeded, hnone⟩ :=
    @runRollbacks_called Γ executor controls experiment config.rollbackStrategy (needsRollback status m.faultStarted)
  rw [hrollbacks] at hresults'
  cases hresults'
  have hcpost := rollbackCalls_of_always hpost fun i => by rintro (⟨round, j, h⟩ | ⟨round, h⟩) <;> cases h
  have hchypothesis := rollbackCalls_of_always hhypothesis fun i => by rintro (⟨j, h⟩ | h) <;> cases h
  refine ⟨status, ⟨⟨fun hs => ⟨?_, ?_⟩, fun hs => ⟨?_, ?_⟩⟩, ?_, ?_, ?_, ?_, ?_⟩⟩
  · simp [hcpost, stopLoad_uncalled, hchypothesis, read_uncalled, hemit, hwcalls, (hneeded hs).2]
  · rw [hresults]
    exact (hneeded hs).1
  · rw [hresults]
    exact (hnone hs).1
  · simp [hcpost, stopLoad_uncalled, hchypothesis, read_uncalled, hemit, hwcalls, (hnone hs).2]
  · have hspost : Sound Γ (postSampling Γ executor experiment config.cancellationToken).trace := (postSampling_sound _).trace
    have hsrollbacks : Sound Γ (runRollbacks Γ executor controls experiment config.rollbackStrategy
        (needsRollback status m.faultStarted)).trace := (runRollbacks_sound _ _).trace
    have hsrecheck : Sound Γ (isCancelled config.cancellationToken .recheck).trace :=
      fun e he => ((isCancelled_aside config.cancellationToken fun _ => rfl).trace e he).1
    have hsstatus : Sound Γ wstatus ↔ config.cancellationToken.any (·.isCancelled .status) = false := by
      constructor
      · intro hs
        by_contra hfired
        have hread := hs _ (hfstatus (by simpa using hfired))
        simp [Entry.sound] at hread
      · intro hfired e he
        rw [hmstatus e he, hfired]
        rfl
    have hcompleted := @decideStatus_completed experiment m (config.cancellationToken.any (·.isCancelled .status)) after load
    rw [hstatus] at hcompleted
    rw [hcompleted, hwstatus, hemit]
    simp only [sound_append, hspost, hsrollbacks, hsrecheck, hwsound, hsstatus, stopLoad_sound hexecutor hstop,
      hypothesisAfterPhase_sound hafter, true_and, and_true]
    have hnone : experiment.load.isNone = m.loadHandle.isNone := by
      rw [← Option.not_isSome, ← Option.not_isSome, hload]
    rw [hnone]
    tauto
  · rw [← hstatus]
    exact decideStatus_not_halted
  · rw [← hstatus]
    exact decideStatus_aborted
  · exact hwritten
  · obtain ⟨w, hw, hmem, hfired⟩ := isCancelled_eq config.cancellationToken .recheck
    have hstop : .read .recheck true ∉ (stopLoad m.loadHandle config.loadExecutor).trace :=
      not_read_of_always (stopLoad_within (P := (· = .loadStop)) rfl _ _) (by rintro ⟨⟩) true
    have hrollbacks : .read .recheck true ∉ (runRollbacks Γ executor controls experiment config.rollbackStrategy
        (needsRollback status m.faultStarted)).trace :=
      not_read_of_always (runRollbacks_within (P := fun p => ∃ i, p = .site (.rollback i)) (fun i => ⟨i, rfl⟩) _ _ _)
        (by rintro ⟨i, ⟨⟩⟩) true
    have hspost : .read .recheck true ∉ (postSampling Γ executor experiment config.cancellationToken).trace :=
      not_read_of_always hpost (by rintro (⟨round, j, h⟩ | ⟨round, h⟩) <;> cases h) true
    have hsafter : .read .recheck true ∉ (hypothesisAfterPhase Γ executor controls experiment config).trace :=
      not_read_of_always hhypothesis (by rintro (⟨j, h⟩ | h) <;> cases h) true
    have hemitted : .read .recheck true ∉ (controls.emit .main .afterExperiment).trace :=
      not_read_of_always (emit_within (P := fun _ => False) _) (fun h => h) true
    rw [hwstatus, hw]
    simp only [List.mem_append, hspost, hstop, hsafter, hrollbacks, hemitted, false_or, or_false]
    constructor
    · rintro (he | he)
      · cases hmstatus _ he
      · exact ((Entry.read.inj (hmem _ he)).2).symm
    · exact fun hf => .inr (hfired hf)

/-- How a live run ends: stopped in its method, or by the status decided after it. -/
def LiveEnd (Γ : RunnerCtx) (experiment : Experiment) (config : RunConfig) (m : MethodOutcome) (w : List Entry) (journal : Journal) :
    Prop :=
  (journal.status ∈ [.halted, .interrupted] ∧ Ended experiment config.rollbackStrategy true w journal ∧ .read .recheck true ∉ w) ∨
    ∃ status, RegularEnd Γ experiment config m w journal status

theorem Ended.after {strategy : RollbackStrategy} {needs : Bool} {u w : List Entry} {journal : Journal} (hu : rollbackCalls u = [])
    (h : Ended experiment strategy needs w journal) : Ended experiment strategy needs (u ++ w) journal := by
  have hcalls : rollbackCalls (u ++ w) = rollbackCalls w := by simp [hu]
  refine ⟨fun hs => ⟨?_, (h.needed hs).recorded⟩, fun hs => ⟨(h.skipped hs).1, ?_⟩⟩
  · rw [hcalls]
    exact (h.needed hs).attempted
  · rw [hcalls]
    exact (h.skipped hs).2

/-- The read that finds the run not interrupted changes nothing of its end. -/
theorem RegularEnd.after {u w : List Entry} {journal : Journal} {status : ExperimentStatus} (hu : rollbackCalls u = [])
    (hsound : Sound Γ u) (hread : .read .recheck true ∉ u) (h : RegularEnd Γ experiment config m w journal status) :
    RegularEnd Γ experiment config m (u ++ w) journal status :=
  { h with
    ended := h.ended.after hu
    completed := by rw [sound_append, and_iff_right hsound]; exact h.completed
    fired := by rw [List.mem_append, or_iff_right hread]; exact h.fired }

/-- The places of the end of a run that was stopped. -/
def Place.ofStopped (p : Place) : Prop := p = .loadStop ∨ ∃ i, p = .site (.rollback i)

theorem endHalted_stopped {halt : HaltRecord} :
    Always (Entry.Within .main Place.ofStopped) (endHalted Γ executor controls experiment config m halt) := by
  refine Always.bind (stopLoad_within (.inl rfl) _ _) fun _ => ?_
  refine Always.bind (runRollbacks_within (fun i => .inr ⟨i, rfl⟩) _ _ _) fun _ => ?_
  exact Always.bind (emit_within _) fun _ => Always.pure _

theorem endInterrupted_stopped :
    Always (Entry.Within .main Place.ofStopped) (endInterrupted Γ executor controls experiment config m) := by
  refine Always.bind (stopLoad_within (.inl rfl) _ _) fun _ => ?_
  refine Always.bind (runRollbacks_within (fun i => .inr ⟨i, rfl⟩) _ _ _) fun _ => ?_
  exact Always.bind (emit_within _) fun _ => Always.pure _

/-- A run that was stopped does not read the token again. -/
theorem unread_of_stopped {α : Type} {x : Traced Entry α} (h : Always (Entry.Within .main Place.ofStopped) x) :
    .read .recheck true ∉ x.trace := not_read_of_always h (by rintro (h | ⟨i, h⟩) <;> cases h) true

theorem endRun_ended {halt : Option HaltRecord} {journal : Journal} (hexecutor : m.loadHandle.isSome → config.loadExecutor.isSome)
    (hload : m.loadHandle.isSome = experiment.load.isSome)
    (h : (endRun Γ executor controls experiment config m halt).outcome = .returned journal) :
    LiveEnd Γ experiment config m (endRun Γ executor controls experiment config m halt).trace journal := by
  unfold endRun at h ⊢
  cases halt with
  | some halt =>
    obtain ⟨hstatus, hended⟩ := endHalted_ended h
    exact .inl ⟨by simp [hstatus], hended, unread_of_stopped endHalted_stopped⟩
  | none =>
    have hsound : Sound Γ (isCancelled (some (methodToken Γ config false)) .afterMethod).trace :=
      fun e he => ((isCancelled_aside (some (methodToken Γ config false)) fun _ => rfl).trace e he).1
    have hread : .read .recheck true ∉ (isCancelled (some (methodToken Γ config false)) .afterMethod).trace :=
      not_read_of_always (isCancelled_within (P := (· = .token .afterMethod)) _ rfl rfl) (by rintro ⟨⟩) true
    obtain ⟨interrupted, _, h, htrace⟩ := bind_returned h
    dsimp only at h htrace ⊢
    rw [htrace]
    cases interrupted with
    | true =>
      obtain ⟨hstatus, hended⟩ := endInterrupted_ended h
      refine .inl ⟨by simp [hstatus], hended.after (read_uncalled _ _), ?_⟩
      rw [List.mem_append, or_iff_right hread]
      exact unread_of_stopped endInterrupted_stopped
    | false =>
      obtain ⟨status, hregular⟩ := endRegular_ended hexecutor hload h
      exact .inr ⟨status, hregular.after (read_uncalled _ _) hsound hread⟩

end Ends

/-- A live run that returns: its method, recorded, and its end. -/
structure LiveReturned (Γ : RunnerCtx) (experiment : Experiment) (config : RunConfig) (before : Option HypothesisResult)
    (m : MethodOutcome) (w w' : List Entry) (journal : Journal) : Prop where
  stage : ∀ e ∈ w, e.OfStage .method
  recorded : Recorded Γ w m.executed
  steadyState : m.steadyStateBefore = before
  ending : ∀ e ∈ w', e.OnMain .ending
  ended : LiveEnd Γ experiment config m w' journal

theorem liveRun_returned {before : Option HypothesisResult} {handle : Option LoadHandle} {journal : Journal}
    (hexecutor : handle.isSome → config.loadExecutor.isSome) (hload : handle.isSome = experiment.load.isSome)
    (h : (liveRun Γ executor controls experiment config before handle).outcome = .returned journal) :
    ∃ m w w', (liveRun Γ executor controls experiment config before handle).trace = w ++ w' ∧
      LiveReturned Γ experiment config before m w w' journal := by
  unfold liveRun at h ⊢
  obtain ⟨⟨m, halt⟩, hm, hend, htrace⟩ := bind_returned h
  obtain ⟨hbefore, rfl, hrecorded⟩ := methodPhase_records hm
  refine ⟨m, _, _, htrace, (methodPhase_stage _ _).trace, hrecorded, hbefore, (endRun_within halt).trace, ?_⟩
  exact endRun_ended hexecutor hload hend

end Tumult
