import Tumult.Runner.Records

/-!
# Rollbacks

A run that dispatched an action and ends failed, deviated, interrupted or halted has rolled back, but for one case: a run that would
have completed and whose token fires after its status was decided.
-/

namespace Tumult

open Traced

/-- A run that dispatched an action and ends failed, deviated, interrupted or halted has rolled back. -/
def CleansUp (experiment : Experiment) (run : Traced Entry (Except RunnerError Journal)) : Prop :=
  ∀ journal, run.outcome = .returned (.ok journal) → ActionDispatched run.trace →
    journal.status ∈ [.failed, .deviated, .interrupted, .halted] → RolledBack experiment run.trace journal

/-- The token fires between the read that decides the status and the one after the rollbacks, in a run that dispatched an action and
would have completed. -/
structure StoppedLate (Γ : RunnerCtx) (trace : List Entry) : Prop where
  dispatched : ActionDispatched trace
  sound : ∀ e ∈ trace, e.sound Γ = true
  fired : .read .recheck true ∈ trace

variable {Γ : RunnerCtx} {executor : ActivityExecutor} {controls : ControlRegistry} {experiment : Experiment} {config : RunConfig}

/-! ## Where the rollbacks are -/

theorem rollbackCalls_of_stage {w : List Entry} {stage : Stage} (h : ∀ e ∈ w, e.OfStage stage) (hstage : stage ≠ .ending) :
    rollbackCalls w = [] :=
  rollbackCalls_eq_nil fun e he _ hplace => hstage (h e he _ hplace).symm

theorem dispatched_of_stage {w : List Entry} {stage : Stage} (h : ∀ e ∈ w, e.OfStage stage) (hstage : stage ≠ .method) :
    ¬ ActionDispatched w := by
  rintro ⟨e, he, hd⟩
  cases e with
  | called site activity answer =>
    have hplace := h _ he (.site site) rfl
    cases site <;> simp_all [Entry.dispatchesAction, Site.isMethod, Place.stage]
  | _ => cases hd

theorem actionDispatched_append {v w : List Entry} : ActionDispatched (v ++ w) ↔ ActionDispatched v ∨ ActionDispatched w := by
  simp only [ActionDispatched, List.mem_append, or_and_right, exists_or]

/-- An action that was dispatched is among the results. -/
theorem faultStarted_of_dispatched {w : List Entry} {m : MethodOutcome} (h : Recorded Γ w m.executed) (hd : ActionDispatched w) :
    m.faultStarted = true := by
  obtain ⟨e, he, hd⟩ := hd
  cases e with
  | called site activity answer =>
    obtain ⟨hsite, haction⟩ : site.isMethod = true ∧ activity.activityType = .action := by simpa [Entry.dispatchesAction] using hd
    obtain ⟨x, hx, rfl⟩ := h.dispatched site activity answer he hsite
    refine List.any_eq_true.mpr ⟨x.result, List.mem_map_of_mem hx, ?_⟩
    simpa [(h.result x hx).2] using haction
  | _ => cases hd

theorem allSucceeded_iff {w : List Entry} {m : MethodOutcome} (h : Recorded Γ w m.executed) (hd : ActionDispatched w) :
    allSucceeded m.methodResults = true ↔ Sound Γ w := by
  have hstarted := faultStarted_of_dispatched h hd
  have hnonempty : m.methodResults ≠ [] := by
    rintro hnil
    simp [MethodOutcome.faultStarted, hnil] at hstarted
  rw [h.sound, allSucceeded, decide_eq_true hnonempty]
  simp [MethodOutcome.methodResults]

/-- A live run that returned: its early part, its method and its end. -/
structure RunReturned (Γ : RunnerCtx) (experiment : Experiment) (config : RunConfig) (journal : Journal) where
  early : List Entry
  method : List Entry
  ending : List Entry
  before : Option HypothesisResult
  handle : Option LoadHandle
  m : MethodOutcome
  start : Start Γ experiment config early before handle
  live : LiveReturned Γ experiment config before m method ending journal

def RunReturned.trace {journal : Journal} (r : RunReturned Γ experiment config journal) : List Entry := r.early ++ (r.method ++ r.ending)

theorem runExperiment_returned {journal : Journal} (hlive : Live (runExperiment Γ executor controls experiment config).trace)
    (h : (runExperiment Γ executor controls experiment config).outcome = .returned (.ok journal)) :
    ∃ r : RunReturned Γ experiment config journal, (runExperiment Γ executor controls experiment config).trace = r.trace := by
  obtain ⟨v, before, handle, hstart, htrace, ho⟩ := runExperiment_live hlive
  rw [ho] at h
  cases hout : (liveRun Γ executor controls experiment config before handle).outcome with
  | unwound message =>
    rw [hout] at h
    cases h
  | returned journal' =>
    rw [hout] at h
    cases h
    obtain ⟨m, w, w', hsplit, hreturned⟩ := liveRun_returned hstart.executor hstart.load hout
    exact ⟨⟨v, w, w', before, handle, m, hstart, hreturned⟩, by rw [htrace, hsplit]; rfl⟩

namespace RunReturned

variable {journal : Journal} (r : RunReturned Γ experiment config journal)

theorem early_stage (e : Entry) (he : e ∈ r.early) : e.OfStage .before := (r.start.early e he).1

theorem rollbackCalls_eq : rollbackCalls r.trace = rollbackCalls r.ending := by
  rw [RunReturned.trace, rollbackCalls_append, rollbackCalls_append, rollbackCalls_of_stage r.early_stage (by decide),
    rollbackCalls_of_stage r.live.stage (by decide)]
  rfl

theorem rolledBack (h : RolledBack experiment r.ending journal) : RolledBack experiment r.trace journal :=
  ⟨r.rollbackCalls_eq.trans h.attempted, h.recorded⟩

/-- Actions are dispatched in the method. -/
theorem dispatched_method (h : ActionDispatched r.trace) : ActionDispatched r.method := by
  rw [RunReturned.trace, actionDispatched_append, actionDispatched_append] at h
  refine (h.resolve_left (dispatched_of_stage r.early_stage (by decide))).resolve_right ?_
  exact dispatched_of_stage (fun e he => (r.live.ending e he).2) (by decide)

theorem sound_iff : Sound Γ r.trace ↔ Sound Γ r.method ∧ Sound Γ r.ending := by
  rw [RunReturned.trace, sound_append, sound_append]
  exact and_iff_right fun e he => (r.start.early e he).2

/-- The token is read again in the end of the run only. -/
theorem fired_iff : .read .recheck true ∈ r.trace ↔ .read .recheck true ∈ r.ending := by
  rw [RunReturned.trace, List.mem_append, List.mem_append]
  constructor
  · rintro (he | he | he)
    · exact absurd (r.early_stage _ he _ rfl) (by decide)
    · exact absurd (r.live.stage _ he _ rfl) (by decide)
    · exact he
  · exact fun he => .inr (.inr he)

theorem completed_iff {status : ExperimentStatus} (h : RegularEnd Γ experiment config r.m r.ending journal status)
    (hd : ActionDispatched r.trace) : status = .completed ↔ Sound Γ r.trace := by
  rw [h.completed, allSucceeded_iff r.live.recorded (r.dispatched_method hd), r.sound_iff, r.live.steadyState]
  exact and_iff_right r.start.met

end RunReturned

/-! ## The late read -/

section Late

/-- The entry is not a late read that finds the token fired. -/
abbrev Entry.Unread (e : Entry) : Prop := e ≠ .read .recheck true

theorem unread_of_within {α : Type} {x : Traced Entry α} {thread : Thread} {P : Place → Prop} (h : Always (Entry.Within thread P) x)
    (hP : ¬ P (.token .recheck)) : Always Entry.Unread x := by
  have hentry : ∀ e : Entry, e.Within thread P → e.Unread := by
    rintro e he rfl
    exact hP (he.2 _ rfl)
  exact h.mono (All.mono hentry) (All.mono hentry)

/-- A part of a run that unwinds has not read the token late. -/
abbrev ReadsLast {α : Type} (x : Traced Entry α) : Prop := Keeps (fun _ => True) (All Entry.Unread) x

theorem ReadsLast.bind {α β : Type} {x : Traced Entry α} {f : α → Traced Entry β} (hx : Always Entry.Unread x)
    (hf : ∀ a, ReadsLast (f a)) : ReadsLast (x >>= f) :=
  Keeps.bind (fun _ _ _ _ => trivial) All.precedes hx hf

theorem ReadsLast.of_always {α : Type} {x : Traced Entry α} (h : Always Entry.Unread x) : ReadsLast x :=
  h.mono (fun _ _ => trivial) fun _ => id

theorem endRegular_readsLast {m : MethodOutcome} : ReadsLast (endRegular Γ executor controls experiment config m) := by
  have hpost : Always Entry.Unread (postSampling Γ executor experiment config.cancellationToken) :=
    unread_of_within (postSampling_within (P := (· ≠ .token .recheck)) (fun _ _ => by simp) (fun _ => by simp) _ _) (by simp)
  have hafter : Always Entry.Unread (hypothesisAfterPhase Γ executor controls experiment config) :=
    unread_of_within (hypothesisAfterPhase_within (P := (· ≠ .token .recheck)) (fun _ => by simp) (by simp)) (by simp)
  have hstatus : Always Entry.Unread (isCancelled config.cancellationToken .status) :=
    unread_of_within (isCancelled_within (P := (· ≠ .token .recheck)) _ rfl (by simp [Moment.place])) (by simp)
  have hstop : Always Entry.Unread (stopLoad m.loadHandle config.loadExecutor) :=
    unread_of_within (stopLoad_within (P := (· ≠ .token .recheck)) (by simp) _ _) (by simp)
  have hrollbacks : ∀ needs, Always Entry.Unread (runRollbacks Γ executor controls experiment config.rollbackStrategy needs) :=
    fun needs => unread_of_within (runRollbacks_within (P := (· ≠ .token .recheck)) (fun _ => by simp) _ _ needs) (by simp)
  refine ReadsLast.bind hpost fun _ => ReadsLast.bind hstop fun _ => ReadsLast.bind hafter fun _ => ?_
  refine ReadsLast.bind hstatus fun _ => ReadsLast.bind (hrollbacks _) fun _ => ?_
  -- nothing unwinds after the late read
  have hreturns : ∀ b : Bool → Journal, Returns (do
      let interrupted ← isCancelled config.cancellationToken .recheck
      controls.emit .main .afterExperiment
      pure (b interrupted)) := fun b =>
    Returns.bind (isCancelled_returns _ _) fun _ => Returns.bind (emit_returns _) fun _ => Returns.pure _
  exact Keeps.of_returns (U := fun _ => True) ⟨fun _ _ => trivial, fun _ _ => trivial⟩ (hreturns _)

theorem liveRun_readsLast (before : Option HypothesisResult) (handle : Option LoadHandle) :
    ReadsLast (liveRun Γ executor controls experiment config before handle) := by
  have hmethod : Always Entry.Unread (methodPhase Γ executor controls experiment config before handle) := by
    have hentry : ∀ e : Entry, e.OfStage .method → e.Unread := by
      rintro e he rfl
      exact absurd (he _ rfl) (by decide)
    exact (methodPhase_stage before handle).mono (All.mono hentry) (All.mono hentry)
  refine ReadsLast.bind hmethod fun ⟨m, halt⟩ => ?_
  cases halt with
  | some halt => exact ReadsLast.of_always (unread_of_within (P := Place.ofStopped) endHalted_stopped (by rintro (h | ⟨i, h⟩) <;> cases h))
  | none =>
    refine ReadsLast.bind (unread_of_within (isCancelled_within (P := (· ≠ .token .recheck)) _ rfl (by simp [Moment.place])) (by simp))
      fun interrupted => ?_
    cases interrupted with
    | true => exact ReadsLast.of_always (unread_of_within (P := Place.ofStopped) endInterrupted_stopped (by rintro (h | ⟨i, h⟩) <;> cases h))
    | false => exact endRegular_readsLast

/-- A run that reads the token late and finds it fired returns. -/
theorem returned_of_stoppedLate (h : StoppedLate Γ (runExperiment Γ executor controls experiment config).trace) :
    ∃ journal, (runExperiment Γ executor controls experiment config).outcome = .returned (.ok journal) := by
  obtain ⟨v, before, handle, hstart, htrace, ho⟩ := runExperiment_live (.inl h.dispatched)
  rw [ho]
  cases hout : (liveRun Γ executor controls experiment config before handle).outcome with
  | returned journal => exact ⟨journal, rfl⟩
  | unwound message =>
    have hfired := h.fired
    rw [htrace, List.mem_append] at hfired
    rcases hfired with he | he
    · exact absurd ((hstart.early _ he).1 _ rfl) (by decide)
    · exact absurd rfl ((liveRun_readsLast before handle).unwound message hout _ he)

end Late

/-! ## When a run cleans up -/

/-- A run that is not stopped late, or rolls back always, has rolled back when it ends with a fault left. -/
theorem cleansUp_of_not_stoppedLate (hstrategy : config.rollbackStrategy ≠ .never)
    (h : config.rollbackStrategy = .always ∨ ¬ StoppedLate Γ (runExperiment Γ executor controls experiment config).trace) :
    CleansUp experiment (runExperiment Γ executor controls experiment config) := by
  intro journal ho hd hstatus
  obtain ⟨r, htrace⟩ := runExperiment_returned (.inl hd) ho
  rw [htrace] at hd h ⊢
  refine r.rolledBack ?_
  have hshould : shouldRollback config.rollbackStrategy true = true := by
    cases hs : config.rollbackStrategy <;> simp_all [shouldRollback]
  rcases r.live.ended with ⟨-, hended, -⟩ | ⟨status, hregular⟩
  · exact hended.needed hshould
  · refine hregular.ended.needed ?_
    rcases h with halways | hlate
    · rw [halways]
      rfl
    · have hneeds : needsRollback status r.m.faultStarted = true := by
        have hfault := faultStarted_of_dispatched r.live.recorded (r.dispatched_method hd)
        have hsound := r.completed_iff hregular hd
        have hfired := r.fired_iff.trans hregular.fired
        have haborted : status ≠ .aborted := fun ha =>
          r.start.met (r.live.steadyState ▸ hregular.aborted ha)
        have hwritten := hregular.written
        rw [hfault]
        cases status with
        | completed =>
          cases hrecheck : config.cancellationToken.any (·.isCancelled .recheck) with
          | true => exact absurd ⟨hd, hsound.mp rfl, hfired.mpr hrecheck⟩ hlate
          | false => simp_all
        | halted => exact absurd rfl hregular.notHalted
        | aborted => exact absurd rfl haborted
        | _ => rfl
      rw [hneeds]
      exact hshould

/-- A run stopped late ends interrupted and keeps its faults. -/
theorem not_cleansUp_of_stoppedLate (hrollbacks : experiment.rollbacks ≠ []) (hstrategy : config.rollbackStrategy = .onDeviation)
    (h : StoppedLate Γ (runExperiment Γ executor controls experiment config).trace) :
    ¬ CleansUp experiment (runExperiment Γ executor controls experiment config) := by
  intro hcleans
  obtain ⟨journal, ho⟩ := returned_of_stoppedLate h
  obtain ⟨r, htrace⟩ := runExperiment_returned (.inl h.dispatched) ho
  have hrolled := hcleans journal ho h.dispatched
  rw [htrace] at h hrolled
  rcases r.live.ended with ⟨-, -, hunread⟩ | ⟨status, hregular⟩
  · exact hunread (r.fired_iff.mp h.fired)
  · obtain rfl := (r.completed_iff hregular h.dispatched).mpr h.sound
    have hinterrupted : journal.status = .interrupted := by
      rw [hregular.written, hregular.fired.mp (r.fired_iff.mp h.fired)]
      rfl
    have hskipped := hregular.ended.skipped (by rw [hstrategy]; rfl)
    have hattempted := (hrolled (by simp [hinterrupted])).attempted
    rw [r.rollbackCalls_eq, hskipped.2] at hattempted
    exact hrollbacks hattempted.symm

/-- **A run cleans up** exactly when it rolls back always or is not stopped late. -/
theorem cleansUp_iff (hrollbacks : experiment.rollbacks ≠ []) (hstrategy : config.rollbackStrategy ≠ .never) :
    CleansUp experiment (runExperiment Γ executor controls experiment config) ↔
      config.rollbackStrategy = .always ∨ ¬ StoppedLate Γ (runExperiment Γ executor controls experiment config).trace := by
  refine ⟨fun hcleans => ?_, cleansUp_of_not_stoppedLate hstrategy⟩
  by_contra hnot
  obtain ⟨halways, hlate⟩ := not_or.mp hnot
  have honDeviation : config.rollbackStrategy = .onDeviation := by
    cases hs : config.rollbackStrategy <;> simp_all
  exact not_cleansUp_of_stoppedLate hrollbacks honDeviation (not_not.mp hlate) hcleans

/-- A run of one action and one rollback that succeeds. -/
theorem cleansUp_iff_completed : [nativeAction "remove latency"] ≠ [] ∧
    (CleansUp { method := [nativeAction "inject latency"], rollbacks := [nativeAction "remove latency"] }
        (runExperiment stillCtx succeedingExecutor ⟨[]⟩
          { method := [nativeAction "inject latency"], rollbacks := [nativeAction "remove latency"] } {}) ↔
      RollbackStrategy.onDeviation = .always ∨ ¬ StoppedLate stillCtx (runExperiment stillCtx succeedingExecutor ⟨[]⟩
          { method := [nativeAction "inject latency"], rollbacks := [nativeAction "remove latency"] } {}).trace) :=
  ⟨by decide, @cleansUp_iff stillCtx succeedingExecutor ⟨[]⟩
    { method := [nativeAction "inject latency"], rollbacks := [nativeAction "remove latency"] } {} (by decide) (by decide)⟩

/-- A token that fires once the status is decided. -/
def firesLate : CancellationToken where
  isCancelled moment := moment = .recheck

/-- One action and one rollback, every call a success, and a token that fires after the status was decided: the run ends interrupted
and rolls nothing back. -/
theorem cleansUp_false :
    ¬ ∀ (Γ : RunnerCtx) (executor : ActivityExecutor) (controls : ControlRegistry) (experiment : Experiment) (config : RunConfig),
      experiment.rollbacks ≠ [] → config.rollbackStrategy ≠ .never →
        CleansUp experiment (runExperiment Γ executor controls experiment config) := by
  intro h
  have hcleans := h stillCtx succeedingExecutor ⟨[]⟩
    { method := [nativeAction "inject latency"], rollbacks := [nativeAction "remove latency"] }
    { cancellationToken := some firesLate } (by decide) (by decide)
  have hdispatched : Entry.called (.foreground 0) (nativeAction "inject latency") (.returned ⟨true, none, none, 1⟩) ∈
      (runExperiment stillCtx succeedingExecutor ⟨[]⟩
        { method := [nativeAction "inject latency"], rollbacks := [nativeAction "remove latency"] }
        { cancellationToken := some firesLate }).trace := List.mem_of_getElem? (i := 4) rfl
  have hrolled := (hcleans _ rfl ⟨_, hdispatched, rfl⟩ (by decide)).attempted
  exact absurd hrolled (by decide)

end Tumult
