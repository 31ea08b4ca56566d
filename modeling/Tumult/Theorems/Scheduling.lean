import Tumult.Runner.Footprint

/-!
# The schedule of the activities

The method reports its sequential steps in declared order and then its background steps in declared order, hands each out at most
once, and turns a panic of a provider into a failure. It does so whatever the providers answer and whenever the token fires, unless
an activity pauses for longer than a duration can hold.
-/

namespace Tumult

open Traced

/-! ## The law -/

/-- The activities at their sites, from a place on. -/
def sitesFrom (site : Nat → Site) : Nat → List Activity → List (Site × Activity)
  | _, [] => []
  | i, a :: as => (site i, a) :: sitesFrom site (i + 1) as

def foregroundSites (activities : List Activity) : List (Site × Activity) :=
  sitesFrom .foreground 0 (partitionBackground activities).1

def backgroundSites (activities : List Activity) : List (Site × Activity) :=
  sitesFrom .background 0 (partitionBackground activities).2

def Entry.call? : Entry → Option (Site × Activity)
  | .called site activity _ => some (site, activity)
  | _ => none

/-- What was handed to the executor, and where. -/
def calls (trace : List Entry) : List (Site × Activity) := trace.filterMap Entry.call?

/-- The token is found fired at the moment. -/
def tokenFired (token : Option CancellationToken) (moment : Moment) : Bool := token.any (·.isCancelled moment)

def NeverFires (token : Option CancellationToken) : Prop := ∀ moment, tokenFired token moment = false

/-- The status of an executed activity. -/
def callStatus : Outcome ActivityOutcome → ActivityStatus
  | .returned outcome => if outcome.success then .succeeded else .failed
  | .unwound _ => .failed

/-- The result is of the activity, which was executed and came to this status, or skipped. -/
def Reports (executor : ActivityExecutor) (called : List (Site × Activity)) (step : Site × Activity) (x : Executed) : Prop :=
  x.activity = step.2 ∧
    (step ∈ called ∧ x.result.status = callStatus (executor.execute step.1 step.2) ∨ step ∉ called ∧ x.result.status = .skipped)

/-- What the execution of a list of activities owes. -/
structure Scheduled (executor : ActivityExecutor) (activities : List Activity) (token : Option CancellationToken)
    (run : Traced Entry (List Executed × Nat)) : Prop where
  ordered : ∃ sequential concurrent results peak, run.outcome = .returned (results, peak) ∧
    sequential <+: foregroundSites activities ∧ concurrent.Sublist (backgroundSites activities) ∧
    List.Forall₂ (Reports executor (calls run.trace)) (sequential ++ concurrent) results ∧
    (NeverFires token → sequential = foregroundSites activities ∧ concurrent = backgroundSites activities)
  once : (calls run.trace).Nodup
  declared : ∀ step ∈ calls run.trace, step ∈ foregroundSites activities ++ backgroundSites activities
  all : NeverFires token → ∀ step ∈ foregroundSites activities ++ backgroundSites activities, step ∈ calls run.trace
  late : ∀ i a, tokenFired token (.pause .before (.foreground i)) = true ∨ tokenFired token (.dispatch (.foreground i)) = true →
    (.foreground i, a) ∉ calls run.trace

/-- A duration can hold the pauses of the activity. -/
def Activity.PausesFit (a : Activity) : Prop :=
  (∀ s, pauseSeconds a.pauseBeforeS = some s → s.fitsDuration = true) ∧
    ∀ s, pauseSeconds a.pauseAfterS = some s → s.fitsDuration = true

/-! ## What a computation hands out -/

/-- The computation hands out these activities and comes out so. -/
structure Does {α : Type} (x : Traced Entry α) (cs : List (Site × Activity)) (o : Outcome α) : Prop where
  calls : Tumult.calls x.trace = cs
  outcome : x.outcome = o

section Does

variable {α β : Type} {x : Traced Entry α} {cs cs' : List (Site × Activity)}

theorem Does.pure (a : α) : Does (Pure.pure a) [] (.returned a) := ⟨rfl, rfl⟩

theorem Does.bind {a : α} {f : α → Traced Entry β} {o : Outcome β} (hx : Does x cs (.returned a)) (hf : Does (f a) cs' o) :
    Does (x >>= f) (cs ++ cs') o := by
  rw [bind_of_returned hx.outcome]
  refine ⟨?_, hf.outcome⟩
  rw [← hx.calls, ← hf.calls]
  exact List.filterMap_append ..

/-- What follows a computation that hands nothing out. -/
theorem Does.after {a : α} {f : α → Traced Entry β} {o : Outcome β} (hx : Does x [] (.returned a)) (hf : Does (f a) cs o) :
    Does (x >>= f) cs o := hx.bind hf

/-- Nothing is handed out after the computation. -/
theorem Does.andThen {a : α} {f : α → Traced Entry β} {o : Outcome β} (hx : Does x cs (.returned a)) (hf : Does (f a) [] o) :
    Does (x >>= f) cs o := by
  have hboth := hx.bind hf
  rwa [List.append_nil] at hboth

theorem Does.bind_unwound {m : String} {f : α → Traced Entry β} (hx : Does x cs (.unwound m)) : Does (x >>= f) cs (.unwound m) := by
  rw [bind_of_unwound hx.outcome]
  exact ⟨hx.calls, rfl⟩

theorem Does.catchUnwind {o : Outcome α} (hx : Does x cs o) : Does (Traced.catchUnwind x) cs (.returned o) :=
  ⟨hx.calls, by rw [catchUnwind_outcome, hx.outcome]⟩

end Does

section Step

variable {Γ : RunnerCtx} {executor : ActivityExecutor} {controls : ControlRegistry} {site : Site} {activity : Activity}
  {token : Option CancellationToken}

theorem emit_does (thread : Thread) (event : LifecycleEvent) : Does (controls.emit thread event) [] (.returned ()) := by
  obtain ⟨⟨⟩, hreturned⟩ := @emit_returns controls thread event
  refine ⟨?_, hreturned⟩
  have huncalled : Always (fun e : Entry => e.call? = none) (controls.emit thread event) := by
    refine Always.bind (Always.forEach _ (fun h handler _ => ?_) 0) fun _ => Always.pure _
    exact Always.bind (Always.log rfl) fun _ => Always.catchUnwind (Always.settle _)
  exact List.filterMap_eq_nil_iff.mpr huncalled.trace

theorem isCancelled_does (moment : Moment) : Does (isCancelled token moment) [] (.returned (tokenFired token moment)) := by
  cases token with
  | none => exact Does.pure _
  | some token => exact ⟨rfl, rfl⟩

/-- A step whose token has fired at its dispatch is skipped; another is handed out and comes out as the executor does. -/
theorem executeSingleActivity_does :
    (tokenFired token (.dispatch site) = true → Does (executeSingleActivity Γ executor controls site activity token) []
      (.returned (unfinishedResult activity .skipped (Γ.now (.dispatch site)) "cancelled before provider dispatch"))) ∧
    (tokenFired token (.dispatch site) = false → Does (executeSingleActivity Γ executor controls site activity token)
      [(site, activity)] (mapOutcome (makeResult activity (Γ.now (.dispatch site))) (executor.execute site activity))) := by
  have hread : Does (isCancelled token (.dispatch site)) [] _ := isCancelled_does _
  unfold executeSingleActivity
  constructor
  · intro hfired
    rw [hfired] at hread
    exact (emit_does _ _).after (hread.after (Does.pure _))
  · intro hfired
    rw [hfired] at hread
    refine (emit_does _ _).after (hread.after ?_)
    have hcall : Does (executor.call site activity) [(site, activity)] (executor.execute site activity) := ⟨rfl, rfl⟩
    cases ho : executor.execute site activity with
    | returned outcome =>
      rw [ho] at hcall
      exact hcall.andThen ((emit_does _ _).after (Does.pure _))
    | unwound m =>
      rw [ho] at hcall
      exact hcall.bind_unwound

/-- The steps that are handed out among those that are reported. -/
def handedOut (token : Option CancellationToken) (steps : List (Site × Activity)) : List (Site × Activity) :=
  steps.filter fun step => !tokenFired token (.dispatch step.1)

/-- A panic is contained: the step is reported as skipped, or as it came out. -/
theorem executeForegroundActivity_does :
    ∃ result, Does (executeForegroundActivity Γ executor controls site activity token) (handedOut token [(site, activity)])
        (.returned result) ∧
      result.status = if tokenFired token (.dispatch site) then .skipped else callStatus (executor.execute site activity) := by
  obtain ⟨hskipped, hcalled⟩ := @executeSingleActivity_does Γ executor controls site activity token
  unfold executeForegroundActivity handedOut
  cases hfired : tokenFired token (.dispatch site) with
  | true =>
    have hcaught := (hskipped hfired).catchUnwind
    simp only [hfired, Bool.not_true, List.filter_cons, if_true, Bool.false_eq_true, if_false, List.filter_nil]
    exact ⟨_, hcaught.after (Does.pure _), rfl⟩
  | false =>
    have hcaught := (hcalled hfired).catchUnwind
    simp only [hfired, Bool.not_false, List.filter_cons, if_true, Bool.false_eq_true, if_false, List.filter_nil]
    cases ho : executor.execute site activity with
    | returned outcome =>
      rw [ho] at hcaught
      exact ⟨_, hcaught.andThen (Does.pure _), rfl⟩
    | unwound m =>
      rw [ho] at hcaught
      exact ⟨_, hcaught.andThen (Does.pure _), rfl⟩

/-- A pause is waited, unless no duration can hold it. -/
theorem pauseActivity_does (phase : Phase) (seconds : Option F64) :
    ((∀ s, pauseSeconds seconds = some s → s.fitsDuration = true) →
      Does (pauseActivity phase site seconds token) [] (.returned (!tokenFired token (.pause phase site)))) ∧
    (¬ (∀ s, pauseSeconds seconds = some s → s.fitsDuration = true) →
      ∃ m, Does (pauseActivity phase site seconds token) [] (.unwound m)) := by
  unfold pauseActivity
  constructor
  · intro hfits
    split
    · exact (isCancelled_does _).bind (Does.pure _)
    · next s hs =>
      rw [hfits s hs, if_pos rfl]
      exact Does.after (a := ()) ⟨rfl, rfl⟩ ((isCancelled_does _).bind (Does.pure _))
  · intro hfits
    split
    · next hnone => exact absurd (fun s hs => nomatch hnone.symm.trans hs) hfits
    · next s hs =>
      have hunfit : s.fitsDuration = false := by
        by_contra h
        exact hfits fun s' hs' => by rw [← Option.some.inj (hs.symm.trans hs')]; simpa using h
      rw [hunfit]
      exact ⟨_, Does.after (a := ()) ⟨rfl, rfl⟩ ⟨rfl, rfl⟩⟩

/-- The step is reported so: skipped if the token has fired at its dispatch, else as it came out. -/
def ReportedAs (executor : ActivityExecutor) (token : Option CancellationToken) (step : Site × Activity) (x : Executed) : Prop :=
  x.activity = step.2 ∧ tokenFired token (.pause .before step.1) = false ∧
    x.result.status = if tokenFired token (.dispatch step.1) then .skipped else callStatus (executor.execute step.1 step.2)

/-- A step whose pauses fit ends before its dispatch if the token has fired by then, and is reported otherwise. -/
theorem executePendingActivity_does (hfits : activity.PausesFit) :
    (tokenFired token (.pause .before site) = true ∧
      Does (executePendingActivity Γ executor controls site activity token) [] (.returned none)) ∨
    ∃ result, ReportedAs executor token (site, activity) ⟨activity, result⟩ ∧
      Does (executePendingActivity Γ executor controls site activity token) (handedOut token [(site, activity)])
        (.returned (some result)) := by
  have hbefore := (@pauseActivity_does site token .before activity.pauseBeforeS).1 hfits.1
  have hafter := (@pauseActivity_does site token .after activity.pauseAfterS).1 hfits.2
  obtain ⟨result, hexecuted, hstatus⟩ := @executeForegroundActivity_does Γ executor controls site activity token
  unfold executePendingActivity
  cases hpause : tokenFired token (.pause .before site) with
  | true =>
    rw [hpause] at hbefore
    exact .inl ⟨rfl, hbefore.after (Does.pure _)⟩
  | false =>
    rw [hpause] at hbefore
    exact .inr ⟨result, ⟨rfl, hpause, hstatus⟩, hbefore.after (hexecuted.andThen (hafter.after (Does.pure _)))⟩

/-- A step that is not stopped and has a pause no duration can hold unwinds. -/
theorem executePendingActivity_unwinds (hfits : ¬ activity.PausesFit) :
    ∃ m, (executePendingActivity Γ executor controls site activity none).outcome = .unwound m := by
  obtain ⟨hwaits, hunwinds⟩ := @pauseActivity_does site none .before activity.pauseBeforeS
  unfold executePendingActivity
  by_cases hbefore : ∀ s, pauseSeconds activity.pauseBeforeS = some s → s.fitsDuration = true
  · obtain ⟨result, hexecuted, -⟩ := @executeForegroundActivity_does Γ executor controls site activity none
    obtain ⟨m, hafter⟩ := (@pauseActivity_does site none .after activity.pauseAfterS).2 fun hafter => hfits ⟨hbefore, hafter⟩
    exact ⟨m, ((hwaits hbefore).after (hexecuted.bind hafter.bind_unwound)).outcome⟩
  · obtain ⟨m, hm⟩ := hunwinds hbefore
    exact ⟨m, hm.bind_unwound.outcome⟩

/-- A background step whose pauses fit is stopped before its dispatch by a fired token, and reported otherwise. -/
theorem backgroundThread_does {cap : Option Nat} (hcap : cap ≠ some 0) (i : Nat) (hfits : activity.PausesFit) :
    (¬ NeverFires token ∧ Does (backgroundThread Γ executor controls cap token i activity) [] (.returned none)) ∨
    ∃ result, ReportedAs executor token (.background i, activity) ⟨activity, result⟩ ∧
      Does (backgroundThread Γ executor controls cap token i activity) (handedOut token [(.background i, activity)])
        (.returned (some result)) := by
  have hpermit : Does (acquirePermit cap i token) [] (.returned (!tokenFired token (.permit i))) := by
    have hread : Does (acquirePermit cap i token) [] _ := (isCancelled_does (.permit i)).after (Does.pure _)
    simpa [hcap] using hread
  unfold backgroundThread
  cases hfired : tokenFired token (.permit i) with
  | true =>
    rw [hfired] at hpermit
    refine .inl ⟨fun hnever => ?_, hpermit.after (Does.pure _)⟩
    nomatch hfired.symm.trans (hnever _)
  | false =>
    rw [hfired] at hpermit
    rcases @executePendingActivity_does Γ executor controls (.background i) activity token hfits with
      ⟨hpause, hstep⟩ | ⟨result, hreported, hstep⟩
    · refine .inl ⟨fun hnever => ?_, hpermit.after (a := true) hstep⟩
      nomatch hpause.symm.trans (hnever _)
    · exact .inr ⟨result, hreported, hpermit.after hstep⟩

end Step

/-! ## The two lists -/

section Lists

variable {Γ : RunnerCtx} {executor : ActivityExecutor} {controls : ControlRegistry} {token : Option CancellationToken}

theorem handedOut_append (steps steps' : List (Site × Activity)) :
    handedOut token (steps ++ steps') = handedOut token steps ++ handedOut token steps' := List.filter_append ..

/-- The sequential steps are handed out and reported in order, up to the first that is stopped (induction on the steps). -/
theorem foreground_does (as : List Activity) (hfits : ∀ a ∈ as, a.PausesFit) (i : Nat) :
    ∃ steps results, steps <+: sitesFrom .foreground i as ∧ List.Forall₂ (ReportedAs executor token) steps results ∧
      (NeverFires token → steps = sitesFrom .foreground i as) ∧
      Does (whileSome (fun i activity => do
        let result ← executePendingActivity Γ executor controls (.foreground i) activity token
        pure (result.map (Executed.mk activity))) i as) (handedOut token steps) (.returned results) := by
  induction as generalizing i with
  | nil => exact ⟨[], [], List.prefix_refl _, .nil, fun _ => rfl, Does.pure _⟩
  | cons a as ih =>
    unfold sitesFrom whileSome
    rcases @executePendingActivity_does Γ executor controls (.foreground i) a token (hfits a List.mem_cons_self) with
      ⟨hpause, hstep⟩ | ⟨result, hreported, hstep⟩
    · refine ⟨[], [], List.nil_prefix, .nil, fun hnever => ?_, ?_⟩
      · nomatch hpause.symm.trans (hnever _)
      · have hstopped : Does (do
            let result ← executePendingActivity Γ executor controls (.foreground i) a token
            pure (result.map (Executed.mk a))) [] (.returned none) := hstep.andThen (Does.pure _)
        exact hstopped.andThen (Does.pure _)
    · obtain ⟨steps, results, hbefore, hreports, hall, hrest⟩ := ih (fun b hb => hfits b (List.mem_cons_of_mem _ hb)) (i + 1)
      have hfirst : Does (do
          let result ← executePendingActivity Γ executor controls (.foreground i) a token
          pure (result.map (Executed.mk a))) (handedOut token [(.foreground i, a)]) (.returned (some ⟨a, result⟩)) :=
        hstep.andThen (Does.pure _)
      refine ⟨(.foreground i, a) :: steps, ⟨a, result⟩ :: results, List.cons_prefix_cons.mpr ⟨rfl, hbefore⟩,
        .cons hreported hreports, fun hnever => by rw [hall hnever], ?_⟩
      rw [← List.singleton_append, handedOut_append]
      exact hfirst.bind (hrest.andThen (Does.pure _))

/-- Every background step is joined: it is handed out and reported, or was stopped (induction on the steps). -/
theorem background_does {cap : Option Nat} (hcap : cap ≠ some 0) (as : List Activity) (hfits : ∀ a ∈ as, a.PausesFit) (i : Nat) :
    ∃ steps joined, steps.Sublist (sitesFrom .background i as) ∧
      List.Forall₂ (ReportedAs executor token) steps (joined.filterMap id) ∧
      (NeverFires token → steps = sitesFrom .background i as) ∧
      Does (forEach (fun i activity => do
        let result ← catchUnwind (backgroundThread Γ executor controls cap token i activity)
        pure (joinedResult Γ activity i result)) i as) (handedOut token steps) (.returned joined) := by
  induction as generalizing i with
  | nil => exact ⟨[], [], List.Sublist.refl _, .nil, fun _ => rfl, Does.pure _⟩
  | cons a as ih =>
    obtain ⟨steps, joined, hsub, hreports, hall, hrest⟩ := ih (fun b hb => hfits b (List.mem_cons_of_mem _ hb)) (i + 1)
    unfold sitesFrom forEach
    rcases @backgroundThread_does Γ executor controls a token cap hcap i (hfits a List.mem_cons_self) with
      ⟨hfired, hstep⟩ | ⟨result, hreported, hstep⟩
    · have hfirst : Does (do
          let result ← catchUnwind (backgroundThread Γ executor controls cap token i a)
          pure (joinedResult Γ a i result)) [] (.returned none) := hstep.catchUnwind.andThen (Does.pure _)
      exact ⟨steps, none :: joined, hsub.cons _, hreports, fun hnever => absurd hnever hfired,
        hfirst.after (hrest.andThen (Does.pure _))⟩
    · have hfirst : Does (do
          let result ← catchUnwind (backgroundThread Γ executor controls cap token i a)
          pure (joinedResult Γ a i result)) (handedOut token [(.background i, a)]) (.returned (some ⟨a, result⟩)) :=
        hstep.catchUnwind.andThen (Does.pure _)
      refine ⟨(.background i, a) :: steps, some ⟨a, result⟩ :: joined, hsub.cons_cons _, .cons hreported hreports,
        fun hnever => by rw [hall hnever], ?_⟩
      rw [← List.singleton_append, handedOut_append]
      exact hfirst.bind (hrest.andThen (Does.pure _))

theorem mem_sitesFrom {site : Nat → Site} {i : Nat} {as : List Activity} {step : Site × Activity} (h : step ∈ sitesFrom site i as) :
    ∃ k, i ≤ k ∧ step.1 = site k := by
  induction as generalizing i with
  | nil => nomatch h
  | cons a as ih =>
    rcases List.mem_cons.mp h with rfl | h
    · exact ⟨i, Nat.le_refl i, rfl⟩
    · obtain ⟨k, hk, hstep⟩ := ih h
      exact ⟨k, by omega, hstep⟩

theorem nodup_sitesFrom {site : Nat → Site} (hinj : Function.Injective site) (i : Nat) (as : List Activity) :
    (sitesFrom site i as).Nodup := by
  induction as generalizing i with
  | nil => exact List.nodup_nil
  | cons a as ih =>
    refine List.nodup_cons.mpr ⟨fun h => ?_, ih (i + 1)⟩
    obtain ⟨k, hk, hsite⟩ := mem_sitesFrom h
    have := hinj hsite
    omega

/-- The execution of activities whose pauses fit hands out steps of both lists and reports them in order. -/
theorem executeActivities_does {cap : Option Nat} (hcap : cap ≠ some 0) {activities : List Activity}
    (hfits : ∀ a ∈ activities, a.PausesFit) :
    ∃ sequential concurrent results, sequential <+: foregroundSites activities ∧ concurrent.Sublist (backgroundSites activities) ∧
      List.Forall₂ (ReportedAs executor token) (sequential ++ concurrent) results ∧
      (NeverFires token → sequential = foregroundSites activities ∧ concurrent = backgroundSites activities) ∧
      Does (executeActivities Γ executor controls activities token cap) (handedOut token (concurrent ++ sequential))
        (.returned (results, Γ.peakConcurrentFaults)) := by
  have hforeground : ∀ a ∈ (partitionBackground activities).1, a.PausesFit := fun a ha => hfits a (List.mem_of_mem_filter ha)
  have hbackground : ∀ a ∈ (partitionBackground activities).2, a.PausesFit := fun a ha => hfits a (List.mem_of_mem_filter ha)
  obtain ⟨sequential, results, hbefore, hreports, hall, hdoes⟩ :=
    @foreground_does Γ executor controls token (partitionBackground activities).1 hforeground 0
  obtain ⟨concurrent, joined, hsub, hjoined, hall', hdoes'⟩ :=
    @background_does Γ executor controls token cap hcap (partitionBackground activities).2 hbackground 0
  refine ⟨sequential, concurrent, results ++ joined.filterMap id, hbefore, hsub, List.rel_append hreports hjoined,
    fun hnever => ⟨hall hnever, hall' hnever⟩, ?_⟩
  unfold executeActivities
  rw [handedOut_append]
  exact hdoes'.bind (hdoes.andThen (Does.pure _))

theorem forall₂_imp_of_mem {α β : Type} {R S : α → β → Prop} {as : List α} {bs : List β} (h : List.Forall₂ R as bs)
    (himp : ∀ a ∈ as, ∀ b, R a b → S a b) : List.Forall₂ S as bs := by
  induction h with
  | nil => exact .nil
  | cons hab _ ih =>
    exact .cons (himp _ List.mem_cons_self _ hab) (ih fun a ha => himp a (List.mem_cons_of_mem _ ha))

theorem nodup_sites (activities : List Activity) : (backgroundSites activities ++ foregroundSites activities).Nodup := by
  refine List.nodup_append.mpr ⟨nodup_sitesFrom (fun _ _ => Site.background.inj) _ _,
    nodup_sitesFrom (fun _ _ => Site.foreground.inj) _ _, fun b hb f hf hsame => ?_⟩
  obtain ⟨j, -, hbackground⟩ := mem_sitesFrom hb
  obtain ⟨i, -, hforeground⟩ := mem_sitesFrom hf
  rw [hsame, hforeground] at hbackground
  nomatch hbackground

/-- Activities whose pauses fit are scheduled as they should be. -/
theorem scheduled_of_fits {cap : Option Nat} (hcap : cap ≠ some 0) {activities : List Activity}
    (hfits : ∀ a ∈ activities, a.PausesFit) :
    Scheduled executor activities token (executeActivities Γ executor controls activities token cap) := by
  obtain ⟨sequential, concurrent, results, hbefore, hsub, hreports, hall, hdoes⟩ :=
    @executeActivities_does Γ executor controls token cap hcap activities hfits
  have hcalled : ∀ step, step ∈ calls (executeActivities Γ executor controls activities token cap).trace ↔
      step ∈ sequential ++ concurrent ∧ tokenFired token (.dispatch step.1) = false := by
    intro step
    rw [hdoes.calls, handedOut, List.mem_filter, List.mem_append, List.mem_append, or_comm, Bool.not_eq_true']
  have hunstopped : ∀ step ∈ sequential ++ concurrent, tokenFired token (.pause .before step.1) = false :=
    ((List.forall₂_and_left _ _).mp (hreports.imp fun step x hx => ⟨hx.2.1, hx⟩)).1
  refine ⟨⟨sequential, concurrent, results, _, hdoes.outcome, hbefore, hsub, ?_, hall⟩, ?_, fun step hstep => ?_,
    fun hnever step hstep => ?_, fun i a hfired hcall => ?_⟩
  · refine forall₂_imp_of_mem hreports fun step hstep x hx => ⟨hx.1, ?_⟩
    rw [hcalled]
    cases hfired : tokenFired token (.dispatch step.1) with
    | false => exact .inl ⟨⟨hstep, rfl⟩, by rw [hx.2.2, hfired]; rfl⟩
    | true => exact .inr ⟨fun h => (nomatch h.2), by rw [hx.2.2, hfired]; rfl⟩
  · rw [hdoes.calls]
    exact ((nodup_sites activities).sublist (hsub.append hbefore.sublist)).filter _
  · rcases List.mem_append.mp ((hcalled step).mp hstep).1 with h | h
    · exact List.mem_append_left _ (hbefore.subset h)
    · exact List.mem_append_right _ (hsub.subset h)
  · obtain ⟨rfl, rfl⟩ := hall hnever
    exact (hcalled step).mpr ⟨hstep, hnever _⟩
  · obtain ⟨hmem, hdispatch⟩ := (hcalled _).mp hcall
    rcases hfired with hpause | hfired
    · nomatch hpause.symm.trans (hunstopped _ hmem)
    · nomatch hfired.symm.trans hdispatch

/-! ### What a pause no duration can hold does -/

/-- Sequential steps that return without a token have pauses that fit. -/
theorem fits_of_foreground {as : List Activity} {i : Nat} {results : List Executed}
    (h : (whileSome (fun i activity => do
      let result ← executePendingActivity Γ executor controls (.foreground i) activity none
      pure (result.map (Executed.mk activity))) i as).outcome = .returned results) : ∀ a ∈ as, a.PausesFit := by
  induction as generalizing i results with
  | nil => exact fun a ha => absurd ha List.not_mem_nil
  | cons a as ih =>
    unfold whileSome at h
    obtain ⟨reported, hreported, hrest, -⟩ := bind_returned h
    obtain ⟨result, hstep, hpure, -⟩ := bind_returned hreported
    have hfits : a.PausesFit := by
      by_contra hnot
      obtain ⟨m, hm⟩ := @executePendingActivity_unwinds Γ executor controls (.foreground i) a hnot
      nomatch hstep.symm.trans hm
    have hsome : ∃ x, reported = some x := by
      rcases @executePendingActivity_does Γ executor controls (.foreground i) a none hfits with ⟨hpause, -⟩ | ⟨x, -, hdoes⟩
      · nomatch hpause
      · rw [hdoes.outcome] at hstep
        cases hstep
        cases hpure
        exact ⟨_, rfl⟩
    obtain ⟨x, rfl⟩ := hsome
    obtain ⟨results', hrest', -, -⟩ := bind_returned hrest
    exact List.forall_mem_cons.mpr ⟨hfits, ih hrest'⟩

/-- Without a token every background step is reported, one whose pause no duration can hold as failed. -/
theorem background_failed {cap : Option Nat} (hcap : cap ≠ some 0) (as : List Activity) (i : Nat) :
    ∃ joined, (forEach (fun i activity => do
        let result ← catchUnwind (backgroundThread Γ executor controls cap none i activity)
        pure (joinedResult Γ activity i result)) i as).outcome = .returned joined ∧
      List.Forall₂ (fun step x => step.2.PausesFit ∨ x.result.status = .failed) (sitesFrom .background i as)
        (joined.filterMap id) := by
  induction as generalizing i with
  | nil => exact ⟨[], rfl, .nil⟩
  | cons a as ih =>
    obtain ⟨joined, hjoined, hfailed⟩ := ih (i + 1)
    have hone : ∃ x, joinedResult Γ a i (backgroundThread Γ executor controls cap none i a).outcome = some x ∧
        (a.PausesFit ∨ x.result.status = .failed) := by
      by_cases hfits : a.PausesFit
      · rcases @backgroundThread_does Γ executor controls a none cap hcap i hfits with ⟨hfired, -⟩ | ⟨result, -, hdoes⟩
        · exact absurd (fun _ => rfl) hfired
        · exact ⟨⟨a, result⟩, by rw [hdoes.outcome]; rfl, .inl hfits⟩
      · obtain ⟨m, hm⟩ := @executePendingActivity_unwinds Γ executor controls (.background i) a hfits
        have hthread : (backgroundThread Γ executor controls cap none i a).outcome = .unwound m := by
          have hpermit : acquirePermit cap i none = ⟨[], .returned true⟩ := by
            simp [acquirePermit, isCancelled, hcap, bind, pure]
          unfold backgroundThread
          rw [hpermit, bind_of_returned rfl]
          exact hm
        exact ⟨_, by rw [hthread]; rfl, .inr rfl⟩
    obtain ⟨x, hx, hcase⟩ := hone
    refine ⟨some x :: joined, ?_, .cons hcase hfailed⟩
    have hfirst : (do
        let result ← catchUnwind (backgroundThread Γ executor controls cap none i a)
        pure (joinedResult Γ a i result)).outcome = .returned (some x) := by
      rw [bind_of_returned (catchUnwind_outcome _), pure_outcome, hx]
    unfold forEach
    rw [bind_of_returned hfirst, bind_of_returned hjoined]
    rfl

theorem forall₂_both {α β : Type} {R S : α → β → Prop} {as : List α} {bs : List β} (hR : List.Forall₂ R as bs)
    (hS : List.Forall₂ S as bs) : ∀ a ∈ as, ∃ b, R a b ∧ S a b := by
  induction hR with
  | nil => exact fun a ha => absurd ha List.not_mem_nil
  | cons hab _ ih =>
    cases hS with
    | cons hab' hrest => exact List.forall_mem_cons.mpr ⟨⟨_, hab, hab'⟩, ih hrest⟩

theorem exists_site_of_mem {site : Nat → Site} {a : Activity} {as : List Activity} (h : a ∈ as) (i : Nat) :
    ∃ k, (site k, a) ∈ sitesFrom site i as := by
  induction as generalizing i with
  | nil => nomatch h
  | cons b as ih =>
    rcases List.mem_cons.mp h with rfl | h
    · exact ⟨i, List.mem_cons_self⟩
    · obtain ⟨k, hk⟩ := ih h (i + 1)
      exact ⟨k, List.mem_cons_of_mem _ hk⟩

end Lists

/-- The activities are scheduled as they should be, whatever the surroundings, exactly if a duration can hold their pauses. -/
theorem activities_scheduled_iff (activities : List Activity) (cap : Option Nat) (hcap : cap ≠ some 0) :
    (∀ (Γ : RunnerCtx) (executor : ActivityExecutor) (controls : ControlRegistry) (token : Option CancellationToken),
      Scheduled executor activities token (executeActivities Γ executor controls activities token cap)) ↔
      ∀ a ∈ activities, a.PausesFit := by
  constructor
  · intro h
    -- a run without a token, whose executor always succeeds
    obtain ⟨sequential, concurrent, results, peak, hreturned, -, -, hreports, hall⟩ :=
      (h stillCtx succeedingExecutor ⟨[]⟩ none).ordered
    obtain ⟨rfl, rfl⟩ := hall fun _ => rfl
    unfold executeActivities at hreturned
    obtain ⟨joined, hjoined, hrest, -⟩ := bind_returned hreturned
    obtain ⟨foreground, hforeground, hpure, -⟩ := bind_returned hrest
    cases hpure
    have hfits := fits_of_foreground hforeground
    obtain ⟨steps, foreground', -, hlength, hsteps, hdoes⟩ :=
      @foreground_does stillCtx succeedingExecutor ⟨[]⟩ none (partitionBackground activities).1 hfits 0
    obtain rfl : foreground = foreground' := Outcome.returned.inj (hforeground.symm.trans hdoes.outcome)
    obtain ⟨joined', hjoined', hfailed⟩ :=
      @background_failed stillCtx succeedingExecutor ⟨[]⟩ cap hcap (partitionBackground activities).2 0
    obtain rfl : joined = joined' := Outcome.returned.inj (hjoined.symm.trans hjoined')
    have hbackground := List.forall₂_drop_append _ _ _ hreports
    rw [← hlength.length_eq, hsteps fun _ => rfl, ← foregroundSites, List.drop_left] at hbackground
    intro a ha
    by_cases hback : a.background = true
    · have hmem : a ∈ (partitionBackground activities).2 := List.mem_filter.mpr ⟨ha, hback⟩
      have hsite : ∃ k, (Site.background k, a) ∈ sitesFrom .background 0 _ := exists_site_of_mem hmem 0
      obtain ⟨k, hk⟩ := hsite
      obtain ⟨x, hreports, hfits | hfailed⟩ := forall₂_both hbackground hfailed _ hk
      · exact hfits
      · rcases hreports.2 with ⟨-, hstatus⟩ | ⟨-, hstatus⟩
        · nomatch hstatus.symm.trans hfailed
        · nomatch hstatus.symm.trans hfailed
    · exact hfits a (List.mem_filter.mpr ⟨ha, by simpa using hback⟩)
  · intro hfits Γ executor controls token
    exact scheduled_of_fits hcap hfits

/-- A step that waits a second, and a fault in the background. -/
def pausedSteps : List Activity :=
  [{ nativeAction "inject-latency" with pauseBeforeS := some (.finite 1) }, { nativeAction "kill-pod" with background := true }]

theorem activities_scheduled_paused :
    Scheduled succeedingExecutor pausedSteps none (executeActivities stillCtx succeedingExecutor ⟨[]⟩ pausedSteps none (some 1)) :=
  (activities_scheduled_iff pausedSteps (some 1) (by decide)).mpr (by
    intro a ha
    simp only [pausedSteps, List.mem_cons, List.not_mem_nil, or_false] at ha
    rcases ha with rfl | rfl
    · exact ⟨fun s hs => by
        obtain rfl := Option.some.inj hs
        decide, fun s hs => by cases hs⟩
    · exact ⟨fun s hs => (by cases hs), fun s hs => (by cases hs)⟩) stillCtx succeedingExecutor ⟨[]⟩ none

/-- A pause of 10^20 seconds unwinds the whole method. -/
theorem activities_scheduled_false :
    ¬ ∀ (activities : List Activity) (cap : Option Nat), cap ≠ some 0 →
      ∀ (Γ : RunnerCtx) (executor : ActivityExecutor) (controls : ControlRegistry) (token : Option CancellationToken),
        Scheduled executor activities token (executeActivities Γ executor controls activities token cap) := by
  intro h
  obtain ⟨sequential, concurrent, results, peak, hreturned, -⟩ :=
    (h [{ nativeAction "inject-latency" with pauseBeforeS := some (.finite (10 ^ 20)) }] none (by decide) stillCtx
      succeedingExecutor ⟨[]⟩ none).ordered
  have hunwound : (executeActivities stillCtx succeedingExecutor ⟨[]⟩
      [{ nativeAction "inject-latency" with pauseBeforeS := some (.finite (10 ^ 20)) }] none none).outcome =
        .unwound "cannot convert float seconds to Duration: value is either too big or NaN" := by decide
  nomatch hreturned.symm.trans hunwound

end Tumult
