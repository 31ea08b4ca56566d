import Tumult.Runner.Experiment

/-!
# When the guard monitor halts

The monitor evaluates every guard once a round. It halts at the first evaluation that makes as many consecutive unsafe observations
of one guard as the guard allows, and at no other; a probe that panics takes the monitor's thread with it, and nothing is evaluated
after.
-/

namespace Tumult

open Traced

/-! ## The stream of evaluations -/

/-- One evaluation of a guard: the round it is made in, and the guard's place among the guards. -/
structure Evaluation where
  round : Nat
  place : Nat
  guard : Guard

/-- The evaluations of a round, from a place on. -/
def roundEvaluations (round : Nat) : Nat → List Guard → List Evaluation
  | _, [] => []
  | i, g :: guards => ⟨round, i, g⟩ :: roundEvaluations round (i + 1) guards

/-- The evaluations of some rounds, from a round on, in the order the monitor makes them. -/
def evaluationsFrom (guards : List Guard) : Nat → Nat → List Evaluation
  | 0, _ => []
  | rounds + 1, round => roundEvaluations round 0 guards ++ evaluationsFrom guards rounds (round + 1)

section Monitor

variable (Γ : RunnerCtx) (executor : ActivityExecutor)

/-- What the guard's probe answers. -/
def Evaluation.answer (e : Evaluation) : Outcome ActivityOutcome := executor.execute (.guard e.round e.place) e.guard.probe

/-- The entry the evaluation leaves. -/
def Evaluation.entry (e : Evaluation) : Entry := .called (.guard e.round e.place) e.guard.probe (e.answer executor)

/-- The probe answers outside its tolerance, or does not succeed. -/
def Evaluation.isUnsafe (e : Evaluation) : Bool :=
  match e.answer executor with
  | .returned outcome => !probeOutcomeOk Γ e.guard.probe outcome.success outcome.output
  | .unwound _ => false

/-- The probe panics. -/
def Evaluation.Panics (e : Evaluation) : Prop := ∃ m, e.answer executor = .unwound m

/-- The evaluation of the same guard some rounds before. -/
def Evaluation.back (e : Evaluation) (d : Nat) : Evaluation := { e with round := e.round - d }

/-- The evaluation is unsafe, and with it the last as many of its guard as the guard allows. -/
def Evaluation.Breaches (e : Evaluation) : Prop :=
  e.isUnsafe Γ executor = true ∧ e.guard.minBreaches ≤ e.round + 1 ∧ ∀ d < e.guard.minBreaches, (e.back d).isUnsafe Γ executor = true

/-- How many evaluations of the guard before a round were unsafe since the last one that was not. -/
def streakBefore (place : Nat) (g : Guard) : Nat → Nat
  | 0 => 0
  | round + 1 => if Evaluation.isUnsafe Γ executor ⟨round, place, g⟩ then streakBefore place g round + 1 else 0

/-- The guard's streak, with the evaluation. -/
def Evaluation.streak (e : Evaluation) : Nat := streakBefore Γ executor e.place e.guard (e.round + 1)

variable {Γ executor} in
/-- A streak is as long as there are unsafe evaluations without another between them. -/
theorem le_streakBefore_iff {place : Nat} {g : Guard} {round k : Nat} :
    k ≤ streakBefore Γ executor place g round ↔
      k ≤ round ∧ ∀ d < k, Evaluation.isUnsafe Γ executor ⟨round - 1 - d, place, g⟩ = true := by
  induction round generalizing k with
  | zero =>
    simp only [streakBefore, Nat.le_zero]
    constructor
    · rintro rfl
      exact ⟨rfl, fun d hd => absurd hd (Nat.not_lt_zero d)⟩
    · exact fun h => h.1
  | succ round ih =>
    unfold streakBefore
    cases k with
    | zero => simp
    | succ k =>
      by_cases hbreaching : Evaluation.isUnsafe Γ executor ⟨round, place, g⟩ = true
      · rw [if_pos hbreaching, Nat.add_le_add_iff_right, ih, Nat.add_le_add_iff_right]
        refine and_congr_right fun hk => ⟨fun h d hd => ?_, fun h d hd => ?_⟩
        · cases d with
          | zero => exact hbreaching
          | succ d =>
            have hback : round + 1 - 1 - (d + 1) = round - 1 - d := by omega
            rw [hback]
            exact h d (by omega)
        · have hback : round + 1 - 1 - (d + 1) = round - 1 - d := by omega
          rw [← hback]
          exact h (d + 1) (by omega)
      · rw [if_neg hbreaching]
        constructor
        · intro h
          omega
        · intro h
          exact absurd (h.2 0 (by omega)) hbreaching

variable {Γ executor} in
theorem Evaluation.breaches_iff {e : Evaluation} :
    e.Breaches Γ executor ↔ e.isUnsafe Γ executor = true ∧ e.guard.minBreaches ≤ e.streak Γ executor := by
  unfold Evaluation.Breaches Evaluation.streak
  rw [le_streakBefore_iff]
  rfl

/-- The record of a halt at the evaluation. -/
def Evaluation.haltRecord (e : Evaluation) : HaltRecord :=
  { guardName := e.guard.name
    observed := (e.answer executor).elim (·.output) fun _ => none
    safeCondition := describeSafeCondition Γ e.guard.probe.tolerance
    breachCount := e.streak Γ executor
    breachedAtNs := Γ.now (.dispatch (.guard e.round e.place))
    timeToHaltMs := Γ.elapsedMs (.dispatch (.guard e.round e.place))
    rollbackMs := 0 }

/-! ## The monitor over the stream -/

/-- How an evaluation ends the monitor, if it does: with a halt, or by a panic. -/
def Evaluation.stop? (e : Evaluation) : Option (Outcome HaltRecord) :=
  match e.answer executor with
  | .unwound m => some (.unwound m)
  | .returned _ =>
    if e.isUnsafe Γ executor && decide (e.guard.minBreaches ≤ e.streak Γ executor) then some (.returned (e.haltRecord Γ executor))
    else none

/-- The evaluations one after another, up to the first that ends the monitor; what comes after them otherwise. -/
def watch (next : Traced Entry (Option HaltRecord)) : List Evaluation → Traced Entry (Option HaltRecord)
  | [] => next
  | e :: es =>
    match e.stop? Γ executor with
    | some (.returned record) => ⟨[e.entry executor, .methodCancelled], .returned (some record)⟩
    | some (.unwound m) => ⟨[e.entry executor], .unwound m⟩
    | none => ⟨e.entry executor :: (watch next es).trace, (watch next es).outcome⟩

/-- The guards with their streaks before a round. -/
def counted (round : Nat) : Nat → List Guard → List (Guard × Nat)
  | _, [] => []
  | i, g :: guards => (g, streakBefore Γ executor i g round) :: counted round (i + 1) guards

variable {Γ executor}

theorem watch_append (next : Traced Entry (Option HaltRecord)) (es es' : List Evaluation) :
    watch Γ executor next (es ++ es') = watch Γ executor (watch Γ executor next es') es := by
  induction es with
  | nil => rfl
  | cons e es ih =>
    rw [List.cons_append]
    unfold watch
    rw [ih]

theorem counted_start (i : Nat) (guards : List Guard) : counted Γ executor 0 i guards = guards.map (·, 0) := by
  induction guards generalizing i with
  | nil => rfl
  | cons g guards ih =>
    unfold counted
    rw [ih]
    rfl

/-- What a round's result goes on with. -/
def afterRound (next : List (Guard × Nat) → Traced Entry (Option HaltRecord)) :
    Except HaltRecord (List (Guard × Nat)) → Traced Entry (Option HaltRecord)
  | .error record => pure (some record)
  | .ok guards => next guards

theorem afterRound_map (next : List (Guard × Nat) → Traced Entry (Option HaltRecord)) (p : Guard × Nat)
    (r : Except HaltRecord (List (Guard × Nat))) :
    afterRound next (r.map (p :: ·)) = afterRound (fun guards => next (p :: guards)) r := by
  cases r <;> rfl

/-- A round that finds every streak as it was leaves it as it is, or ends at the first evaluation that stops it. -/
theorem guardRound_watch (round i : Nat) (guards : List Guard) (next : List (Guard × Nat) → Traced Entry (Option HaltRecord)) :
    guardRound Γ executor round i (counted Γ executor round i guards) >>= afterRound next =
      watch Γ executor (next (counted Γ executor (round + 1) i guards)) (roundEvaluations round i guards) := by
  induction guards generalizing i next with
  | nil =>
    unfold counted guardRound roundEvaluations watch
    rfl
  | cons g guards ih =>
    -- the rest of the round, with this guard's new streak kept aside for what follows
    have hrest (c : Nat) : (guardRound Γ executor round (i + 1) (counted Γ executor round (i + 1) guards) >>= fun rest =>
        pure (rest.map ((g, c) :: ·))) >>= afterRound next =
          watch Γ executor (next ((g, c) :: counted Γ executor (round + 1) (i + 1) guards))
            (roundEvaluations round (i + 1) guards) := by
      rw [bind_bind, ← ih (i + 1) fun guards => next ((g, c) :: guards)]
      refine congrArg _ (funext fun r => ?_)
      exact afterRound_map next (g, c) r
    have hanswer : (executor.call (.guard round i) g.probe).outcome = executor.execute (.guard round i) g.probe := rfl
    unfold counted guardRound roundEvaluations watch
    rw [bind_bind]
    cases ho : executor.execute (.guard round i) g.probe with
    | unwound m =>
      have hstop : Evaluation.stop? Γ executor ⟨round, i, g⟩ = some (.unwound m) := by
        simp [Evaluation.stop?, Evaluation.answer, ho]
      rw [bind_of_unwound (hanswer.trans ho), hstop]
      rfl
    | returned outcome =>
      have hbreaching : Evaluation.isUnsafe Γ executor ⟨round, i, g⟩ = !probeOutcomeOk Γ g.probe outcome.success outcome.output := by
        simp [Evaluation.isUnsafe, Evaluation.answer, ho]
      have hstreak : streakBefore Γ executor i g (round + 1) =
          if Evaluation.isUnsafe Γ executor ⟨round, i, g⟩ then streakBefore Γ executor i g round + 1 else 0 := rfl
      rw [bind_of_returned (hanswer.trans ho)]
      cases hok : probeOutcomeOk Γ g.probe outcome.success outcome.output with
      | true =>
        rw [hok, Bool.not_true] at hbreaching
        rw [hbreaching, if_neg Bool.false_ne_true] at hstreak
        have hstop : Evaluation.stop? Γ executor ⟨round, i, g⟩ = none := by
          simp [Evaluation.stop?, Evaluation.answer, ho, hbreaching]
        rw [hstop, hstreak, if_pos rfl, hrest 0]
        rfl
      | false =>
        rw [hok, Bool.not_false] at hbreaching
        rw [hbreaching, if_pos rfl] at hstreak
        rw [if_neg Bool.false_ne_true, hstreak]
        by_cases hmin : g.minBreaches ≤ streakBefore Γ executor i g round + 1
        · have hstop : Evaluation.stop? Γ executor ⟨round, i, g⟩ = some (.returned (Evaluation.haltRecord Γ executor ⟨round, i, g⟩)) := by
            simp [Evaluation.stop?, Evaluation.answer, ho, hbreaching, Evaluation.streak, hstreak, hmin]
          rw [hstop, if_pos hmin]
          simp only [Evaluation.haltRecord, Evaluation.streak, Evaluation.answer, ho, hstreak]
          rfl
        · have hstop : Evaluation.stop? Γ executor ⟨round, i, g⟩ = none := by
            simp only [Evaluation.stop?, Evaluation.answer, ho, hbreaching, Evaluation.streak, hstreak]
            simp [hmin]
          rw [hstop, if_neg hmin, hrest]
          rfl

/-- The monitor's rounds are the evaluations one after another. -/
theorem runGuardMonitor_watch (guards : List Guard) (rounds round : Nat) :
    runGuardMonitor Γ executor rounds round (counted Γ executor round 0 guards) =
      watch Γ executor (pure none) (evaluationsFrom guards rounds round) := by
  induction rounds generalizing round with
  | zero => rfl
  | succ rounds ih =>
    unfold runGuardMonitor evaluationsFrom
    rw [watch_append, ← ih]
    exact guardRound_watch round 0 guards (runGuardMonitor Γ executor rounds (round + 1))

/-! ## The first breach -/

theorem Evaluation.stop?_of_breaches {e : Evaluation} (h : e.Breaches Γ executor) :
    e.stop? Γ executor = some (.returned (e.haltRecord Γ executor)) := by
  obtain ⟨hbreaching, hstreak⟩ := Evaluation.breaches_iff.mp h
  unfold Evaluation.stop?
  split
  · next m ho => simp [Evaluation.isUnsafe, ho] at hbreaching
  · rw [hbreaching, decide_eq_true hstreak]
    rfl

theorem Evaluation.stop?_eq_none_iff {e : Evaluation} : e.stop? Γ executor = none ↔ ¬ e.Breaches Γ executor ∧ ¬ e.Panics executor := by
  rw [Evaluation.breaches_iff]
  unfold Evaluation.stop? Evaluation.Panics
  split
  · next m ho => simp [ho]
  · next outcome ho => simp [ho]

variable (Γ executor) in
/-- The first evaluation that breaches its guard, with no panic before it. -/
structure BreachesFirst (es before : List Evaluation) (e : Evaluation) (after : List Evaluation) : Prop where
  stream : es = before ++ e :: after
  breaches : e.Breaches Γ executor
  quiet : ∀ e' ∈ before, ¬ e'.Breaches Γ executor ∧ ¬ e'.Panics executor

theorem watch_of_quiet (next : Traced Entry (Option HaltRecord)) {es : List Evaluation}
    (h : ∀ e ∈ es, ¬ e.Breaches Γ executor ∧ ¬ e.Panics executor) :
    watch Γ executor next es = ⟨es.map (Evaluation.entry executor) ++ next.trace, next.outcome⟩ := by
  induction es with
  | nil => rfl
  | cons e es ih =>
    have hnone := Evaluation.stop?_eq_none_iff.mpr (h e List.mem_cons_self)
    unfold watch
    rw [hnone, ih fun e' he' => h e' (List.mem_cons_of_mem _ he')]
    rfl

/-- The evaluations up to the first breach are made, the token is cancelled, and nothing is evaluated after. -/
theorem BreachesFirst.watch {next : Traced Entry (Option HaltRecord)} {es before after : List Evaluation} {e : Evaluation}
    (h : BreachesFirst Γ executor es before e after) :
    watch Γ executor next es =
      ⟨(before ++ [e]).map (Evaluation.entry executor) ++ [.methodCancelled], .returned (some (e.haltRecord Γ executor))⟩ := by
  rw [h.stream, watch_append, watch_of_quiet _ h.quiet]
  unfold Tumult.watch
  rw [Evaluation.stop?_of_breaches h.breaches]
  simp

/-- Without a first breach no halt is recorded and the token is left alone. -/
theorem watch_of_not_breachesFirst {es : List Evaluation} (h : ¬ ∃ before e after, BreachesFirst Γ executor es before e after) :
    .methodCancelled ∉ (watch Γ executor (pure none) es).trace ∧
      ((watch Γ executor (pure none) es).outcome = .returned none ∨ ∃ m, (watch Γ executor (pure none) es).outcome = .unwound m) := by
  induction es with
  | nil => exact ⟨List.not_mem_nil, .inl rfl⟩
  | cons e es ih =>
    have hbreaches : ¬ e.Breaches Γ executor := fun hb => h ⟨[], e, es, rfl, hb, by simp⟩
    unfold watch
    cases hstop : e.stop? Γ executor with
    | none =>
      have hquiet := Evaluation.stop?_eq_none_iff.mp hstop
      have hrest := ih fun ⟨before, e', after, hfirst⟩ => h ⟨e :: before, e', after, by rw [hfirst.stream, List.cons_append],
        hfirst.breaches, List.forall_mem_cons.mpr ⟨hquiet, hfirst.quiet⟩⟩
      refine ⟨?_, hrest.2⟩
      rw [List.mem_cons, not_or]
      exact ⟨nofun, hrest.1⟩
    | some o =>
      cases o with
      | returned record =>
        refine absurd ?_ hbreaches
        rw [Evaluation.breaches_iff]
        unfold Evaluation.stop? at hstop
        split at hstop
        · nomatch hstop
        · split at hstop
          · next hboth => simpa using hboth
          · nomatch hstop
      | unwound m =>
        refine ⟨?_, .inr ⟨m, rfl⟩⟩
        rw [List.mem_singleton]
        nofun

theorem evaluationsFrom_nil (rounds round : Nat) : evaluationsFrom [] rounds round = [] := by
  induction rounds generalizing round with
  | zero => rfl
  | succ rounds ih =>
    unfold evaluationsFrom
    rw [ih]
    rfl

/-- The monitor's thread is the stream of its evaluations, with a panic contained. -/
theorem guardMonitor_watch (experiment : Experiment) :
    (guardMonitor Γ executor experiment).trace =
        (watch Γ executor (pure none) (evaluationsFrom experiment.guards (Γ.guardRounds + 1) 0)).trace ∧
      (guardMonitor Γ executor experiment).outcome = .returned
        ((watch Γ executor (pure none) (evaluationsFrom experiment.guards (Γ.guardRounds + 1) 0)).outcome.elim id fun _ => none) := by
  have hmonitor : runGuardMonitor Γ executor (Γ.guardRounds + 1) 0 (counted Γ executor 0 0 experiment.guards) =
      watch Γ executor (pure none) (evaluationsFrom experiment.guards (Γ.guardRounds + 1) 0) := runGuardMonitor_watch _ _ _
  rw [counted_start] at hmonitor
  unfold guardMonitor
  by_cases hguards : experiment.guards = []
  · rw [if_pos hguards, hguards, evaluationsFrom_nil]
    exact ⟨rfl, rfl⟩
  · rw [if_neg hguards, hmonitor]
    cases ho : (watch Γ executor (pure none) (evaluationsFrom experiment.guards (Γ.guardRounds + 1) 0)).outcome with
    | returned halt =>
      rw [bind_of_returned rfl, catchUnwind_trace, ho]
      simp
    | unwound m =>
      rw [bind_of_returned rfl, catchUnwind_trace, ho]
      simp

/-- The guard monitor halts a method exactly at the first breach of a guard: it has then made the evaluations up to it, cancelled
the token once, and recorded the guard with its streak, which is the number of its unsafe evaluations since the last other one. -/
theorem guardMonitor_halts (Γ : RunnerCtx) (executor : ActivityExecutor) (experiment : Experiment) :
    (∀ record, (guardMonitor Γ executor experiment).outcome = .returned (some record) ↔
      ∃ before e after, BreachesFirst Γ executor (evaluationsFrom experiment.guards (Γ.guardRounds + 1) 0) before e after ∧
        record = e.haltRecord Γ executor) ∧
    (∀ before e after, BreachesFirst Γ executor (evaluationsFrom experiment.guards (Γ.guardRounds + 1) 0) before e after →
      (guardMonitor Γ executor experiment).trace = (before ++ [e]).map (Evaluation.entry executor) ++ [.methodCancelled]) ∧
    ((¬ ∃ before e after, BreachesFirst Γ executor (evaluationsFrom experiment.guards (Γ.guardRounds + 1) 0) before e after) →
      .methodCancelled ∉ (guardMonitor Γ executor experiment).trace) ∧
    ∀ (e : Evaluation) (k : Nat), k ≤ (e.haltRecord Γ executor).breachCount ↔
      k ≤ e.round + 1 ∧ ∀ d < k, (e.back d).isUnsafe Γ executor = true := by
  obtain ⟨htrace, houtcome⟩ := @guardMonitor_watch Γ executor experiment
  rw [htrace, houtcome]
  refine ⟨fun record => ?_, fun before e after h => ?_, fun h => (watch_of_not_breachesFirst h).1, fun e k => le_streakBefore_iff⟩
  · constructor
    · intro hrecord
      by_cases h : ∃ before e after, BreachesFirst Γ executor (evaluationsFrom experiment.guards (Γ.guardRounds + 1) 0) before e after
      · obtain ⟨before, e, after, hfirst⟩ := h
        rw [hfirst.watch] at hrecord
        exact ⟨before, e, after, hfirst, (Option.some.inj (Outcome.returned.inj hrecord)).symm⟩
      · rcases (watch_of_not_breachesFirst h).2 with hnone | ⟨m, hunwound⟩
        · rw [hnone] at hrecord
          nomatch hrecord
        · rw [hunwound] at hrecord
          nomatch hrecord
    · rintro ⟨before, e, after, hfirst, rfl⟩
      rw [hfirst.watch]
      rfl
  · rw [h.watch]

end Monitor

/-- A probe that succeeds in the second round only. -/
def flappingExecutor : ActivityExecutor where
  execute site _ :=
    match site with
    | .guard round _ => .returned ⟨round = 1, none, none, 1⟩
    | _ => .returned ⟨true, none, none, 1⟩

/-- A guard that allows one unsafe observation. -/
def debouncedGuard : Guard := ⟨"latency", { name := "p99", activityType := .probe, provider := .native "tumult-net" "p99" [] }, 2⟩

/-- The safe observation between the first and the third starts the count again: the monitor halts in the fourth round. -/
theorem guardMonitor_halts_debounced :
    (guardMonitor { stillCtx with guardRounds := 5 } flappingExecutor { guards := [debouncedGuard] }).trace =
      ([⟨0, 0, debouncedGuard⟩, ⟨1, 0, debouncedGuard⟩, ⟨2, 0, debouncedGuard⟩, ⟨3, 0, debouncedGuard⟩] : List Evaluation).map
        (Evaluation.entry flappingExecutor) ++ [.methodCancelled] := by
  refine (guardMonitor_halts { stillCtx with guardRounds := 5 } flappingExecutor { guards := [debouncedGuard] }).2.1
    [⟨0, 0, debouncedGuard⟩, ⟨1, 0, debouncedGuard⟩, ⟨2, 0, debouncedGuard⟩] ⟨3, 0, debouncedGuard⟩
    [⟨4, 0, debouncedGuard⟩, ⟨5, 0, debouncedGuard⟩] ⟨rfl, ⟨rfl, by decide, by decide⟩, ?_⟩
  intro e he
  refine Evaluation.stop?_eq_none_iff.mp ?_
  fin_cases he <;> rfl

end Tumult
