import Tumult.Runner.FaultGate

/-!
# The cap on concurrent faults

The count of active faults is the number of permits held, so it stays within the cap, and the peak is the highest it ever was.
-/

namespace Tumult

open Interleave

/-- What every step of a gate keeps. -/
structure GateInv (cap : UInt32) (c : Config GateShared GatePoint) : Prop where
  active : c.shared.state.active = livePermits c.tasks
  capped : c.shared.state.active ≤ cap.toNat
  peaked : c.shared.state.active ≤ c.shared.state.peak

theorem livePermits_append (ts us : List GatePoint) : livePermits (ts ++ us) = livePermits ts + livePermits us :=
  List.count_append

theorem livePermits_middle (before after : List GatePoint) (p : GatePoint) :
    livePermits (before ++ p :: after) = livePermits [p] + livePermits (before ++ after) := by
  have hsplit : before ++ p :: after = before ++ ([p] ++ after) := rfl
  rw [hsplit, livePermits_append, livePermits_append, livePermits_append]
  omega

theorem full_new {cap : UInt32} {state : GateState} : (FaultGate.new (some cap)).full state = true ↔ cap.toNat ≤ state.active := by
  simp [FaultGate.full, FaultGate.new]

/-- A look at the gate takes a slot only when one is free, and changes nothing otherwise. -/
theorem acquire_cases (cap : UInt32) (cancelled : Bool) (state : GateState) :
    ((FaultGate.new (some cap)).acquire cancelled state = (.blocked, state) ∧ cap.toNat ≤ state.active ∧ cancelled = false) ∨
    ((FaultGate.new (some cap)).acquire cancelled state = (.refused, state) ∧ cancelled = true) ∨
    ((FaultGate.new (some cap)).acquire cancelled state = (.permit, ⟨state.active + 1, max state.peak (state.active + 1)⟩) ∧
      state.active < cap.toNat ∧ cancelled = false) := by
  unfold FaultGate.acquire
  cases cancelled with
  | true => simp
  | false =>
    by_cases hfull : (FaultGate.new (some cap)).full state = true
    · have hcap := full_new.mp hfull
      simp [hfull, hcap]
    · have hfree : state.active < cap.toNat := by
        rw [full_new] at hfull
        omega
      have hsize : UInt32.size = 4294967296 := rfl
      have hfits : (state.active + 1) % UInt32.size = state.active + 1 := Nat.mod_eq_of_lt (by
        have := cap.toNat_lt
        omega)
      simp [hfull, hfits, hfree]

section Run

variable {cap : UInt32} {c c' : Config GateShared GatePoint} {l : GateLabel} {trace : List (GateShared × GateLabel)}

/-- A permit that is given back leaves its slot to the others. -/
theorem GateInv.release {s : GateShared} {before after : List GatePoint} (h : GateInv cap ⟨s, before ++ .holding :: after⟩) :
    GateInv cap ⟨{ s with state := FaultGate.release s.state }, before ++ ([] ++ after)⟩ ∧
      (FaultGate.release s.state).peak = max s.state.peak (FaultGate.release s.state).active := by
  have hactive : s.state.active = livePermits (before ++ .holding :: after) := h.active
  have hcapped : s.state.active ≤ cap.toNat := h.capped
  have hpeaked : s.state.active ≤ s.state.peak := h.peaked
  rw [livePermits_middle] at hactive
  have hone : livePermits [.holding] = 1 := rfl
  refine ⟨⟨?_, ?_, ?_⟩, ?_⟩
  · change s.state.active - 1 = livePermits (before ++ after)
    omega
  · change s.state.active - 1 ≤ cap.toNat
    omega
  · change s.state.active - 1 ≤ s.state.peak
    omega
  · change s.state.peak = max s.state.peak (s.state.active - 1)
    omega

/-- One step of a gate keeps the counts, and raises the peak to the new count if that is higher. -/
theorem GateInv.step (h : GateInv cap c) (hs : Step (gateSystem (FaultGate.new (some cap))) c l c') :
    GateInv cap c' ∧ c'.shared.state.peak = max c.shared.state.peak c'.shared.state.active := by
  have hsame : c.shared.state.peak = max c.shared.state.peak c.shared.state.active := (Nat.max_eq_left h.peaked).symm
  cases hs with
  | reset hr =>
    cases hr with
    | spawn =>
      refine ⟨⟨?_, h.capped, h.peaked⟩, hsame⟩
      rw [livePermits_append]
      exact h.active
    | fire => exact ⟨⟨h.active, h.capped, h.peaked⟩, hsame⟩
  | @task s _ p _ _ before after ht =>
    cases ht with
    | drop => exact h.release
    | panic => exact h.release
    | acquire _ hp =>
      have hactive : s.state.active = livePermits (before ++ p :: after) := h.active
      have hcapped : s.state.active ≤ cap.toNat := h.capped
      have hpeaked : s.state.active ≤ s.state.peak := h.peaked
      have hwaits : livePermits [p] = 0 := List.count_eq_zero.mpr (by simpa using Ne.symm hp)
      rw [livePermits_middle, hwaits, Nat.zero_add] at hactive
      rcases acquire_cases cap s.cancelled s.state with ⟨hacquire, -, -⟩ | ⟨hacquire, -⟩ | ⟨hacquire, hfree, -⟩
      · rw [hacquire]
        refine ⟨⟨?_, hcapped, hpeaked⟩, hsame⟩
        change s.state.active = livePermits (before ++ .asleep :: after)
        rw [livePermits_middle, hactive]
        simp [livePermits]
      · rw [hacquire]
        exact ⟨⟨hactive, hcapped, hpeaked⟩, hsame⟩
      · rw [hacquire]
        refine ⟨⟨?_, hfree, ?_⟩, ?_⟩
        · change s.state.active + 1 = livePermits (before ++ .holding :: after)
          rw [livePermits_middle, hactive]
          have hone : livePermits [.holding] = 1 := rfl
          omega
        · exact Nat.le_max_right _ _
        · change max s.state.peak (s.state.active + 1) = max s.state.peak (s.state.active + 1)
          rfl

theorem highestActive_snoc (s s' : GateShared) (l : GateLabel) :
    highestActive (trace ++ [(s, l)]) s' = max (highestActive trace s) s'.state.active := by
  simp [highestActive, List.foldl_append]

/-- On a run from a new gate the counts are kept, and the peak is the highest count there was (induction on the run). -/
theorem gate_run (h : Run (gateSystem (FaultGate.new (some cap))) gateStart trace c) :
    GateInv cap c ∧ c.shared.state.peak = highestActive trace c.shared ∧ c.shared.state.peak ≤ cap.toNat := by
  induction h with
  | nil => exact ⟨⟨rfl, Nat.zero_le _, Nat.le_refl _⟩, rfl, Nat.zero_le _⟩
  | snoc _ hs ih =>
    obtain ⟨hinv, hpeak, hcapped⟩ := ih
    obtain ⟨hinv', hraised⟩ := hinv.step hs
    refine ⟨hinv', ?_, ?_⟩
    · rw [highestActive_snoc, ← hpeak, hraised]
    · rw [hraised]
      exact Nat.max_le.mpr ⟨hcapped, hinv'.capped⟩

/-- A look that leaves without a permit changes nothing. -/
theorem refused_unchanged (hs : Step (gateSystem (FaultGate.new (some cap))) c (.looked .refused) c') : c'.shared = c.shared := by
  generalize hlabel : GateLabel.looked .refused = label at hs
  cases hs with
  | reset hr => cases hr <;> nomatch hlabel
  | @task s _ _ _ _ before after ht =>
    cases ht with
    | drop => nomatch hlabel
    | panic => nomatch hlabel
    | acquire _ hp =>
      have hrefused := GateLabel.looked.inj hlabel
      rcases acquire_cases cap s.cancelled s.state with ⟨hacquire, -, -⟩ | ⟨hacquire, -⟩ | ⟨hacquire, -, -⟩
      · rw [hacquire] at hrefused
        nomatch hrefused
      · rw [hacquire]
      · rw [hacquire] at hrefused
        nomatch hrefused

/-- With a slot free and the token not fired, a waiting thread gets a permit at its next look. -/
theorem waiter_admitted (h : GateInv cap c) (hfree : livePermits c.tasks < cap.toNat) (htoken : c.shared.cancelled = false)
    {p : GatePoint} (hp : p ∈ c.tasks) (hwaits : p ≠ .holding) :
    ∃ c', Step (gateSystem (FaultGate.new (some cap))) c (.looked .permit) c' := by
  obtain ⟨s, tasks⟩ := c
  obtain ⟨before, after, rfl⟩ := List.append_of_mem hp
  have hactive : s.state.active = livePermits (before ++ p :: after) := h.active
  have hlook := @GateStep.acquire (FaultGate.new (some cap)) s p hwaits
  rcases acquire_cases cap s.cancelled s.state with ⟨-, hfull, -⟩ | ⟨-, hfired⟩ | ⟨hacquire, -, -⟩
  · exact absurd (hactive ▸ hfree) (Nat.not_lt.mpr hfull)
  · exact absurd (hfired.symm.trans htoken) Bool.noConfusion
  · rw [hacquire] at hlook
    exact ⟨_, .task before after hlook⟩

end Run

/-- At any moment of any run of a gate: the active faults are the permits held, they stay within the cap, the peak is the highest
their number ever was, a thread that leaves on a fired token leaves the counters as they are, and a slot whose permit is gone is
there for the next thread that waits. -/
theorem faultGate_capped (cap : UInt32) (c : Config GateShared GatePoint) (trace : List (GateShared × GateLabel))
    (h : Run (gateSystem (FaultGate.new (some cap))) gateStart trace c) :
    c.shared.state.active = livePermits c.tasks ∧ c.shared.state.active ≤ cap.toNat ∧
    c.shared.state.peak = highestActive trace c.shared ∧ c.shared.state.peak ≤ cap.toNat ∧
    (∀ c', Step (gateSystem (FaultGate.new (some cap))) c (.looked .refused) c' → c'.shared.state = c.shared.state) ∧
    (livePermits c.tasks < cap.toNat → c.shared.cancelled = false → ∀ p ∈ c.tasks, p ≠ .holding →
      ∃ c', Step (gateSystem (FaultGate.new (some cap))) c (.looked .permit) c') := by
  obtain ⟨hinv, hpeak, hcapped⟩ := gate_run h
  refine ⟨hinv.active, hinv.capped, hpeak, hcapped, fun c' hs => ?_, fun hfree htoken p hp hwaits => ?_⟩
  · rw [refused_unchanged hs]
  · exact waiter_admitted hinv hfree htoken hp hwaits

/-- Two threads at a gate with one slot: one is in, the other sleeps. -/
theorem faultGate_capped_two :
    (⟨⟨1, 1⟩, false⟩ : GateShared).state.active = livePermits [.holding, .asleep] :=
  have hspawned : Run (gateSystem (FaultGate.new (some 1))) gateStart _ ⟨⟨{}, false⟩, [.entering, .entering]⟩ :=
    .snoc (.snoc (.nil _) (.reset (.spawn _))) (.reset (.spawn _))
  have hadmitted : Run (gateSystem (FaultGate.new (some 1))) gateStart _ ⟨⟨⟨1, 1⟩, false⟩, [.holding, .entering]⟩ :=
    hspawned.task 0 rfl (.acquire _ _ (by decide))
  have hasleep : Run (gateSystem (FaultGate.new (some 1))) gateStart _ ⟨⟨⟨1, 1⟩, false⟩, [.holding, .asleep]⟩ :=
    hadmitted.task 1 rfl (.acquire _ _ (by decide))
  (faultGate_capped 1 _ _ hasleep).1

end Tumult
