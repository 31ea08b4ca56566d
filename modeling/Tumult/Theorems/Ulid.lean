import Tumult.Lake.Ulid

/-!
# The ULIDs of one process

While the clock does not go back, the identifiers of one process are different, and they sort in the order in which they were made when
no millisecond runs out of random parts.
-/

namespace Tumult.Manual

/-! ## Values -/

theorem randomU80_lt (mixed : Nat) : randomU80 mixed < 2 ^ 80 := by
  unfold randomU80
  rw [Nat.and_two_pow_sub_one_eq_mod]
  exact Nat.mod_lt _ (by decide)

/-- The next random part of a millisecond. -/
theorem next_same {s : UlidState} {nowMs mixed : Nat} (h : s.ms = nowMs) :
    s.next nowMs mixed = ⟨s.ms, (s.random + 1) % 2 ^ 80⟩ := by
  unfold UlidState.next
  rw [if_pos h, Nat.and_two_pow_sub_one_eq_mod, Nat.mod_mod_of_dvd _ (by decide : 2 ^ 80 ∣ 2 ^ 128), h]

theorem next_later {s : UlidState} {nowMs mixed : Nat} (h : s.ms ≠ nowMs) : s.next nowMs mixed = ⟨nowMs, randomU80 mixed⟩ := by
  unfold UlidState.next
  rw [if_neg h]

theorem next_random_lt (s : UlidState) (nowMs mixed : Nat) : (s.next nowMs mixed).random < 2 ^ 80 := by
  by_cases h : s.ms = nowMs
  · rw [next_same h]
    exact Nat.mod_lt _ (by decide)
  · rw [next_later h]
    exact randomU80_lt mixed

@[simp] theorem next_ms (s : UlidState) (nowMs mixed : Nat) : (s.next nowMs mixed).ms = nowMs := by
  unfold UlidState.next
  split <;> rfl

/-- The value of an identifier, when the milliseconds fit. -/
theorem value_eq {s : UlidState} (hms : s.ms < 2 ^ 48) (hrandom : s.random < 2 ^ 80) : s.value = s.ms * 2 ^ 80 + s.random := by
  have hfits : s.ms * 2 ^ 80 < 2 ^ 128 := by
    have hle : (s.ms + 1) * 2 ^ 80 ≤ 2 ^ 48 * 2 ^ 80 := Nat.mul_le_mul_right _ hms
    omega
  unfold UlidState.value
  rw [Nat.shiftLeft_eq, Nat.mod_eq_of_lt hfits, ← Nat.shiftLeft_eq, Nat.shiftLeft_add_eq_or_of_lt hrandom]

theorem crockford_lt : ∀ d < 32, ∀ e < 32, d < e → crockford.getD d '0' < crockford.getD e '0' := by decide

theorem crockfordText_eq (v : Nat) :
    (crockfordText v).toList = (Radix.bigEndian 32 26 v).map fun d => crockford.getD d '0' := by
  unfold crockfordText
  rw [String.toList_ofList, Radix.bigEndian_eq_map, List.map_map]
  refine List.map_congr_left fun i _ => ?_
  rw [Nat.shiftRight_eq_div_pow, Nat.pow_mul, show (31 : Nat) = 2 ^ 5 - 1 from rfl, Nat.and_two_pow_sub_one_eq_mod]
  rfl

/-- Texts are in the order of the values. -/
theorem crockfordText_lt {v w : Nat} (h : v < w) (hw : w < 2 ^ 128) : crockfordText v < crockfordText w := by
  have hfits : (2 : Nat) ^ 128 ≤ 32 ^ 26 := by decide
  rw [String.lt_iff_toList_lt, crockfordText_eq, crockfordText_eq]
  refine Radix.map_bigEndian_lt (by decide) (fun d e hde he => crockford_lt d (hde.trans he) e he hde) ?_
  rwa [Nat.mod_eq_of_lt ((h.trans hw).trans_le hfits), Nat.mod_eq_of_lt (hw.trans_le hfits)]

/-! ## Runs -/

/-- The states after each identifier. -/
def ulidStates (s : UlidState) : List (Nat × Nat) → List UlidState
  | [] => []
  | t :: ts => s.next t.1 t.2 :: ulidStates (s.next t.1 t.2) ts

theorem ulids_eq_map (s : UlidState) (ts : List (Nat × Nat)) : ulids s ts = (ulidStates s ts).map fun s' => crockfordText s'.value := by
  induction ts generalizing s with
  | nil => rfl
  | cons t ts ih => rw [ulids, ulidStates, List.map_cons, ulid, ih]

/-- A state that comes at most `n` identifiers after another: in a later millisecond, or counted up. -/
def ComesAfter (s s' : UlidState) (n : Nat) : Prop :=
  s.ms < s'.ms ∨ s'.ms = s.ms ∧ ∃ k, 0 < k ∧ k ≤ n ∧ s'.random = (s.random + k) % 2 ^ 80

/-- Whatever comes after the next state comes after this one. -/
theorem ComesAfter.of_next {s s' : UlidState} {t : Nat × Nat} {n : Nat} (hclock : s.ms ≤ t.1) (h : ComesAfter (s.next t.1 t.2) s' n) :
    ComesAfter s s' (n + 1) := by
  rcases Nat.lt_or_eq_of_le hclock with hlt | heq
  · left
    rcases h with hms | ⟨hms, -⟩
    · rw [next_ms] at hms
      exact hlt.trans hms
    · rw [next_ms] at hms
      rwa [hms]
  · rw [next_same heq] at h
    rcases h with hms | ⟨hms, k, hk, hkn, hrandom⟩
    · exact .inl hms
    · refine .inr ⟨hms, k + 1, Nat.succ_pos k, Nat.succ_le_succ hkn, ?_⟩
      rw [hrandom, Nat.mod_add_mod, Nat.add_assoc, Nat.add_comm 1]

theorem comesAfter_next {s : UlidState} {t : Nat × Nat} {n : Nat} (hclock : s.ms ≤ t.1) : ComesAfter s (s.next t.1 t.2) (n + 1) := by
  rcases Nat.lt_or_eq_of_le hclock with hlt | heq
  · exact .inl (by rwa [next_ms])
  · rw [next_same heq]
    exact .inr ⟨rfl, 1, Nat.one_pos, Nat.le_add_left 1 n, rfl⟩

/-- All the states of a run come after the one it starts from. -/
theorem comesAfter_run {s : UlidState} {ts : List (Nat × Nat)} (hclock : (s.ms :: ts.map (·.1)).Pairwise (· ≤ ·)) :
    ∀ s' ∈ ulidStates s ts, ComesAfter s s' ts.length := by
  induction ts generalizing s with
  | nil => exact fun s' hs' => absurd hs' List.not_mem_nil
  | cons t ts ih =>
    rw [List.map_cons, List.pairwise_cons] at hclock
    have hle : s.ms ≤ t.1 := hclock.1 t.1 List.mem_cons_self
    intro s' hs'
    rcases List.mem_cons.mp hs' with rfl | hs'
    · exact comesAfter_next hle
    · exact .of_next hle (ih (by rw [next_ms]; exact hclock.2) s' hs')

/-- The milliseconds and the random parts of a run fit. -/
theorem run_fits {s : UlidState} {ts : List (Nat × Nat)} (hms : ∀ t ∈ ts, t.1 < 2 ^ 48) :
    ∀ s' ∈ ulidStates s ts, s'.ms < 2 ^ 48 ∧ s'.random < 2 ^ 80 := by
  induction ts generalizing s with
  | nil => exact fun s' hs' => absurd hs' List.not_mem_nil
  | cons t ts ih =>
    intro s' hs'
    rcases List.mem_cons.mp hs' with rfl | hs'
    · exact ⟨by rw [next_ms]; exact hms t List.mem_cons_self, next_random_lt s t.1 t.2⟩
    · exact ih (fun t' ht' => hms t' (List.mem_cons_of_mem _ ht')) s' hs'

/-- A state and one that comes after it have different values, and the greater one comes after unless it was counted past the end. -/
theorem ComesAfter.value {s s' : UlidState} {n : Nat} (h : ComesAfter s s' n) (hs : s.ms < 2 ^ 48 ∧ s.random < 2 ^ 80)
    (hs' : s'.ms < 2 ^ 48 ∧ s'.random < 2 ^ 80) (hn : n < 2 ^ 80) :
    s.value ≠ s'.value ∧ (s.random + n < 2 ^ 80 → s.value < s'.value) := by
  rw [value_eq hs.1 hs.2, value_eq hs'.1 hs'.2]
  rcases h with hms | ⟨hms, k, hk, hkn, hrandom⟩
  · have hlt : s.ms * 2 ^ 80 + s.random < s'.ms * 2 ^ 80 + s'.random := by
      have hle : (s.ms + 1) * 2 ^ 80 ≤ s'.ms * 2 ^ 80 := Nat.mul_le_mul_right _ hms
      omega
    exact ⟨Nat.ne_of_lt hlt, fun _ => hlt⟩
  · rw [hms, hrandom]
    obtain ⟨-, hfits⟩ := hs
    constructor
    · omega
    · omega

/-- No millisecond runs out of random parts: from the state on, and from any fresh random part on. -/
def Roomy (s : UlidState) (ts : List (Nat × Nat)) : Prop :=
  s.random + ts.length < 2 ^ 80 ∧ ∀ t ∈ ts, randomU80 t.2 + ts.length ≤ 2 ^ 80

theorem Roomy.next {s : UlidState} {t : Nat × Nat} {ts : List (Nat × Nat)} (h : Roomy s (t :: ts)) : Roomy (s.next t.1 t.2) ts := by
  obtain ⟨hroom, hfresh⟩ := h
  rw [List.length_cons] at hroom hfresh
  refine ⟨?_, fun t' ht' => Nat.le_of_succ_le (hfresh t' (List.mem_cons_of_mem _ ht'))⟩
  by_cases hms : s.ms = t.1
  · rw [next_same hms, Nat.mod_eq_of_lt (by omega)]
    show s.random + 1 + ts.length < 2 ^ 80
    omega
  · rw [next_later hms]
    have := hfresh t List.mem_cons_self
    show randomU80 t.2 + ts.length < 2 ^ 80
    omega

theorem run_pairwise {s : UlidState} {ts : List (Nat × Nat)} (hclock : (s.ms :: ts.map (·.1)).Pairwise (· ≤ ·))
    (hms : ∀ t ∈ ts, t.1 < 2 ^ 48) (hlength : ts.length < 2 ^ 80) :
    (ulidStates s ts).Pairwise (fun a b => a.value ≠ b.value) ∧ (Roomy s ts → (ulidStates s ts).Pairwise (fun a b => a.value < b.value)) := by
  induction ts generalizing s with
  | nil => exact ⟨.nil, fun _ => .nil⟩
  | cons t ts ih =>
    rw [List.map_cons, List.pairwise_cons] at hclock
    rw [List.length_cons] at hlength
    have hfits := run_fits (s := s) hms
    have hclock' : ((s.next t.1 t.2).ms :: ts.map (·.1)).Pairwise (· ≤ ·) := by rw [next_ms]; exact hclock.2
    obtain ⟨hne, hlt⟩ := ih hclock' (fun t' ht' => hms t' (List.mem_cons_of_mem _ ht')) (Nat.lt_of_succ_lt hlength)
    have hvalue (s' : UlidState) (hs' : s' ∈ ulidStates (s.next t.1 t.2) ts) :=
      (comesAfter_run hclock' s' hs').value (hfits _ List.mem_cons_self) (hfits s' (List.mem_cons_of_mem _ hs'))
        (Nat.lt_of_succ_lt hlength)
    rw [ulidStates]
    exact ⟨.cons (fun s' hs' => (hvalue s' hs').1) hne,
      fun hroom => .cons (fun s' hs' => (hvalue s' hs').2 hroom.next.1) (hlt hroom.next)⟩

/-- As long as the clock does not go back, no two of the fewer than 2^80 identifiers that a process makes are the same; and they sort in
the order in which they were made, when no millisecond can run out of random parts. -/
theorem ulids_distinct {ts : List (Nat × Nat)} (hclock : (ts.map (·.1)).Pairwise (· ≤ ·)) (hms : ∀ t ∈ ts, t.1 < 2 ^ 48)
    (hlength : ts.length < 2 ^ 80) :
    (ulids ⟨0, 0⟩ ts).Nodup ∧ ((∀ t ∈ ts, randomU80 t.2 + ts.length ≤ 2 ^ 80) → (ulids ⟨0, 0⟩ ts).Pairwise (· < ·)) := by
  obtain ⟨hne, hlt⟩ := run_pairwise (s := ⟨0, 0⟩) (.cons (fun _ _ => Nat.zero_le _) hclock) hms hlength
  have hfits := run_fits (s := ⟨0, 0⟩) hms
  have hsmall (s' : UlidState) (hs' : s' ∈ ulidStates ⟨0, 0⟩ ts) : s'.value < 2 ^ 128 := by
    obtain ⟨hs₁, hs₂⟩ := hfits s' hs'
    rw [value_eq hs₁ hs₂]
    have hle : (s'.ms + 1) * 2 ^ 80 ≤ 2 ^ 48 * 2 ^ 80 := Nat.mul_le_mul_right _ hs₁
    omega
  rw [ulids_eq_map]
  refine ⟨?_, fun hroom => ?_⟩
  · refine List.pairwise_map.mpr (hne.imp_of_mem fun {a b} ha hb hab heq => ?_)
    rcases Nat.lt_or_gt_of_ne hab with h | h
    · exact absurd heq (ne_of_lt (crockfordText_lt h (hsmall b hb)))
    · exact absurd heq (ne_of_gt (crockfordText_lt h (hsmall a ha)))
  · exact List.pairwise_map.mpr ((hlt ⟨by simpa using hlength, hroom⟩).imp_of_mem fun {a b} _ hb hab => crockfordText_lt hab (hsmall b hb))

theorem ulids_distinct_three : (ulids ⟨0, 0⟩ [(5, 7), (5, 7), (9, 3)]).Nodup ∧ (ulids ⟨0, 0⟩ [(5, 7), (5, 7), (9, 3)]).Pairwise (· < ·) :=
  have h := @ulids_distinct [(5, 7), (5, 7), (9, 3)] (by decide) (by decide) (by decide)
  ⟨h.1, h.2 (by decide)⟩

end Tumult.Manual
