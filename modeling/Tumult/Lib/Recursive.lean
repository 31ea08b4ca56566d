import Mathlib

/-!
# Recursive queries

`WITH RECURSIVE … UNION` evaluates its recursive member on the rows that the last round added, and drops the rows that are there
already, until a round adds none. Where the rows of a round are those of one level, the rounds are the levels.
-/

namespace Recursive

variable {α ε : Type} [DecidableEq α]

/-- The rows of a recursive query: those so far, those the last round added, and rounds to go. No value if the rounds run out. -/
def evaluate (step : List α → Except ε (List α)) : Nat → List α → List α → Option (Except ε (List α))
  | _, rows, [] => some (.ok rows)
  | 0, _, _ :: _ => none
  | fuel + 1, rows, r :: working =>
    match step (r :: working) with
    | .error e => some (.error e)
    | .ok found => evaluate step fuel (rows ++ found.dedup.filter (· ∉ rows)) (found.dedup.filter (· ∉ rows))

theorem evaluate_nil (step : List α → Except ε (List α)) (fuel : Nat) (rows : List α) : evaluate step fuel rows [] = some (.ok rows) := by
  cases fuel <;> rfl

/-- A round that fails ends the evaluation. -/
theorem evaluate_error {step : List α → Except ε (List α)} {rows working : List α} {e : ε} (hne : working ≠ [])
    (h : step working = .error e) (fuel : Nat) : evaluate step (fuel + 1) rows working = some (.error e) := by
  obtain ⟨r, rest, rfl⟩ := List.exists_cons_of_ne_nil hne
  rw [evaluate, h]

/-- A round that adds rows. -/
theorem evaluate_ok {step : List α → Except ε (List α)} {rows working found : List α} (hne : working ≠ [])
    (h : step working = .ok found) (fuel : Nat) :
    evaluate step (fuel + 1) rows working =
      evaluate step fuel (rows ++ found.dedup.filter (· ∉ rows)) (found.dedup.filter (· ∉ rows)) := by
  obtain ⟨r, rest, rfl⟩ := List.exists_cons_of_ne_nil hne
  rw [evaluate, h]

/-- More rounds to go do not change what an evaluation returns. -/
theorem evaluate_mono {step : List α → Except ε (List α)} {n m : Nat} (hle : n ≤ m) :
    ∀ {rows working : List α} {r : Except ε (List α)}, evaluate step n rows working = some r → evaluate step m rows working = some r := by
  induction n generalizing m with
  | zero =>
    intro rows working r h
    cases working with
    | nil => rwa [evaluate_nil] at h ⊢
    | cons a working => cases h
  | succ n ih =>
    intro rows working r h
    obtain ⟨m, rfl⟩ : ∃ k, m = k + 1 := ⟨m - 1, by omega⟩
    cases working with
    | nil => rwa [evaluate_nil] at h ⊢
    | cons a working =>
      cases hstep : step (a :: working) with
      | error e =>
        rw [evaluate_error (List.cons_ne_nil a working) hstep] at h ⊢
        exact h
      | ok found =>
        rw [evaluate_ok (List.cons_ne_nil a working) hstep] at h ⊢
        exact ih (by omega) h

/-- The list has the elements of the set. -/
def Lists (rows : List α) (S : Set α) : Prop := ∀ a, a ∈ rows ↔ a ∈ S

section Levels

variable {step : List α → Except ε (List α)} {S : Nat → Set α}

/-- The rows after a round: those of the next level are added, where no level has rows of an earlier one. -/
theorem lists_round {k : Nat} {rows found : List α} (hdisjoint : ∀ i j a, a ∈ S i → a ∈ S j → i = j)
    (hrows : Lists rows {a | ∃ i ≤ k, a ∈ S i}) (hfound : Lists found (S (k + 1))) :
    Lists (found.dedup.filter (· ∉ rows)) (S (k + 1)) ∧
      Lists (rows ++ found.dedup.filter (· ∉ rows)) {a | ∃ i ≤ k + 1, a ∈ S i} := by
  have hnew : Lists (found.dedup.filter (· ∉ rows)) (S (k + 1)) := by
    intro a
    rw [List.mem_filter, List.mem_dedup, hfound a]
    refine ⟨fun h => h.1, fun h => ⟨h, decide_eq_true fun hmem => ?_⟩⟩
    obtain ⟨i, hi, ha⟩ := (hrows a).mp hmem
    have heq := hdisjoint _ _ _ ha h
    omega
  refine ⟨hnew, fun a => ?_⟩
  rw [List.mem_append, hrows a, hnew a]
  constructor
  · rintro (⟨i, hi, ha⟩ | ha)
    · exact ⟨i, by omega, ha⟩
    · exact ⟨k + 1, le_refl _, ha⟩
  · rintro ⟨i, hi, ha⟩
    rcases Nat.lt_or_eq_of_le hi with hlt | rfl
    · exact Or.inl ⟨i, by omega, ha⟩
    · exact Or.inr ha

/-- Rounds that find the levels one after the other, up to one where they find nothing, return the rows of all these levels. -/
theorem evaluate_levels (last : Nat) (hdisjoint : ∀ i j a, a ∈ S i → a ∈ S j → i = j)
    (hstep : ∀ k < last, ∀ working, Lists working (S k) → ∃ found, step working = .ok found ∧ Lists found (S (k + 1)))
    (hlast : ∀ working, Lists working (S last) → step working = .ok [])
    (hempty : ∀ k, (∀ a, a ∉ S k) → ∀ a, a ∉ S (k + 1)) (n : Nat) :
    ∀ {k : Nat} {rows working : List α}, k + n = last → Lists rows {a | ∃ i ≤ k, a ∈ S i} → Lists working (S k) →
      ∀ fuel, n < fuel → ∃ result, evaluate step fuel rows working = some (.ok result) ∧ Lists result {a | ∃ i ≤ last, a ∈ S i} := by
  induction n with
  | zero =>
    rintro k rows working rfl hrows hworking fuel hfuel
    refine ⟨rows, ?_, hrows⟩
    by_cases hnil : working = []
    · rw [hnil, evaluate_nil]
    · obtain ⟨m, rfl⟩ := Nat.exists_eq_add_of_lt hfuel
      rw [Nat.zero_add, evaluate_ok hnil (hlast working hworking)]
      simp [evaluate_nil]
  | succ n ih =>
    rintro k rows working rfl hrows hworking fuel hfuel
    by_cases hnil : working = []
    · refine ⟨rows, by rw [hnil, evaluate_nil], fun a => (hrows a).trans ⟨?_, ?_⟩⟩
      · rintro ⟨i, hi, ha⟩
        exact ⟨i, by omega, ha⟩
      · rintro ⟨i, hi, ha⟩
        have hnone : ∀ j, ∀ a, a ∉ S (k + j) := by
          intro j
          induction j with
          | zero =>
            intro a ha
            simpa [hnil] using (hworking a).mpr ha
          | succ j ihj => exact hempty _ ihj
        by_contra hnot
        obtain ⟨j, rfl⟩ : ∃ j, i = k + j := ⟨i - k, by
          by_contra hlt
          exact hnot ⟨i, by omega, ha⟩⟩
        exact hnone j a ha
    · obtain ⟨m, rfl⟩ : ∃ m, fuel = m + 1 := ⟨fuel - 1, by omega⟩
      obtain ⟨found, hfound, hlists⟩ := hstep k (by omega) working hworking
      obtain ⟨hnew, hall⟩ := lists_round hdisjoint hrows hlists
      rw [evaluate_ok hnil hfound]
      exact ih (by omega) hall hnew m (by omega)

/-- Rounds that find the levels one after the other, up to one where they fail, fail. -/
theorem evaluate_levels_error (last : Nat) {e : ε} (hdisjoint : ∀ i j a, a ∈ S i → a ∈ S j → i = j)
    (hstep : ∀ k < last, ∀ working, Lists working (S k) → ∃ found, step working = .ok found ∧ Lists found (S (k + 1)))
    (hlast : ∀ working, Lists working (S last) → step working = .error e) (hinhabited : ∀ k ≤ last, ∃ a, a ∈ S k) (n : Nat) :
    ∀ {k : Nat} {rows working : List α}, k + n = last → Lists rows {a | ∃ i ≤ k, a ∈ S i} → Lists working (S k) →
      ∀ fuel, n < fuel → evaluate step fuel rows working = some (.error e) := by
  induction n with
  | zero =>
    rintro k rows working rfl hrows hworking fuel hfuel
    obtain ⟨a, ha⟩ := hinhabited k (le_refl _)
    obtain ⟨m, rfl⟩ := Nat.exists_eq_add_of_lt hfuel
    exact evaluate_error (List.ne_nil_of_mem ((hworking a).mpr ha)) (hlast working hworking) _
  | succ n ih =>
    rintro k rows working rfl hrows hworking fuel hfuel
    obtain ⟨a, ha⟩ := hinhabited k (by omega)
    obtain ⟨m, rfl⟩ : ∃ m, fuel = m + 1 := ⟨fuel - 1, by omega⟩
    obtain ⟨found, hfound, hlists⟩ := hstep k (by omega) working hworking
    obtain ⟨hnew, hall⟩ := lists_round hdisjoint hrows hlists
    rw [evaluate_ok (List.ne_nil_of_mem ((hworking a).mpr ha)) hfound]
    exact ih (by omega) hall hnew m (by omega)

end Levels

end Recursive
