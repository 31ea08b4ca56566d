import Mathlib

/-!
# Token buckets whose check and charge are apart

A bucket refills at a rate up to a burst. A holder is admitted while a token is there, and charged later, when its outcome is known;
a charge takes what is left, at most one token. The books of a ledger count the failures since an opening time against the tokens
that were there, that were refilled and that were charged in full.

A charge that finds less than a token was preceded, since its holder was admitted, by a charge in full of another holder; with at
most `K` holders at once, a charge in full spoils at most `K - 1` others. So the failures are at most `K` for every token, and `2 *
K - 1` at the two ends.
-/

namespace TokenBucket

/-- Holders, those of them that are known to fail, the failures counted, the times the bucket was filled up, its tokens, the
time. -/
structure Ledger where
  holders : ℕ
  owed : ℕ
  failures : ℕ
  fillups : ℕ
  tokens : ℚ
  now : ℚ

variable {burst rps t₀ : ℚ} {K : ℕ} {L : Ledger}

/-- The books since `t₀`: `E` charges in full, `W` others, and `spoiled` holders who may not find the token they were admitted
for. -/
structure Sound (burst rps t₀ : ℚ) (K : ℕ) (L : Ledger) : Prop where
  nonneg : 0 ≤ L.tokens
  le_burst : L.tokens ≤ burst
  opened : t₀ ≤ L.now
  owed_le : L.owed ≤ L.holders
  books : ∃ E W spoiled : ℕ, spoiled ≤ L.holders ∧ spoiled ≤ K - 1 ∧ (spoiled < L.holders → 1 ≤ L.tokens) ∧
    L.failures ≤ E + W + L.owed ∧ W + spoiled ≤ (K - 1) * (E + 1) ∧
    (E : ℚ) + L.tokens ≤ burst * (1 + L.fillups) + rps * (L.now - t₀)

namespace Sound

/-- Time passes, and the bucket refills. -/
theorem wait {tokens now : ℚ} (h : Sound burst rps t₀ K L) (hnow : L.now ≤ now) (hup : L.tokens ≤ tokens) (hburst : tokens ≤ burst)
    (hrate : tokens ≤ L.tokens + rps * (now - L.now)) : Sound burst rps t₀ K { L with tokens, now } := by
  obtain ⟨E, W, spoiled, hheld, hK, hone, hfailures, hwaste, hfull⟩ := h.books
  refine ⟨h.nonneg.trans hup, hburst, h.opened.trans hnow, h.owed_le, E, W, spoiled, hheld, hK, fun hlt => (hone hlt).trans hup,
    hfailures, hwaste, ?_⟩
  dsimp only at hrate ⊢
  linarith

/-- The bucket is filled up. -/
theorem fill (hburst : 0 ≤ burst) (h : Sound burst rps t₀ K L) :
    Sound burst rps t₀ K { L with tokens := burst, fillups := L.fillups + 1 } := by
  obtain ⟨E, W, spoiled, hheld, hK, hone, hfailures, hwaste, hfull⟩ := h.books
  refine ⟨hburst, le_refl _, h.opened, h.owed_le, E, W, spoiled, hheld, hK, fun hlt => (hone hlt).trans h.le_burst, hfailures, hwaste, ?_⟩
  have hnonneg := h.nonneg
  push_cast
  linarith

/-- A holder is admitted. -/
theorem accept (h : Sound burst rps t₀ K L) (htoken : 1 ≤ L.tokens) : Sound burst rps t₀ K { L with holders := L.holders + 1 } := by
  obtain ⟨E, W, spoiled, hheld, hK, hone, hrest⟩ := h.books
  exact ⟨h.nonneg, h.le_burst, h.opened, Nat.le_succ_of_le h.owed_le, E, W, spoiled, Nat.le_succ_of_le hheld, hK, fun _ => htoken, hrest⟩

/-- A holder leaves without a charge. -/
theorem leave {n : ℕ} (h : Sound burst rps t₀ K L) (hn : n + 1 = L.holders) (howed : L.owed ≤ n) :
    Sound burst rps t₀ K { L with holders := n } := by
  obtain ⟨E, W, spoiled, hheld, hK, hone, hfailures, hwaste, hfull⟩ := h.books
  refine ⟨h.nonneg, h.le_burst, h.opened, howed, E, W, min spoiled n, min_le_right _ _, (min_le_left _ _).trans hK, fun hlt => ?_,
    hfailures, (Nat.add_le_add_left (min_le_left _ _) W).trans hwaste, hfull⟩
  dsimp only at hlt
  exact hone (by omega)

/-- A holder is known to fail. -/
theorem fail (h : Sound burst rps t₀ K L) (howed : L.owed < L.holders) :
    Sound burst rps t₀ K { L with owed := L.owed + 1, failures := L.failures + 1 } := by
  obtain ⟨E, W, spoiled, hheld, hK, hone, hfailures, hrest⟩ := h.books
  refine ⟨h.nonneg, h.le_burst, h.opened, howed, E, W, spoiled, hheld, hK, hone, ?_, hrest⟩
  dsimp only
  omega

/-- A holder is charged. -/
theorem charge {n owed : ℕ} (h : Sound burst rps t₀ K L) (hn : n + 1 = L.holders) (hK : L.holders ≤ K) (howed : L.owed ≤ owed + 1)
    (hle : owed ≤ n) : Sound burst rps t₀ K { L with holders := n, owed, tokens := max (L.tokens - 1) 0 } := by
  obtain ⟨E, W, spoiled, hheld, hspoiled, hone, hfailures, hwaste, hfull⟩ := h.books
  have hnonneg := h.nonneg
  have hle_burst := h.le_burst
  refine ⟨le_max_right _ _, max_le (by linarith) (hnonneg.trans hle_burst), h.opened, hle, ?_⟩
  by_cases htoken : 1 ≤ L.tokens
  · -- a charge in full: everybody else who is admitted may now come too late
    refine ⟨E + 1, W, n, le_refl _, by omega, fun hlt => absurd hlt (lt_irrefl _), ?_, ?_, ?_⟩
    · dsimp only
      omega
    · have hgrow : (K - 1) * (E + 1 + 1) = (K - 1) * (E + 1) + (K - 1) := Nat.mul_succ _ _
      omega
    · dsimp only
      rw [max_eq_left (by linarith)]
      push_cast
      linarith
  · have hall : spoiled = L.holders := by
      by_contra hne
      exact htoken (hone (by omega))
    refine ⟨E, W + 1, n, le_refl _, by omega, fun hlt => absurd hlt (lt_irrefl _), ?_, by omega, ?_⟩
    · dsimp only
      omega
    · dsimp only
      rw [max_eq_right (by linarith)]
      linarith

/-- The books may be opened at any time that has come. -/
theorem reopen {t₁ : ℚ} (hburst : 0 ≤ burst) (hrps : 0 ≤ rps) (h : Sound burst rps t₀ K L) (ht : t₁ ≤ L.now) :
    Sound burst rps t₁ K { L with failures := 0, fillups := 0 } := by
  obtain ⟨-, -, spoiled, hheld, hK, hone, -⟩ := h.books
  refine ⟨h.nonneg, h.le_burst, ht, h.owed_le, 0, 0, spoiled, hheld, hK, hone, Nat.zero_le _, by simpa using hK, ?_⟩
  have helapsed : 0 ≤ rps * (L.now - t₁) := mul_nonneg hrps (by linarith)
  have hle_burst := h.le_burst
  push_cast
  linarith

/-- What the failures come to. -/
theorem bound (h : Sound burst rps t₀ K L) (hpos : 0 < K) (hK : L.holders ≤ K) :
    (L.failures : ℚ) ≤ K * (burst * (1 + L.fillups) + rps * (L.now - t₀) + 1) + (K - 1 : ℕ) := by
  obtain ⟨E, W, spoiled, -, -, -, hfailures, hwaste, hfull⟩ := h.books
  have hE : (E : ℚ) ≤ burst * (1 + L.fillups) + rps * (L.now - t₀) := by
    have hnonneg := h.nonneg
    linarith
  have hcount : L.failures ≤ K * E + K + (K - 1) := by
    have howed := h.owed_le
    obtain ⟨k, rfl⟩ : ∃ k, K = k + 1 := ⟨K - 1, by omega⟩
    simp only [Nat.add_sub_cancel] at hwaste ⊢
    have h1 : (k + 1) * E = k * E + E := Nat.succ_mul _ _
    have h2 : k * (E + 1) = k * E + k := Nat.mul_succ _ _
    omega
  have hcast : (L.failures : ℚ) ≤ K * E + K + (K - 1 : ℕ) := by exact_mod_cast hcount
  have hmul : (K : ℚ) * E ≤ K * (burst * (1 + L.fillups) + rps * (L.now - t₀)) := mul_le_mul_of_nonneg_left hE (Nat.cast_nonneg K)
  linarith

end Sound

end TokenBucket
