import Mathlib

/-!
# Digits of a fixed width

The digits of a number in some base, the most significant first. Of two numbers that fit, the smaller one has the digits that come first
in the order of a dictionary.
-/

namespace Radix

/-- The last `n` digits, the most significant first. -/
def bigEndian (b : Nat) : Nat → Nat → List Nat
  | 0, _ => []
  | n + 1, v => v / b ^ n % b :: bigEndian b n v

theorem bigEndian_eq_map (b n v : Nat) : bigEndian b n v = (List.range n).reverse.map fun i => v / b ^ i % b := by
  induction n with
  | zero => rfl
  | succ n ih => rw [bigEndian, ih, List.range_succ, List.reverse_concat, List.map_cons]

/-- Digits written in an alphabet that keeps their order are in the order of the numbers. -/
theorem map_bigEndian_lt {α : Type*} [LT α] {b : Nat} (hb : 0 < b) {f : Nat → α} (hf : ∀ d e, d < e → e < b → f d < f e) {n v w : Nat}
    (h : v % b ^ n < w % b ^ n) : (bigEndian b n v).map f < (bigEndian b n w).map f := by
  induction n with
  | zero => simp [Nat.mod_one] at h
  | succ n ih =>
    have hpos : 0 < b ^ n := Nat.pow_pos hb
    rw [Nat.mod_pow_succ, Nat.mod_pow_succ] at h
    have hv : v % b ^ n < b ^ n := Nat.mod_lt v hpos
    have hw : w % b ^ n < b ^ n := Nat.mod_lt w hpos
    rw [bigEndian, bigEndian, List.map_cons, List.map_cons, List.cons_lt_cons_iff]
    rcases Nat.lt_trichotomy (v / b ^ n % b) (w / b ^ n % b) with hlt | heq | hgt
    · exact .inl (hf _ _ hlt (Nat.mod_lt _ hb))
    · rw [heq] at h
      exact .inr ⟨congrArg f heq, ih (Nat.lt_of_add_lt_add_right h)⟩
    · have hstep : b ^ n * (w / b ^ n % b + 1) ≤ b ^ n * (v / b ^ n % b) := Nat.mul_le_mul_left _ hgt
      rw [Nat.mul_add, Nat.mul_one] at hstep
      have hle : v % b ^ n + b ^ n * (w / b ^ n % b) + b ^ n ≤ v % b ^ n + b ^ n * (v / b ^ n % b) := by
        rw [Nat.add_assoc]
        exact Nat.add_le_add_left hstep _
      have hlt : w % b ^ n + b ^ n * (w / b ^ n % b) < v % b ^ n + b ^ n * (w / b ^ n % b) + b ^ n := by
        have hnonneg : 0 ≤ v % b ^ n := Nat.zero_le _
        linarith
      exact absurd (h.trans hlt) (Nat.not_lt.mpr hle)

end Radix
