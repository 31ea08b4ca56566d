import Mathlib

/-!
# Integers of fixed width

Arithmetic on machine words, as integers: the value of an operation, unless it is outside the type, and casts that wrap.
-/

namespace Fixed

/-- The value, unless it is outside `[lo, hi)`. -/
def checked (lo hi x : Int) : Option Int := if lo ≤ x ∧ x < hi then some x else none

/-- The result of an operation on `i64`s, unless it overflows. -/
def i64 (x : Int) : Option Int := checked (-(2 ^ 63)) (2 ^ 63) x

/-- The result of an operation on `u64`s, unless it overflows. -/
def u64 (x : Int) : Option Int := checked 0 (2 ^ 64) x

/-- A cast to a type of `bits` bits without sign. -/
def asUnsigned (bits : Nat) (x : Int) : Int := x % 2 ^ bits

/-- A cast of a `u64` to the `i64` of the same bits. -/
def castSigned (x : Int) : Int := if x < 2 ^ 63 then x else x - 2 ^ 64

theorem i64_bind {α : Type} {x : Int} {f : Int → Option α} (h : -(2 ^ 63) ≤ x ∧ x < 2 ^ 63) : (i64 x >>= f) = f x := by
  rw [i64, checked, if_pos h]
  rfl

theorem u64_bind {α : Type} {x : Int} {f : Int → Option α} (h : 0 ≤ x ∧ x < 2 ^ 64) : (u64 x >>= f) = f x := by
  rw [u64, checked, if_pos h]
  rfl

theorem asUnsigned_of_fits {n : Nat} {x : Int} (h : 0 ≤ x) (h' : x < 2 ^ n) : asUnsigned n x = x :=
  Int.emod_eq_of_lt h h'

theorem castSigned_of_fits {x : Int} (h : x < 2 ^ 63) : castSigned x = x := if_pos h

end Fixed
