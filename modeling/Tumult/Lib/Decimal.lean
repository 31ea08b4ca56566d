import Mathlib

/-!
# Decimal numerals

Reading the numerals of integers: a sign, and digits with any number of zeros in front.
-/

namespace Decimal

/-- The number that decimal digits write, if there are any, and nothing else. -/
def readNat (cs : List Char) : Option Nat := if cs ≠ [] ∧ cs.all Char.isDigit then some (Nat.ofDigitChars 10 cs 0) else none

/-- The number after a sign, or without one. -/
def readInt : List Char → Option Int
  | '-' :: cs => (readNat cs).map fun (n : Nat) => -(n : Int)
  | '+' :: cs => (readNat cs).map fun (n : Nat) => (n : Int)
  | cs => (readNat cs).map fun (n : Nat) => (n : Int)

theorem readNat_toDigits (n : Nat) : readNat (Nat.toDigits 10 n) = some n := by
  have hdigits : (Nat.toDigits 10 n).all Char.isDigit = true := by
    rw [List.all_eq_true]
    intro c hc
    exact Nat.isDigit_of_mem_toDigits (by decide) (by decide) hc
  rw [readNat, if_pos ⟨Nat.toDigits_ne_nil, hdigits⟩, Nat.ofDigitChars_ten_toDigits]

theorem readInt_toDigits (n : Nat) : readInt (Nat.toDigits 10 n) = some (n : Int) := by
  have hread := readNat_toDigits n
  cases hcs : Nat.toDigits 10 n with
  | nil => exact absurd hcs Nat.toDigits_ne_nil
  | cons c cs =>
    have hc : c.isDigit = true := Nat.isDigit_of_mem_toDigits (by decide) (by decide) (hcs ▸ List.mem_cons_self)
    rw [hcs] at hread
    unfold readInt
    split
    · rename_i heq
      cases heq
      exact absurd hc (by decide)
    · rename_i heq
      cases heq
      exact absurd hc (by decide)
    · rw [hread]
      rfl

/-- The numeral of an integer is read back. -/
theorem readInt_toString (i : Int) : readInt (toString i).toList = some i := by
  rw [Int.toString_eq_repr, Int.repr_eq_if]
  split
  · rw [Nat.toList_repr, readInt_toDigits, Int.toNat_of_nonneg ‹_›]
  · have hminus : "-".toList = ['-'] := by decide
    rw [String.toList_append, Nat.toList_repr, hminus, List.singleton_append, readInt, readNat_toDigits, Option.map_some]
    congr 1
    omega

end Decimal
