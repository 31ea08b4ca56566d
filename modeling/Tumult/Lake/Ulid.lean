import Tumult.Lib.Radix

/-!
# ULIDs

Identifiers of 48 bits of milliseconds and 80 bits of randomness, 26 characters of Crockford's base 32. Within a millisecond the random
part is counted up.
-/

namespace Tumult.Manual

/-- The alphabet, without I, L, O and U. -/
def crockford : List Char := "0123456789ABCDEFGHJKMNPQRSTVWXYZ".toList

/-- The millisecond and the random part of the last identifier. -/
structure UlidState where
  ms : Nat
  random : Nat
  deriving DecidableEq, Repr

/-- The random part, from 128 bits. -/
def randomU80 (mixed : Nat) : Nat := mixed &&& (2 ^ 80 - 1)

/-- The state after the next identifier. -/
def UlidState.next (s : UlidState) (nowMs mixed : Nat) : UlidState :=
  if s.ms = nowMs then ⟨nowMs, (s.random + 1) % 2 ^ 128 &&& (2 ^ 80 - 1)⟩ else ⟨nowMs, randomU80 mixed⟩

def UlidState.value (s : UlidState) : Nat := (s.ms <<< 80) % 2 ^ 128 ||| s.random

/-- 26 characters, five bits each, the first of them first. -/
def crockfordText (value : Nat) : String :=
  String.ofList ((List.range 26).reverse.map fun i => crockford.getD ((value >>> (5 * i)) &&& 31) '0')

/-- Generate an identifier, from the clock and 128 random bits. -/
def ulid (nowMs mixed : Nat) (s : UlidState) : String × UlidState := (crockfordText (s.next nowMs mixed).value, s.next nowMs mixed)

/-- The identifiers of one process. -/
def ulids (s : UlidState) : List (Nat × Nat) → List String
  | [] => []
  | t :: ts => (ulid t.1 t.2 s).1 :: ulids (ulid t.1 t.2 s).2 ts

end Tumult.Manual
