import Mathlib

/-!
# Fault profiles of the proxy

The faults that a proxy applies, the check of their probabilities, and the delay that is added to a write. A build with overflow
checks panics where a sum does not fit in a word; a build without them goes on with the sum modulo `2 ^ 64`. A division by zero
panics in both.
-/

namespace Tumult.Net

/-- The numbers `f64` that the check looks at. -/
structure Probabilities (F : Type) where
  isFinite : F → Bool
  /-- `(0.0..=1.0).contains(&value)` -/
  inUnit : F → Bool
  display : F → String

structure NetError where
  field : String
  reason : String
  deriving DecidableEq, Repr

/-- A bundle of directional TCP faults. -/
structure FaultProfile (F : Type) where
  delayMs : UInt64
  jitterMs : UInt64
  corruptProb : F
  terminateProb : F
  seed : UInt64

variable {F : Type}

/-- Validate that the probabilities are in the unit interval. -/
def FaultProfile.validate (P : Probabilities F) (profile : FaultProfile F) : Except NetError Unit :=
  [("corrupt_prob", profile.corruptProb), ("terminate_prob", profile.terminateProb)].forM fun (field, value) =>
    if !P.isFinite value || !P.inUnit value then
      throw ⟨field, "probability must be within 0.0..=1.0, got " ++ P.display value⟩
    else pure ()

/-- `a + b` in a build with or without overflow checks; none is a panic. -/
def add (overflowChecks : Bool) (a b : UInt64) : Option UInt64 :=
  if overflowChecks && decide (2 ^ 64 ≤ a.toNat + b.toNat) then none else some (a + b)

/-- `a % b`; none is a panic. -/
def rem (a b : UInt64) : Option UInt64 := if b = 0 then none else some (a % b)

/-- The draw of a seed, by wrapping arithmetic. -/
def draw (seed : UInt64) : UInt64 :=
  let z := seed + 0x9E3779B97F4A7C15
  let z := (z ^^^ (z >>> 30)) * 0xBF58476D1CE4E5B9
  z ^^^ (z >>> 27)

/-- The base delay and the jitter that is drawn from the seed, in milliseconds; none is a panic. -/
def FaultProfile.effectiveDelay (overflowChecks : Bool) (profile : FaultProfile F) : Option UInt64 := do
  let extra ←
    if profile.jitterMs = 0 then pure 0
    else do
      let range ← add overflowChecks profile.jitterMs 1
      rem (draw profile.seed) range
  add overflowChecks profile.delayMs extra

end Tumult.Net
