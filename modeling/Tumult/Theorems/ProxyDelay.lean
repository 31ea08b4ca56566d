import Tumult.Net.Config

/-!
# The bounds of the proxy's delay

The check restricts neither the delay nor the jitter. The delay is in its bounds exactly when the range of the jitter and the sum
fit in a word: a sum that wraps around is below the base delay.
-/

namespace Tumult.Net

variable {F : Type}

theorem add_of_lt (overflowChecks : Bool) {a b : UInt64} (h : a.toNat + b.toNat < 2 ^ 64) :
    add overflowChecks a b = some (a + b) ∧ (a + b).toNat = a.toNat + b.toNat := by
  have hcheck : decide (2 ^ 64 ≤ a.toNat + b.toNat) = false := decide_eq_false (not_le.mpr h)
  refine ⟨by rw [add, hcheck, Bool.and_false, if_neg Bool.false_ne_true], ?_⟩
  rw [UInt64.toNat_add, Nat.mod_eq_of_lt h]

/-- A sum that does not fit is below its first part. -/
theorem add_of_le (overflowChecks : Bool) {a b c : UInt64} (h : 2 ^ 64 ≤ a.toNat + b.toNat)
    (hadd : add overflowChecks a b = some c) : c.toNat < a.toNat := by
  have ha := a.toNat_lt
  have hb := b.toNat_lt
  unfold add at hadd
  split at hadd
  · nomatch hadd
  · cases hadd
    rw [UInt64.toNat_add]
    omega

theorem rem_toNat {a b c : UInt64} (h : rem a b = some c) : c.toNat = a.toNat % b.toNat := by
  unfold rem at h
  split at h
  · nomatch h
  · cases h
    exact UInt64.toNat_mod a b

/-- The range of the jitter and the delay fit in a word. -/
def FaultProfile.Fits (profile : FaultProfile F) : Prop :=
  profile.jitterMs.toNat + 1 < 2 ^ 64 ∧
    profile.delayMs.toNat + (draw profile.seed).toNat % (profile.jitterMs.toNat + 1) < 2 ^ 64

theorem effectiveDelay_of_fits (overflowChecks : Bool) {profile : FaultProfile F} (h : profile.Fits) :
    ∃ d, profile.effectiveDelay overflowChecks = some d ∧
      d.toNat = profile.delayMs.toNat + (draw profile.seed).toNat % (profile.jitterMs.toNat + 1) := by
  obtain ⟨hrange, hsum⟩ := h
  unfold FaultProfile.effectiveDelay
  by_cases hzero : profile.jitterMs = 0
  · rw [hzero] at hsum ⊢
    obtain ⟨hadd, hvalue⟩ := add_of_lt overflowChecks (a := profile.delayMs) (b := 0) (by simpa [Nat.mod_one] using hsum)
    exact ⟨_, by simpa using hadd, by simpa [Nat.mod_one] using hvalue⟩
  · obtain ⟨hadd, hvalue⟩ := add_of_lt overflowChecks (a := profile.jitterMs) (b := 1) hrange
    have hone : (profile.jitterMs + 1).toNat = profile.jitterMs.toNat + 1 := hvalue
    have hne : profile.jitterMs + 1 ≠ 0 := fun heq => by
      rw [heq] at hone
      exact absurd hone (by simp)
    have hrem : rem (draw profile.seed) (profile.jitterMs + 1) = some (draw profile.seed % (profile.jitterMs + 1)) := if_neg hne
    have hextra := rem_toNat hrem
    rw [hone] at hextra
    obtain ⟨hdelay, hd⟩ := add_of_lt overflowChecks (a := profile.delayMs) (b := draw profile.seed % (profile.jitterMs + 1))
      (by rw [hextra]; exact hsum)
    refine ⟨_, ?_, by rw [hd, hextra]⟩
    simp [hzero, hadd, hrem, hdelay]

theorem fits_of_effectiveDelay {overflowChecks : Bool} {profile : FaultProfile F} {d : UInt64}
    (h : profile.effectiveDelay overflowChecks = some d) (hle : profile.delayMs.toNat ≤ d.toNat) : profile.Fits := by
  unfold FaultProfile.effectiveDelay at h
  by_cases hzero : profile.jitterMs = 0
  · have hdelay := profile.delayMs.toNat_lt
    refine ⟨by simp [hzero], ?_⟩
    simpa [hzero, Nat.mod_one] using hdelay
  · simp only [if_neg hzero] at h
    obtain ⟨range, hrange, hrest⟩ := Option.bind_eq_some_iff.mp h
    obtain ⟨extra, hrem, hsum⟩ := Option.bind_eq_some_iff.mp hrest
    have hfits : profile.jitterMs.toNat + (1 : UInt64).toNat < 2 ^ 64 := by
      by_contra hover
      -- the range wraps around to zero, and the division panics
      have hbelow := add_of_le overflowChecks (not_lt.mp hover) hrange
      have hvalue : range = profile.jitterMs + 1 := by
        unfold add at hrange
        split at hrange
        · nomatch hrange
        · exact (Option.some.inj hrange).symm
      have hjitter := profile.jitterMs.toNat_lt
      have hzeroRange : range = 0 := by
        rw [hvalue]
        refine UInt64.toNat_inj.mp ?_
        rw [UInt64.toNat_add]
        change (profile.jitterMs.toNat + 1) % 2 ^ 64 = 0
        have hone : 2 ^ 64 ≤ profile.jitterMs.toNat + 1 := not_lt.mp hover
        omega
      rw [hzeroRange] at hrem
      nomatch hrem
    obtain ⟨hadd, hone⟩ := add_of_lt overflowChecks hfits
    rw [hadd] at hrange
    cases hrange
    have hvalue := rem_toNat hrem
    rw [hone] at hvalue
    refine ⟨hfits, ?_⟩
    by_contra hover
    have hbelow := add_of_le overflowChecks (a := profile.delayMs) (b := extra) (by rw [hvalue]; exact not_lt.mp hover) hsum
    omega

/-- For a profile that is accepted, the delay is returned within its bounds exactly when the range and the sum fit in a word,
whether the build checks for overflow or not. -/
theorem effectiveDelay_bounded_iff (P : Probabilities F) (overflowChecks : Bool) (profile : FaultProfile F)
    (_haccepted : profile.validate P = .ok ()) :
    (∃ d, profile.effectiveDelay overflowChecks = some d ∧ profile.delayMs.toNat ≤ d.toNat ∧
      d.toNat ≤ profile.delayMs.toNat + profile.jitterMs.toNat) ↔ profile.Fits := by
  constructor
  · rintro ⟨d, hd, hle, -⟩
    exact fits_of_effectiveDelay hd hle
  · intro hfits
    obtain ⟨d, hd, hvalue⟩ := effectiveDelay_of_fits overflowChecks hfits
    have hmod : (draw profile.seed).toNat % (profile.jitterMs.toNat + 1) < profile.jitterMs.toNat + 1 :=
      Nat.mod_lt _ (Nat.succ_pos _)
    exact ⟨d, hd, by omega, by omega⟩

/-- Probabilities as whole numbers. -/
def wholeProbabilities : Probabilities Int where
  isFinite _ := true
  inUnit n := n = 0 || n = 1
  display := toString

theorem effectiveDelay_bounded_ten :
    (∃ d, (FaultProfile.mk 10 5 0 0 7 : FaultProfile Int).effectiveDelay true = some d ∧ 10 ≤ d.toNat ∧ d.toNat ≤ 15) ↔
      (FaultProfile.mk 10 5 0 0 7 : FaultProfile Int).Fits :=
  effectiveDelay_bounded_iff wholeProbabilities true (FaultProfile.mk 10 5 0 0 7) rfl

/-- The largest jitter is accepted, and the delay panics in either build. -/
theorem effectiveDelay_bounded_false :
    (FaultProfile.mk 0 18446744073709551615 0 0 0 : FaultProfile Int).validate wholeProbabilities = .ok () ∧
      (FaultProfile.mk 0 18446744073709551615 0 0 0 : FaultProfile Int).effectiveDelay true = none ∧
      (FaultProfile.mk 0 18446744073709551615 0 0 0 : FaultProfile Int).effectiveDelay false = none := ⟨rfl, by decide, by decide⟩

end Tumult.Net
