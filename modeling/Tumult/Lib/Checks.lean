import Mathlib

/-!
# Sequences of checks

A sequence of fallible steps that returned took each of them.
-/

namespace Checks

universe u

variable {ε ι : Type*} {α β : Type u}

theorem bind_ok {first : Except ε α} {second : α → Except ε β} {b : β} (h : (first >>= second) = .ok b) :
    ∃ a, first = .ok a ∧ second a = .ok b := by
  cases first with
  | ok a => exact ⟨a, rfl, h⟩
  | error e => nomatch h

/-- A check of every item passes when it passes for each (induction on the items). -/
theorem forM_ok {f : ι → Except ε PUnit} {as : List ι} (h : as.forM f = .ok ⟨⟩) : ∀ a ∈ as, f a = .ok ⟨⟩ := by
  induction as with
  | nil => exact fun a ha => absurd ha List.not_mem_nil
  | cons a as ih =>
    obtain ⟨_, hfirst, hrest⟩ := bind_ok h
    exact List.forall_mem_cons.mpr ⟨hfirst, ih hrest⟩

/-- What a step gives for every item (induction on the items). -/
theorem mapM_ok {f : ι → Except ε β} [Inhabited β] {as : List ι} {bs : List β} (h : as.mapM f = .ok bs) :
    bs = as.map (fun a => (f a).toOption.getD default) ∧ ∀ a ∈ as, f a = .ok ((f a).toOption.getD default) := by
  induction as generalizing bs with
  | nil =>
    cases h
    exact ⟨rfl, fun a ha => absurd ha List.not_mem_nil⟩
  | cons a as ih =>
    rw [List.mapM_cons] at h
    obtain ⟨b, hb, h⟩ := bind_ok h
    obtain ⟨bs', hbs, h⟩ := bind_ok h
    cases h
    obtain ⟨rfl, hall⟩ := ih hbs
    refine ⟨?_, List.forall_mem_cons.mpr ⟨?_, hall⟩⟩
    · rw [List.map_cons, hb]
      rfl
    · rw [hb]
      rfl

end Checks
