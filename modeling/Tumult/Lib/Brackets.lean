import Mathlib

/-!
# Labelled brackets

Words of labelled opening and closing brackets. A word is balanced when every bracket that opens is closed by one of its label and
the pairs nest. `pending` counts what is open at the end; it is additive, and zero on balanced words, so that a word that leaves
something open cannot be repaired by a balanced rest.

A trace whose events are marked with brackets is settled when it is balanced and free of faults, or has a fault and leaves
something open (`Settled`). Settled traces are closed under concatenation; what opens a bracket and is followed by a trace that
finishes it is settled (`Opens.settled`), also when a fault breaks it off; and on settled traces being balanced is being free of
faults (`Settled.balanced_iff`).
-/

namespace Brackets

variable {κ ω : Type*}

/-- A bracket with its label. -/
inductive Mark (κ : Type*) where
  | opens (label : κ)
  | closes (label : κ)
  deriving DecidableEq, Repr

/-- Every bracket that opens is closed by one of its label, and the pairs nest. -/
inductive Balanced : List (Mark κ) → Prop where
  | nil : Balanced []
  | pair {label : κ} {v w : List (Mark κ)} (hv : Balanced v) (hw : Balanced w) :
      Balanced (.opens label :: (v ++ .closes label :: w))

theorem Balanced.append {v w : List (Mark κ)} (hv : Balanced v) (hw : Balanced w) : Balanced (v ++ w) := by
  induction hv with
  | nil => exact hw
  | @pair label v v' hv _ _ ih => simpa using (Balanced.pair hv ih : Balanced (.opens label :: _))

theorem Balanced.enclosed {v : List (Mark κ)} (label : κ) (hv : Balanced v) : Balanced (.opens label :: (v ++ [.closes label])) :=
  .pair hv .nil

/-- What one bracket adds to what is open. -/
def Mark.weight : Mark κ → Int
  | .opens _ => 1
  | .closes _ => -1

/-- How many brackets are open at the end. -/
def pending (w : List (Mark κ)) : Int := (w.map Mark.weight).sum

@[simp] theorem pending_nil : pending ([] : List (Mark κ)) = 0 := rfl

@[simp] theorem pending_cons (m : Mark κ) (w : List (Mark κ)) : pending (m :: w) = m.weight + pending w := by simp [pending]

@[simp] theorem pending_append (v w : List (Mark κ)) : pending (v ++ w) = pending v + pending w := by simp [pending]

/-- A balanced word leaves nothing open. -/
theorem Balanced.pending_eq_zero {w : List (Mark κ)} (h : Balanced w) : pending w = 0 := by
  induction h with
  | nil => rfl
  | pair _ _ ihv ihw => simp [Mark.weight, ihv, ihw]

/-! ## Traces with faults -/

section Settled

variable (mark : ω → Option (Mark κ)) (fault : ω → Prop)

/-- The trace is balanced and free of faults, or has a fault and leaves something open. -/
def Settled (w : List ω) : Prop :=
  (Balanced (w.filterMap mark) ∧ ∀ e ∈ w, ¬ fault e) ∨ (0 < pending (w.filterMap mark) ∧ ∃ e ∈ w, fault e)

variable {mark fault}

theorem Settled.pending_nonneg {w : List ω} (h : Settled mark fault w) : 0 ≤ pending (w.filterMap mark) := by
  rcases h with ⟨h, _⟩ | ⟨h, _⟩
  · exact le_of_eq h.pending_eq_zero.symm
  · exact le_of_lt h

/-- On settled traces being balanced is being free of faults. -/
theorem Settled.balanced_iff {w : List ω} (h : Settled mark fault w) : Balanced (w.filterMap mark) ↔ ∀ e ∈ w, ¬ fault e := by
  constructor
  · intro hb
    rcases h with ⟨_, hclean⟩ | ⟨hopen, _⟩
    · exact hclean
    · have := hb.pending_eq_zero
      omega
  · intro hclean
    rcases h with ⟨hb, _⟩ | ⟨_, e, he, hfault⟩
    · exact hb
    · exact absurd hfault (hclean e he)

theorem Settled.append {v w : List ω} (hv : Settled mark fault v) (hw : Settled mark fault w) : Settled mark fault (v ++ w) := by
  have hv0 := hv.pending_nonneg
  have hw0 := hw.pending_nonneg
  unfold Settled
  rw [List.filterMap_append, pending_append]
  rcases hv with ⟨hbv, hcv⟩ | ⟨hov, e, he, hfault⟩
  · rcases hw with ⟨hbw, hcw⟩ | ⟨how, e, he, hfault⟩
    · exact .inl ⟨hbv.append hbw, fun e he => (List.mem_append.mp he).elim (hcv e) (hcw e)⟩
    · exact .inr ⟨by omega, e, List.mem_append_right _ he, hfault⟩
  · exact .inr ⟨by omega, e, List.mem_append_left _ he, hfault⟩

/-- Events that are no brackets and no faults. -/
theorem Settled.silent {w : List ω} (h : ∀ e ∈ w, mark e = none ∧ ¬ fault e) : Settled mark fault w := by
  have hmarks : w.filterMap mark = [] := List.filterMap_eq_nil_iff.mpr fun e he => (h e he).1
  exact .inl ⟨by rw [hmarks]; exact .nil, fun e he => (h e he).2⟩

/-- The trace has a fault, and closes no more than it opens. -/
def Broken (mark : ω → Option (Mark κ)) (fault : ω → Prop) (w : List ω) : Prop :=
  0 ≤ pending (w.filterMap mark) ∧ ∃ e ∈ w, fault e

theorem Broken.after {v w : List ω} (hv : Settled mark fault v) (hw : Broken mark fault w) : Broken mark fault (v ++ w) := by
  have hv0 := hv.pending_nonneg
  obtain ⟨hw0, e, he, hfault⟩ := hw
  refine ⟨?_, e, List.mem_append_right _ he, hfault⟩
  rw [List.filterMap_append, pending_append]
  omega

/-- The trace opens one bracket of the label, without a fault. -/
def Opens (mark : ω → Option (Mark κ)) (fault : ω → Prop) (label : κ) (w : List ω) : Prop :=
  w.filterMap mark = [.opens label] ∧ ∀ e ∈ w, ¬ fault e

/-- The trace closes the bracket of the label that is open before it and nothing else, or is broken. -/
def Finishes (mark : ω → Option (Mark κ)) (fault : ω → Prop) (label : κ) (w : List ω) : Prop :=
  ((∃ v, Balanced v ∧ w.filterMap mark = v ++ [.closes label]) ∧ ∀ e ∈ w, ¬ fault e) ∨ Broken mark fault w

variable {label : κ}

theorem Finishes.after {v w : List ω} (hv : Settled mark fault v) (hw : Finishes mark fault label w) :
    Finishes mark fault label (v ++ w) := by
  rcases hw with ⟨⟨u, hu, hmarks⟩, hcw⟩ | hw
  · rcases hv with ⟨hbv, hcv⟩ | ⟨hov, e, he, hfault⟩
    · refine .inl ⟨⟨v.filterMap mark ++ u, hbv.append hu, by rw [List.filterMap_append, hmarks, List.append_assoc]⟩, ?_⟩
      exact fun e he => (List.mem_append.mp he).elim (hcv e) (hcw e)
    · refine .inr ⟨?_, e, List.mem_append_left _ he, hfault⟩
      rw [List.filterMap_append, hmarks]
      simp only [pending_append, pending_cons, pending_nil, hu.pending_eq_zero, Mark.weight]
      omega
  · exact .inr (hw.after hv)

/-- A bracket that is broken off stays open. -/
theorem Opens.broken {v w : List ω} (hv : Opens mark fault label v) (hw : Broken mark fault w) : Broken mark fault (v ++ w) := by
  obtain ⟨hw0, e, he, hfault⟩ := hw
  refine ⟨?_, e, List.mem_append_right _ he, hfault⟩
  rw [List.filterMap_append, hv.1]
  simp only [pending_append, pending_cons, pending_nil, Mark.weight]
  omega

/-- What opens a bracket and finishes it is settled. -/
theorem Opens.settled {v w : List ω} (hv : Opens mark fault label v) (hw : Finishes mark fault label w) :
    Settled mark fault (v ++ w) := by
  unfold Settled
  rw [List.filterMap_append, hv.1]
  rcases hw with ⟨⟨u, hu, hmarks⟩, hcw⟩ | ⟨hw0, e, he, hfault⟩
  · rw [hmarks]
    exact .inl ⟨hu.enclosed label, fun e he => (List.mem_append.mp he).elim (hv.2 e) (hcw e)⟩
  · refine .inr ⟨?_, e, List.mem_append_right _ he, hfault⟩
    simp only [pending_append, pending_cons, pending_nil, Mark.weight]
    omega

end Settled

end Brackets
