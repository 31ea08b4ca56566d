import Mathlib

/-!
# Walks of a length, and balls

The vertices at the end of the walks of a length, along a relation that goes both ways. The walks of up to a length end in the ball
of the simple graph: a walk that stays where it is shortens, and a path that is too short is not needed to be longer.
-/

namespace Ball

variable {V : Type} {adj : V → V → Prop}

/-- A vertex at the end of a walk of a length. -/
inductive Walks (adj : V → V → Prop) (center : V) : Nat → V → Prop
  | here : Walks adj center 0 center
  | step {n : Nat} {v w : V} (h : Walks adj center n v) (hw : adj v w) : Walks adj center (n + 1) w

theorem walks_zero {center v : V} : Walks adj center 0 v ↔ v = center := by
  constructor
  · rintro ⟨⟩
    rfl
  · rintro rfl
    exact .here

theorem walks_succ {center w : V} {n : Nat} : Walks adj center (n + 1) w ↔ ∃ v, Walks adj center n v ∧ adj v w := by
  constructor
  · rintro (_ | ⟨h, hw⟩)
    exact ⟨_, h, hw⟩
  · rintro ⟨v, h, hw⟩
    exact .step h hw

/-- A walk goes on back and forth. -/
theorem exists_walks {center v : V} (h : adj center v) (hsymm : ∀ {v w}, adj v w → adj w v) (n : Nat) :
    ∃ a b, Walks adj center n a ∧ adj a b := by
  induction n with
  | zero => exact ⟨center, v, .here, h⟩
  | succ n ih =>
    obtain ⟨a, b, hwalk, hab⟩ := ih
    exact ⟨b, a, .step hwalk hab, hsymm hab⟩

/-- A walk is a walk of the simple graph, or a longer one. -/
theorem exists_walk {center w : V} {n : Nat} (h : Walks adj center n w) :
    ∃ p : (SimpleGraph.fromRel adj).Walk center w, p.length ≤ n := by
  induction h with
  | here => exact ⟨.nil, le_refl _⟩
  | @step n v w _ hw ih =>
    obtain ⟨p, hp⟩ := ih
    by_cases heq : v = w
    · subst heq
      exact ⟨p, by omega⟩
    · have hadj : (SimpleGraph.fromRel adj).Adj v w := (SimpleGraph.fromRel_adj adj v w).mpr ⟨heq, Or.inl hw⟩
      refine ⟨p.concat hadj, ?_⟩
      rw [SimpleGraph.Walk.length_concat]
      omega

theorem walks_of_walk (hsymm : ∀ {v w}, adj v w → adj w v) {center w : V} (p : (SimpleGraph.fromRel adj).Walk center w) :
    Walks adj center p.length w := by
  induction p using SimpleGraph.Walk.concatRec with
  | Hnil => exact .here
  | Hconcat p hadj ih =>
    rw [SimpleGraph.Walk.length_concat]
    refine .step ih ?_
    rcases ((SimpleGraph.fromRel_adj adj _ _).mp hadj).2 with hw | hw
    · exact hw
    · exact hsymm hw

/-- The walks of up to a length end in the ball of that radius. -/
theorem walks_iff_edist (hsymm : ∀ {v w}, adj v w → adj w v) (center v : V) (radius : Nat) :
    (∃ n ≤ radius, Walks adj center n v) ↔ (SimpleGraph.fromRel adj).edist center v ≤ radius := by
  constructor
  · rintro ⟨n, hn, h⟩
    obtain ⟨p, hp⟩ := exists_walk h
    exact (SimpleGraph.edist_le p).trans (by exact_mod_cast hp.trans hn)
  · intro h
    have htop : (SimpleGraph.fromRel adj).edist center v ≠ ⊤ := ne_top_of_le_ne_top (ENat.natCast_ne_top radius) h
    obtain ⟨p, hp⟩ := SimpleGraph.exists_walk_of_edist_ne_top htop
    rw [← hp] at h
    exact ⟨p.length, by exact_mod_cast h, walks_of_walk hsymm p⟩

end Ball
