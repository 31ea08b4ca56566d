import Mathlib

/-!
# Trees that grow from a root

Trees whose nodes are numbered as they were added, so that a parent has a lower number than its children. Going from parent to
parent ends at the root; what lies below a node is the node itself and what lies below exactly one of its children; so a sum over
what lies below a node is its own part and the sums of its children.
-/

/-- The parents and the children of the numbered nodes of a tree. -/
structure Rooted (size : Nat) (parent : Nat → Option Nat) (children : Nat → List Nat) : Prop where
  nonempty : 0 < size
  root : parent 0 = none
  older : ∀ id, 0 < id → id < size → ∃ p, p < id ∧ parent id = some p
  outside : ∀ id, size ≤ id → parent id = none
  mem_children : ∀ p id, id ∈ children p ↔ parent id = some p
  nodup_children : ∀ p, (children p).Nodup

namespace Rooted

/-- A node lies below another one: itself, or a node that parents lead from to it. -/
def Below (parent : Nat → Option Nat) (n id : Nat) : Prop := Relation.ReflTransGen (fun a b => parent a = some b) n id

variable {size : Nat} {parent : Nat → Option Nat} {children : Nat → List Nat} {n id c c' p : Nat}

theorem below_refl (parent : Nat → Option Nat) (n : Nat) : Below parent n n := .refl

/-- A node is below another one when it is that one, or its parent is below it. -/
theorem below_iff_parent : Below parent n id ↔ n = id ∨ ∃ p, parent n = some p ∧ Below parent p id :=
  Relation.ReflTransGen.cases_head_iff

/-- Of two nodes that a node lies below one lies below the other. -/
theorem below_total (hbelow : Below parent n c) (hbelow' : Below parent n c') : Below parent c c' ∨ Below parent c' c :=
  Relation.ReflTransGen.total_of_right_unique (fun _ _ _ hb hc => Option.some.inj (hb.symm.trans hc)) hbelow hbelow'

section

variable (h : Rooted size parent children)

include h

theorem parent_lt (hp : parent id = some p) : p < id ∧ id < size := by
  have hsize : id < size := by
    refine Nat.lt_of_not_le fun hle => ?_
    rw [h.outside id hle] at hp
    nomatch hp
  have hpos : 0 < id := by
    refine Nat.pos_of_ne_zero fun hzero => ?_
    rw [hzero, h.root] at hp
    nomatch hp
  obtain ⟨p', hlt, hparent⟩ := h.older id hpos hsize
  obtain rfl := Option.some.inj (hp.symm.trans hparent)
  exact ⟨hlt, hsize⟩

theorem child_lt (hc : c ∈ children id) : id < c ∧ c < size := h.parent_lt ((h.mem_children id c).mp hc)

theorem below_le (hbelow : Below parent n id) : id ≤ n := by
  induction hbelow with
  | refl => exact le_refl n
  | tail _ hstep ih => exact le_trans (le_of_lt (h.parent_lt hstep).1) ih

/-- Parents lead from every node to the root (strong induction on its number). -/
theorem below_root (hid : id < size) : Below parent id 0 := by
  induction id using Nat.strong_induction_on with
  | _ id ih =>
    rcases Nat.eq_zero_or_pos id with rfl | hpos
    · exact below_refl parent 0
    · obtain ⟨p, hlt, hp⟩ := h.older id hpos hid
      exact .head hp (ih p hlt (hlt.trans hid))

/-- What lies below a node is the node, or lies below a child of it. -/
theorem below_iff : Below parent n id ↔ n = id ∨ ∃ c ∈ children id, Below parent n c := by
  constructor
  · intro hbelow
    rcases Relation.ReflTransGen.cases_tail hbelow with heq | ⟨c, hc, hparent⟩
    · exact .inl heq.symm
    · exact .inr ⟨c, (h.mem_children id c).mpr hparent, hc⟩
  · rintro (rfl | ⟨c, hc, hbelow⟩)
    · exact below_refl parent n
    · exact hbelow.tail ((h.mem_children id c).mp hc)

theorem not_below_child (hc : c ∈ children n) : ¬ Below parent n c := by
  intro hbelow
  have hle := h.below_le hbelow
  have hlt := (h.child_lt hc).1
  omega

/-- A node lies below one child of a node at most. -/
theorem child_unique (hc : c ∈ children id) (hc' : c' ∈ children id) (hbelow : Below parent n c) (hbelow' : Below parent n c') :
    c = c' := by
  have hapart : ∀ {a b : Nat}, a ∈ children id → b ∈ children id → Below parent a b → a = b := by
    intro a b ha hb hab
    rcases below_iff_parent.mp hab with heq | ⟨q, hq, hqb⟩
    · exact heq
    · obtain rfl := Option.some.inj (((h.mem_children id a).mp ha).symm.trans hq)
      have hle := h.below_le hqb
      have hlt := (h.child_lt hb).1
      omega
  rcases below_total hbelow hbelow' with hcc | hcc
  · exact hapart hc hc' hcc
  · exact (hapart hc' hc hcc).symm

end

/-! ## Growing -/

/-- A node that is added below one that is there. -/
theorem grow (h : Rooted size parent children) (hp : p < size) {parent' : Nat → Option Nat} {children' : Nat → List Nat}
    (hparent : ∀ id, parent' id = if id = size then some p else parent id)
    (hchildren : ∀ id, children' id = if id = p then children id ++ [size] else children id) :
    Rooted (size + 1) parent' children' where
  nonempty := Nat.succ_pos size
  root := by
    have hne : 0 ≠ size := Nat.ne_of_lt h.nonempty
    rw [hparent, if_neg hne, h.root]
  older id hpos hid := by
    rw [hparent]
    by_cases hnew : id = size
    · exact ⟨p, hnew ▸ hp, if_pos hnew⟩
    · rw [if_neg hnew]
      exact h.older id hpos (by omega)
  outside id hid := by
    rw [hparent, if_neg (by omega)]
    exact h.outside id (by omega)
  mem_children q id := by
    have hold : parent size = none := h.outside size (le_refl size)
    rw [hparent, hchildren]
    by_cases hq : q = p <;> by_cases hid : id = size
    · simp [hq, hid]
    · simp [hq, hid, h.mem_children]
    · simp [hq, hid, h.mem_children, hold, Ne.symm hq]
    · simp [hq, hid, h.mem_children]
  nodup_children q := by
    rw [hchildren]
    split
    · have hfresh : size ∉ children q := fun hmem => (h.child_lt hmem).2.false
      refine List.nodup_append.mpr ⟨h.nodup_children q, List.nodup_singleton _, fun a ha b hb heq => ?_⟩
      rw [heq, List.mem_singleton.mp hb] at ha
      exact hfresh ha
    · exact h.nodup_children q

/-! ## Sums -/

/-- Of things that at most one of a list has, the sum over the list is there once. -/
theorem sum_ite_unique {M : Type*} [AddCommMonoid M] {P : Nat → Prop} [DecidablePred P] {cs : List Nat} (hnodup : cs.Nodup)
    (hunique : ∀ c ∈ cs, ∀ c' ∈ cs, P c → P c' → c = c') (x : M) :
    (cs.map fun c => if P c then x else 0).sum = if ∃ c ∈ cs, P c then x else 0 := by
  induction cs with
  | nil => simp
  | cons c cs ih =>
    obtain ⟨hfresh, hnodup⟩ := List.nodup_cons.mp hnodup
    have hrest := ih hnodup fun a ha b hb => hunique a (List.mem_cons_of_mem _ ha) b (List.mem_cons_of_mem _ hb)
    rw [List.map_cons, List.sum_cons, hrest]
    by_cases hc : P c
    · have hnone : ¬ ∃ c' ∈ cs, P c' := by
        rintro ⟨c', hmem, hc'⟩
        exact hfresh (hunique c List.mem_cons_self c' (List.mem_cons_of_mem _ hmem) hc hc' ▸ hmem)
      rw [if_pos hc, if_neg hnone, if_pos ⟨c, List.mem_cons_self, hc⟩, add_zero]
    · rw [if_neg hc, zero_add]
      simp [hc]

/-- A sum over the things that lie below a node: those at the node itself, and for each child those below it (induction on the
things). -/
theorem sum_below (h : Rooted size parent children) {L M : Type*} [AddCommMonoid M] [∀ n id, Decidable (Below parent n id)]
    (place : L → Nat) (f : L → M) (id : Nat) (things : List L) :
    ((things.filter fun l => Below parent (place l) id).map f).sum =
      ((things.filter fun l => place l = id).map f).sum +
        ((children id).map fun c => ((things.filter fun l => Below parent (place l) c).map f).sum).sum := by
  induction things with
  | nil => simp
  | cons l things ih =>
    have hsplit : ∀ P : L → Prop, ∀ [DecidablePred P], (((l :: things).filter fun l => P l).map f).sum =
        (if P l then f l else 0) + ((things.filter fun l => P l).map f).sum := by
      intro P _
      by_cases hl : P l <;> simp [hl]
    have hchildren : ((children id).map fun c => (((l :: things).filter fun l => Below parent (place l) c).map f).sum).sum =
        (if ∃ c ∈ children id, Below parent (place l) c then f l else 0) +
          ((children id).map fun c => ((things.filter fun l => Below parent (place l) c).map f).sum).sum := by
      rw [← sum_ite_unique (h.nodup_children id) (fun c hc c' hc' => h.child_unique hc hc') (f l), ← List.sum_map_add]
      exact congrArg List.sum (List.map_congr_left fun c _ => hsplit fun l => Below parent (place l) c)
    rw [hsplit fun l => Below parent (place l) id, hsplit fun l => place l = id, hchildren, ih]
    by_cases hown : place l = id
    · have hnone : ¬ ∃ c ∈ children id, Below parent (place l) c := by
        rintro ⟨c, hc, hbelow⟩
        exact h.not_below_child (hown ▸ hc) hbelow
      rw [if_pos (h.below_iff.mpr (.inl hown)), if_pos hown, if_neg hnone, zero_add, add_assoc]
    · rw [if_neg hown, zero_add]
      by_cases hchild : ∃ c ∈ children id, Below parent (place l) c
      · rw [if_pos (h.below_iff.mpr (.inr hchild)), if_pos hchild, add_left_comm]
      · rw [if_neg fun hbelow => (h.below_iff.mp hbelow).elim hown hchild, if_neg hchild, zero_add, zero_add]

end Rooted
