import Mathlib

/-!
# Hash chains

A hash chain is a list of links, each with a body, the hash of the link before it (none for the first) and its own hash, a
digest of the two. What a chain is for is one statement, `Linked.eq_of_last`: under an injective digest the hash of the last
link determines the whole chain. The bodies, the hashes and the digest are parameters.
-/

namespace HashChain

variable {β η : Type*}

/-- One link of a chain. -/
structure Link (β η : Type*) where
  body : β
  prev : Option η
  hash : η

/-- The links form a chain whose first link names `p` as the hash before it. -/
def Linked (digest : β → Option η → η) : Option η → List (Link β η) → Prop
  | _, [] => True
  | p, l :: ls => l.prev = p ∧ l.hash = digest l.body l.prev ∧ Linked digest (some l.hash) ls

/-- The hash at the end of a chain that starts after `p`. -/
def lastHash (p : Option η) (ls : List (Link β η)) : Option η := (ls.getLast?.map Link.hash).or p

/-- The empty chain ends where it starts. -/
@[simp] theorem lastHash_nil (p : Option η) : lastHash p ([] : List (Link β η)) = p := by
  simp [lastHash]

/-- The hash at the end of a chain passes over its first link. -/
@[simp] theorem lastHash_cons (p : Option η) (l : Link β η) (ls : List (Link β η)) :
    lastHash p (l :: ls) = lastHash (some l.hash) ls := by
  cases h : ls.getLast? <;> simp [lastHash, List.getLast?_cons, h]

/-- A chain ends in the hash of its last link. -/
@[simp] theorem lastHash_concat (p : Option η) (ls : List (Link β η)) (l : Link β η) :
    lastHash p (ls ++ [l]) = some l.hash := by
  simp [lastHash]

/-- A chain followed by one more link is a chain when the link names the hash the chain ends in (induction on the chain). -/
theorem linked_concat_iff (digest : β → Option η → η) (p : Option η) (ls : List (Link β η)) (l : Link β η) :
    Linked digest p (ls ++ [l]) ↔ Linked digest p ls ∧ l.prev = lastHash p ls ∧ l.hash = digest l.body l.prev := by
  induction ls generalizing p with
  | nil => simp [Linked]
  | cons a ls ih =>
    simp only [List.cons_append, Linked, lastHash_cons, ih]
    tauto

/-- Every link but the first of a chain names the hash of the link before it. -/
theorem Linked.prev_mem {digest : β → Option η → η} {p : Option η} {ls : List (Link β η)} (h : Linked digest p ls)
    {a : List (Link β η)} {l : Link β η} {b : List (Link β η)} (hs : ls = a ++ l :: b) : l.prev = lastHash p a := by
  induction a generalizing p ls with
  | nil =>
    subst hs
    exact h.1
  | cons c a ih =>
    subst hs
    rw [lastHash_cons]
    exact ih h.2.2 rfl

/-- Every link of a chain holds the digest of its body and of the hash it names. -/
theorem Linked.hash_eq {digest : β → Option η → η} {p : Option η} {ls : List (Link β η)} (h : Linked digest p ls)
    {l : Link β η} (hl : l ∈ ls) : l.hash = digest l.body l.prev := by
  induction ls generalizing p with
  | nil => simp at hl
  | cons a ls ih =>
    rcases List.mem_cons.mp hl with rfl | hl
    · exact h.2.1
    · exact ih h.2.2 hl

/-- Two chains from the start whose last links carry the same hash are the same chain (induction backwards over the chain: the
last links agree because the digest is injective, so they name the same hash before them). -/
theorem Linked.eq_of_last {digest : β → Option η → η} (hinj : Function.Injective2 digest) {as bs : List (Link β η)}
    (ha : Linked digest none as) (hb : Linked digest none bs) (hlast : lastHash none as = lastHash none bs) : as = bs := by
  induction as using List.reverseRecOn generalizing bs with
  | nil =>
    cases bs using List.reverseRecOn with
    | nil => rfl
    | append_singleton bs b => simp at hlast
  | append_singleton as a ih =>
    cases bs using List.reverseRecOn with
    | nil => simp at hlast
    | append_singleton bs b =>
      obtain ⟨ha', hap, hah⟩ := (linked_concat_iff _ _ _ _).mp ha
      obtain ⟨hb', hbp, hbh⟩ := (linked_concat_iff _ _ _ _).mp hb
      have hhash : a.hash = b.hash := by simpa using hlast
      have hbody : a.body = b.body ∧ a.prev = b.prev := hinj (by rw [← hah, ← hbh, hhash])
      have hinit : as = bs := ih ha' hb' (by rw [← hap, ← hbp, hbody.2])
      have hab : a = b := by
        cases a
        cases b
        simp_all
      rw [hinit, hab]

end HashChain
