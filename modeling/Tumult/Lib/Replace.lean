import Mathlib

/-!
# Replacing a pattern

All matches of a pattern in a list, from left to right and without overlaps, replaced by another list: where the pattern is not,
what it cannot cross, and how it commutes with an escape that leaves the pattern alone.
-/

namespace Replace

variable {α : Type} [DecidableEq α]

/-- The loop; the number counts the elements of a match that are still to be passed over. -/
def replaceFrom (pat new : List α) : Nat → List α → List α
  | _, [] => []
  | k + 1, _ :: cs => replaceFrom pat new k cs
  | 0, c :: cs => if pat <+: c :: cs then new ++ replaceFrom pat new (pat.length - 1) cs else c :: replaceFrom pat new 0 cs

def replaceAll (pat new cs : List α) : List α := replaceFrom pat new 0 cs

variable {pat new : List α}

theorem replaceFrom_of_match {c : α} {cs : List α} (h : pat <+: c :: cs) :
    replaceFrom pat new 0 (c :: cs) = new ++ replaceFrom pat new (pat.length - 1) cs := by
  rw [replaceFrom, if_pos h]

theorem replaceFrom_of_not_match {c : α} {cs : List α} (h : ¬ pat <+: c :: cs) :
    replaceFrom pat new 0 (c :: cs) = c :: replaceFrom pat new 0 cs := by
  rw [replaceFrom, if_neg h]

omit [DecidableEq α] in
/-- A match does not reach an element that is not in the pattern. -/
theorem prefix_append_cons_iff {c : α} (hc : c ∉ pat) (xs ys : List α) : pat <+: xs ++ c :: ys ↔ pat <+: xs := by
  induction pat generalizing xs with
  | nil => simp
  | cons p pat ih =>
    obtain ⟨hp, hpat⟩ := not_or.1 (fun h => hc (List.mem_cons.2 h))
    cases xs with
    | nil => simp [List.cons_prefix_cons, Ne.symm hp]
    | cons x xs => simp only [List.cons_append, List.cons_prefix_cons, ih hpat]

/-- What is before and after an element that is not in the pattern is replaced on its own. -/
theorem replaceFrom_append {c : α} (hc : c ∉ pat) (hpat : pat ≠ []) {k : Nat} (xs ys : List α) (hk : k ≤ xs.length) :
    replaceFrom pat new k (xs ++ c :: ys) = replaceFrom pat new k xs ++ c :: replaceAll pat new ys := by
  induction xs generalizing k with
  | nil =>
    obtain rfl : k = 0 := by simpa using hk
    have hno : ¬ pat <+: c :: ys := by
      intro h
      have hnil := (prefix_append_cons_iff hc [] ys).1 h
      exact hpat (List.prefix_nil.1 hnil)
    rw [List.nil_append, replaceFrom_of_not_match hno]
    rfl
  | cons x xs ih =>
    cases k with
    | succ k => exact ih (by simpa using hk)
    | zero =>
      have hiff := prefix_append_cons_iff hc (x :: xs) ys
      rw [List.cons_append] at hiff ⊢
      by_cases hmatch : pat <+: x :: xs
      · have hlength : pat.length - 1 ≤ xs.length := by
          have h := hmatch.length_le
          rw [List.length_cons] at h
          omega
        rw [replaceFrom_of_match (hiff.2 hmatch), replaceFrom_of_match hmatch, ih hlength, List.append_assoc]
      · rw [replaceFrom_of_not_match (fun h => hmatch (hiff.1 h)), replaceFrom_of_not_match hmatch, ih (Nat.zero_le _),
          List.cons_append]

theorem replaceAll_append_cons {c : α} (hc : c ∉ pat) (hpat : pat ≠ []) (xs ys : List α) :
    replaceAll pat new (xs ++ c :: ys) = replaceAll pat new xs ++ c :: replaceAll pat new ys :=
  replaceFrom_append hc hpat xs ys (Nat.zero_le _)

/-- A pattern that has an element the list does not have. -/
theorem replaceAll_of_not_mem {p : α} (hp : p ∈ pat) {cs : List α} (h : p ∉ cs) : replaceAll pat new cs = cs := by
  have hno : ∀ ds : List α, p ∉ ds → ¬ pat <+: ds := fun ds hds hpre => hds (hpre.subset hp)
  induction cs with
  | nil => rfl
  | cons c cs ih =>
    rw [replaceAll, replaceFrom_of_not_match (hno _ h)]
    exact congrArg (c :: ·) (ih (fun h' => h (List.mem_cons_of_mem _ h')))

/-- No match begins in a list that does not have the first element of the pattern. -/
theorem replaceAll_append_left {p : α} {ps xs : List α} (h : p ∉ xs) (ys : List α) :
    replaceAll (p :: ps) new (xs ++ ys) = xs ++ replaceAll (p :: ps) new ys := by
  induction xs with
  | nil => rfl
  | cons x xs ih =>
    obtain ⟨hne, hxs⟩ := not_or.1 (fun h' => h (List.mem_cons.2 h'))
    have hno : ¬ p :: ps <+: x :: (xs ++ ys) := fun hpre => hne (List.cons_prefix_cons.1 hpre).1
    rw [List.cons_append, replaceAll, replaceFrom_of_not_match hno]
    exact congrArg (x :: ·) (ih hxs)

/-- The pattern itself. -/
theorem replaceAll_pat {p : α} {ps : List α} : replaceAll (p :: ps) new (p :: ps) = new := by
  have hpass : ∀ cs : List α, replaceFrom (p :: ps) new cs.length cs = [] := by
    intro cs
    induction cs with
    | nil => rfl
    | cons c cs ih => exact ih
  have hself : p :: ps <+: p :: ps := List.prefix_rfl
  rw [replaceAll, replaceFrom_of_match hself, List.length_cons, Nat.add_sub_cancel, hpass, List.append_nil]

/-- A replacement that is not longer than the pattern makes nothing longer. -/
theorem length_replaceFrom_le (h : new.length ≤ pat.length) (k : Nat) (cs : List α) :
    (replaceFrom pat new k cs).length ≤ cs.length - k := by
  induction cs generalizing k with
  | nil => simp [replaceFrom]
  | cons c cs ih =>
    cases k with
    | succ k =>
      have hrest := ih k
      rw [List.length_cons]
      unfold replaceFrom
      omega
    | zero =>
      unfold replaceFrom
      split
      · rename_i hmatch
        have hrest := ih (pat.length - 1)
        have hle := hmatch.length_le
        simp only [List.length_append, List.length_cons] at hle ⊢
        omega
      · have hrest := ih 0
        simp only [List.length_cons]
        omega

/-- A match that is replaced by something shorter makes the list shorter. -/
theorem length_replaceAll_lt (h : new.length < pat.length) {cs : List α} (hin : pat <:+: cs) :
    (replaceAll pat new cs).length < cs.length := by
  induction cs with
  | nil =>
    rw [List.infix_nil.1 hin] at h
    cases h
  | cons c cs ih =>
    unfold replaceAll at ih ⊢
    by_cases hmatch : pat <+: c :: cs
    · have hrest := length_replaceFrom_le h.le (pat.length - 1) cs
      have hle := hmatch.length_le
      rw [replaceFrom_of_match hmatch]
      simp only [List.length_append, List.length_cons] at hle ⊢
      omega
    · have hrest := ih ((List.infix_cons_iff.1 hin).resolve_left hmatch)
      rw [replaceFrom_of_not_match hmatch, List.length_cons, List.length_cons]
      omega

/-- Nothing changes exactly when there is no match, if the replacement is shorter. -/
theorem replaceAll_eq_self_iff (h : new.length < pat.length) (cs : List α) : replaceAll pat new cs = cs ↔ ¬ pat <:+: cs := by
  constructor
  · intro hself hin
    have hlt := length_replaceAll_lt h hin
    rw [hself] at hlt
    exact absurd hlt (Nat.lt_irrefl _)
  · intro hno
    induction cs with
    | nil => rfl
    | cons c cs ih =>
      rw [replaceAll, replaceFrom_of_not_match (fun hpre => hno hpre.isInfix)]
      exact congrArg (c :: ·) (ih (fun hin => hno (List.infix_cons hin)))

/-! ## Escapes -/

/-- An escape that leaves the elements of the pattern alone and writes none of them for others. -/
structure Spares (pat : List α) (f : α → List α) : Prop where
  same : ∀ c ∈ pat, f c = [c]
  other : ∀ c, c ∉ pat → f c ≠ [] ∧ ∀ d ∈ f c, d ∉ pat

variable {f : α → List α}

omit [DecidableEq α] in
theorem prefix_flatMap_iff (h : Spares pat f) {qs : List α} (hqs : qs ⊆ pat) (cs : List α) : qs <+: cs.flatMap f ↔ qs <+: cs := by
  induction qs generalizing cs with
  | nil => simp
  | cons q qs ih =>
    have hq := hqs List.mem_cons_self
    cases cs with
    | nil => simp
    | cons c cs =>
      rw [List.flatMap_cons]
      by_cases hc : c ∈ pat
      · rw [h.same c hc, List.singleton_append, List.cons_prefix_cons, List.cons_prefix_cons,
          ih (fun _ hx => hqs (List.mem_cons_of_mem _ hx))]
      · obtain ⟨hne, hother⟩ := h.other c hc
        obtain ⟨d, ds, hfc⟩ := List.exists_cons_of_ne_nil hne
        have hd : d ∉ pat := hother d (by rw [hfc]; exact List.mem_cons_self)
        rw [hfc, List.cons_append, List.cons_prefix_cons, List.cons_prefix_cons]
        exact iff_of_false (fun hp => hd (hp.1 ▸ hq)) (fun hp => hc (hp.1 ▸ hq))

/-- Elements that are not in the pattern are passed. -/
theorem replaceAll_append_of_not_mem (hpat : pat ≠ []) {xs : List α} (hxs : ∀ x ∈ xs, x ∉ pat) (ys : List α) :
    replaceAll pat new (xs ++ ys) = xs ++ replaceAll pat new ys := by
  induction xs with
  | nil => rfl
  | cons x xs ih =>
    obtain ⟨hx, hxs⟩ := List.forall_mem_cons.1 hxs
    have hstep : replaceAll pat new (x :: (xs ++ ys)) = x :: replaceAll pat new (xs ++ ys) :=
      replaceAll_append_cons hx hpat [] (xs ++ ys)
    rw [List.cons_append, hstep, ih hxs, List.cons_append]

theorem replaceFrom_flatMap (h : Spares pat f) (hpat : pat ≠ []) (hnew : new.flatMap f = new) {k : Nat} (cs : List α)
    (hk : ∀ c ∈ cs.take k, c ∈ pat) : replaceFrom pat new k (cs.flatMap f) = (replaceFrom pat new k cs).flatMap f := by
  induction cs generalizing k with
  | nil => simp [replaceFrom]
  | cons c cs ih =>
    cases k with
    | succ k =>
      obtain ⟨hc, hcs⟩ := List.forall_mem_cons.1 hk
      rw [List.flatMap_cons, h.same c hc]
      exact ih hcs
    | zero =>
      have hiff := prefix_flatMap_iff h (List.Subset.refl pat) (c :: cs)
      by_cases hc : c ∈ pat
      · rw [List.flatMap_cons, h.same c hc, List.singleton_append] at hiff ⊢
        by_cases hmatch : pat <+: c :: cs
        · have htail : ∀ d ∈ cs.take (pat.length - 1), d ∈ pat := by
            intro d hd
            obtain ⟨rest, hrest⟩ := hmatch
            obtain ⟨p, ps, rfl⟩ := List.exists_cons_of_ne_nil hpat
            rw [List.cons_append] at hrest
            rw [← (List.cons.inj hrest).2, List.length_cons, Nat.add_sub_cancel, List.take_left] at hd
            exact List.mem_cons_of_mem _ hd
          rw [replaceFrom_of_match (hiff.2 hmatch), replaceFrom_of_match hmatch, ih htail, List.flatMap_append, hnew]
        · rw [replaceFrom_of_not_match (fun h' => hmatch (hiff.1 h')), replaceFrom_of_not_match hmatch, ih (by simp),
            List.flatMap_cons, h.same c hc, List.singleton_append]
      · have hmatch : ¬ pat <+: c :: cs := by
          intro h'
          obtain ⟨p, ps, rfl⟩ := List.exists_cons_of_ne_nil hpat
          exact hc ((List.cons_prefix_cons.1 h').1 ▸ List.mem_cons_self)
        have hpass : replaceFrom pat new 0 (f c ++ cs.flatMap f) = f c ++ replaceFrom pat new 0 (cs.flatMap f) :=
          replaceAll_append_of_not_mem hpat (h.other c hc).2 (cs.flatMap f)
        rw [replaceFrom_of_not_match hmatch, List.flatMap_cons, List.flatMap_cons, hpass, ih (by simp)]

/-- The escape commutes with the replacement by something that it leaves alone. -/
theorem replaceAll_flatMap (h : Spares pat f) (hpat : pat ≠ []) (hnew : new.flatMap f = new) (cs : List α) :
    replaceAll pat new (cs.flatMap f) = (replaceAll pat new cs).flatMap f :=
  replaceFrom_flatMap h hpat hnew cs (by simp)

end Replace
