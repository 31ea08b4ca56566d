import Mathlib

/-!
# Groups by a key

Items are collected under their keys one after the other. A group holds the items of its key in their order, and every key that an
item has is that of one group.
-/

namespace Grouping

variable {α κ : Type*} [DecidableEq κ] (key : α → κ)

/-- An item is added to the group of its key. -/
def add (groups : List (κ × List α)) (a : α) : List (κ × List α) :=
  if groups.any (fun e => e.1 = key a) then groups.map fun e => if e.1 = key a then (e.1, e.2 ++ [a]) else e
  else groups ++ [(key a, [a])]

/-- The groups of the items. -/
structure Groups (as : List α) (groups : List (κ × List α)) : Prop where
  nodup : (groups.map (·.1)).Nodup
  mem : ∀ k xs, (k, xs) ∈ groups ↔ xs = as.filter (key · = k) ∧ xs ≠ []

variable {key} {as : List α} {groups : List (κ × List α)} {a : α}

theorem Groups.any_iff (h : Groups key as groups) (k : κ) :
    groups.any (fun e => e.1 = k) = true ↔ as.filter (key · = k) ≠ [] := by
  simp only [List.any_eq_true, decide_eq_true_eq]
  constructor
  · rintro ⟨⟨k', xs⟩, hmem, rfl⟩
    obtain ⟨hxs, hne⟩ := (h.mem k' xs).mp hmem
    exact hxs ▸ hne
  · exact fun hne => ⟨(k, as.filter (key · = k)), (h.mem _ _).mpr ⟨rfl, hne⟩, rfl⟩

/-- An added item is the last one of its group. -/
theorem Groups.add (h : Groups key as groups) : Groups key (as ++ [a]) (add key groups a) := by
  have hfilter : ∀ k, (as ++ [a]).filter (key · = k) = as.filter (key · = k) ++ if key a = k then [a] else [] := by
    intro k
    rw [List.filter_append]
    by_cases hk : key a = k <;> simp [hk]
  unfold Grouping.add
  split
  case isTrue hany =>
    have hknown := (h.any_iff (key a)).mp hany
    refine ⟨?_, fun k xs => ?_⟩
    · have hkeys : (groups.map fun e => if e.1 = key a then (e.1, e.2 ++ [a]) else e).map (·.1) = groups.map (·.1) := by
        rw [List.map_map]
        refine List.map_congr_left fun e _ => ?_
        simp only [Function.comp_apply]
        split <;> rfl
      rw [hkeys]
      exact h.nodup
    · rw [hfilter, List.mem_map]
      by_cases hk : key a = k
      · rw [if_pos hk]
        constructor
        · rintro ⟨⟨k', ys⟩, hmem, heq⟩
          by_cases hk' : k' = key a
          · simp only [hk', if_true, Prod.mk.injEq] at heq
            obtain ⟨rfl, rfl⟩ := heq
            rw [((h.mem k' ys).mp hmem).1, hk']
            exact ⟨rfl, by simp⟩
          · simp only [hk', if_false, Prod.mk.injEq] at heq
            exact absurd (heq.1.trans hk.symm) hk'
        · rintro ⟨rfl, -⟩
          exact ⟨(k, as.filter (key · = k)), (h.mem _ _).mpr ⟨rfl, hk ▸ hknown⟩, by simp [hk]⟩
      · rw [if_neg hk, List.append_nil, ← h.mem]
        constructor
        · rintro ⟨⟨k', ys⟩, hmem, heq⟩
          by_cases hk' : k' = key a
          · simp only [hk', if_true, Prod.mk.injEq] at heq
            exact absurd heq.1 hk
          · simp only [hk', if_false] at heq
            exact heq ▸ hmem
        · exact fun hmem => ⟨(k, xs), hmem, by simp [Ne.symm hk]⟩
  case isFalse hany =>
    have hnew : as.filter (key · = key a) = [] := not_not.mp (mt (h.any_iff (key a)).mpr hany)
    refine ⟨?_, fun k xs => ?_⟩
    · rw [List.map_append, List.nodup_append]
      refine ⟨h.nodup, List.nodup_singleton _, ?_⟩
      rintro k hk k' hk' rfl
      obtain rfl := List.mem_singleton.mp hk'
      obtain ⟨⟨k, xs⟩, hmem, hkey⟩ := List.mem_map.mp hk
      obtain ⟨hxs, hne⟩ := (h.mem k xs).mp hmem
      exact hne (hxs.trans ((show k = key a from hkey) ▸ hnew))
    · rw [hfilter, List.mem_append, List.mem_singleton, Prod.mk.injEq, h.mem]
      by_cases hk : key a = k
      · subst hk
        rw [hnew]
        constructor
        · rintro (⟨hxs, hne⟩ | ⟨-, rfl⟩)
          · exact absurd hxs hne
          · simp
        · exact fun h => .inr ⟨rfl, by simpa using h.1⟩
      · simp [hk, Ne.symm hk]

/-- Items that are added one after the other are grouped (induction on the items from their end). -/
theorem groups_foldl (key : α → κ) (as : List α) : Groups key as (as.foldl (Grouping.add key) []) := by
  induction as using List.reverseRecOn with
  | nil => exact ⟨List.nodup_nil, fun k xs => by simp⟩
  | append_singleton as a ih =>
    rw [List.foldl_append]
    exact ih.add

/-- Of items whose keys are apart one is alone in its group (induction on the items). -/
theorem filter_key {i : Nat} (hnodup : (as.map key).Nodup) (hi : as[i]? = some a) : as.filter (key · = key a) = [a] := by
  induction as generalizing i with
  | nil => nomatch hi
  | cons b as ih =>
    obtain ⟨hfresh, hnodup⟩ := List.nodup_cons.mp hnodup
    cases i with
    | zero =>
      obtain rfl := Option.some.inj hi
      have hrest : as.filter (key · = key b) = [] := by
        refine List.filter_eq_nil_iff.mpr fun c hc hsame => hfresh ?_
        exact List.mem_map.mpr ⟨c, hc, of_decide_eq_true hsame⟩
      rw [List.filter_cons_of_pos (by simp), hrest]
    | succ i =>
      rw [List.getElem?_cons_succ] at hi
      have hne : key b ≠ key a := fun heq => hfresh (heq ▸ List.mem_map_of_mem (List.mem_of_getElem? hi))
      rw [List.filter_cons_of_neg (by simpa using hne), ih hnodup hi]

end Grouping
