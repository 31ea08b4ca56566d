import Mathlib.Data.List.Induction
import Mathlib.Data.List.Nodup
import Mathlib.Data.List.Perm.Basic
import Mathlib.Data.List.Sort

/-!
# Keyed tables

A table whose rows have a key is a list of rows. An insert that updates on conflict replaces the row of the key or appends one; many
of them leave, of each key they write, the last row written, and the old rows of the other keys.
-/

namespace Keyed

variable {ρ κ : Type} [DecidableEq κ] {key : ρ → κ}

/-- `INSERT … ON CONFLICT (key) DO UPDATE`: the row of the key is combined with the new one, or the new one is appended. -/
def upsertWith (key : ρ → κ) (combine : ρ → ρ → ρ) (row : ρ) (rows : List ρ) : List ρ :=
  if rows.any (key · = key row) then rows.map fun old => if key old = key row then combine old row else old else rows ++ [row]

/-- The row of the key is replaced. -/
def upsert (key : ρ → κ) (row : ρ) (rows : List ρ) : List ρ := upsertWith key (fun _ row => row) row rows

/-- Rows upserted in order. -/
def upsertAll (key : ρ → κ) (new rows : List ρ) : List ρ := new.foldl (fun rows row => upsert key row rows) rows

/-- The last of the rows of a key. -/
def last? (key : ρ → κ) (rows : List ρ) (k : κ) : Option ρ := rows.reverse.find? (key · = k)

@[simp] theorem last?_nil (k : κ) : last? key [] k = none := rfl

theorem last?_append (rows : List ρ) (row : ρ) (k : κ) :
    last? key (rows ++ [row]) k = if key row = k then some row else last? key rows k := by
  unfold last?
  rw [List.reverse_append, List.reverse_singleton, List.singleton_append, List.find?_cons]
  by_cases h : key row = k
  · simp [h]
  · simp [h]

theorem last?_eq_none {rows : List ρ} {k : κ} : last? key rows k = none ↔ ∀ row ∈ rows, key row ≠ k := by
  unfold last?
  simp

theorem last?_some {rows : List ρ} {row : ρ} {k : κ} (h : last? key rows k = some row) : row ∈ rows ∧ key row = k := by
  have hmem := List.mem_of_find?_eq_some h
  have hkey := List.find?_some h
  exact ⟨List.mem_reverse.mp hmem, of_decide_eq_true hkey⟩

/-- A row of a key is the last of it, when the keys are unique. -/
theorem last?_of_nodup {rows : List ρ} (hunique : (rows.map key).Nodup) {row : ρ} (h : row ∈ rows) :
    last? key rows (key row) = some row := by
  cases hlast : last? key rows (key row) with
  | none => exact absurd rfl (last?_eq_none.mp hlast row h)
  | some row' =>
    obtain ⟨hmem, hkey⟩ := last?_some hlast
    exact congrArg some (List.inj_on_of_nodup_map hunique hmem h hkey)

theorem mem_upsert {row r : ρ} {rows : List ρ} : r ∈ upsert key row rows ↔ r = row ∨ key r ≠ key row ∧ r ∈ rows := by
  unfold upsert upsertWith
  by_cases hany : rows.any (key · = key row) = true
  · rw [if_pos hany, List.mem_map]
    obtain ⟨old, hold, hkey⟩ := List.any_eq_true.mp hany
    constructor
    · rintro ⟨x, hx, rfl⟩
      by_cases hxkey : key x = key row
      · exact .inl (if_pos hxkey)
      · rw [if_neg hxkey]
        exact .inr ⟨hxkey, hx⟩
    · rintro (rfl | ⟨hne, hr⟩)
      · exact ⟨old, hold, if_pos (of_decide_eq_true hkey)⟩
      · exact ⟨r, hr, if_neg hne⟩
  · rw [if_neg hany, List.mem_append, List.mem_singleton, or_comm]
    refine or_congr_right ⟨fun hr => ⟨fun hkey => hany (List.any_eq_true.mpr ⟨r, hr, decide_eq_true hkey⟩), hr⟩, And.right⟩

/-- A combination that keeps the key keeps the keys unique. -/
theorem nodup_upsertWith {combine : ρ → ρ → ρ} {row : ρ} {rows : List ρ}
    (hkey : ∀ old, key old = key row → key (combine old row) = key row) (h : (rows.map key).Nodup) :
    ((upsertWith key combine row rows).map key).Nodup := by
  unfold upsertWith
  by_cases hany : rows.any (key · = key row) = true
  · have hkeys : (rows.map fun old => if key old = key row then combine old row else old).map key = rows.map key := by
      rw [List.map_map]
      refine List.map_congr_left fun old _ => ?_
      rw [Function.comp_apply]
      split
      · next hold => exact (hkey old hold).trans hold.symm
      · rfl
    rw [if_pos hany, hkeys]
    exact h
  · rw [if_neg hany, List.map_append]
    refine h.append (List.nodup_singleton _) ?_
    rw [List.map_singleton, List.disjoint_singleton]
    intro hmem
    obtain ⟨old, hold, hold'⟩ := List.mem_map.mp hmem
    exact hany (List.any_eq_true.mpr ⟨old, hold, decide_eq_true hold'⟩)

theorem nodup_upsert {row : ρ} {rows : List ρ} (h : (rows.map key).Nodup) : ((upsert key row rows).map key).Nodup :=
  nodup_upsertWith (fun _ _ => rfl) h

theorem nodup_upsertAll {new rows : List ρ} (h : (rows.map key).Nodup) : ((upsertAll key new rows).map key).Nodup := by
  induction new generalizing rows with
  | nil => exact h
  | cons row new ih => exact ih (nodup_upsert h)

/-- The rows after upserts are the last written of each key, and the old rows of the keys not written (induction on what is written,
from its end). -/
theorem mem_upsertAll {new rows : List ρ} {r : ρ} :
    r ∈ upsertAll key new rows ↔ last? key new (key r) = some r ∨ last? key new (key r) = none ∧ r ∈ rows := by
  induction new using List.reverseRecOn with
  | nil => simp [upsertAll]
  | append_singleton new row ih =>
    unfold upsertAll at ih ⊢
    rw [List.foldl_append, List.foldl_cons, List.foldl_nil, mem_upsert, ih, last?_append]
    by_cases hkey : key row = key r
    · rw [if_pos hkey]
      simp [hkey, eq_comm]
    · rw [if_neg hkey]
      have hne : key r ≠ key row := fun h => hkey h.symm
      have hr : r ≠ row := fun h => hne (congrArg key h)
      simp [hne, hr]

/-- What is written under unique keys is there, with the old rows of the other keys. -/
theorem mem_upsertAll_of_nodup {new rows : List ρ} (hunique : (new.map key).Nodup) {r : ρ} :
    r ∈ upsertAll key new rows ↔ r ∈ new ∨ key r ∉ new.map key ∧ r ∈ rows := by
  have hsome : last? key new (key r) = some r ↔ r ∈ new := ⟨fun h => (last?_some h).1, last?_of_nodup hunique⟩
  have hnone : last? key new (key r) = none ↔ key r ∉ new.map key := by
    rw [last?_eq_none, List.mem_map]
    exact ⟨fun h hmem => hmem.elim fun row hrow => h row hrow.1 hrow.2, fun h row hrow hkey => h ⟨row, hrow, hkey⟩⟩
  rw [mem_upsertAll, hsome, hnone]

/-- A row of a new key is appended. -/
theorem upsert_new {row : ρ} {rows : List ρ} (h : key row ∉ rows.map key) : upsert key row rows = rows ++ [row] := by
  have hany : ¬ rows.any (fun old => decide (key old = key row)) = true := by
    rw [List.any_eq_true]
    rintro ⟨old, hold, hkey⟩
    exact h (List.mem_map.mpr ⟨old, hold, of_decide_eq_true hkey⟩)
  rw [upsert, upsertWith, if_neg hany]

/-- Upserting leaves the rows exactly when what it writes last of each key is there. -/
theorem upsertAll_same {new rows : List ρ} (hunique : (rows.map key).Nodup) :
    (∀ r, r ∈ upsertAll key new rows ↔ r ∈ rows) ↔ ∀ r, last? key new (key r) = some r → r ∈ rows := by
  refine ⟨fun h r hr => (h r).mp (mem_upsertAll.mpr (.inl hr)), fun h r => ?_⟩
  rw [mem_upsertAll]
  refine ⟨fun hr => hr.elim (h r) And.right, fun hr => ?_⟩
  cases hlast : last? key new (key r) with
  | none => exact .inr ⟨rfl, hr⟩
  | some r' =>
    have hkey := (last?_some hlast).2
    have hmem := h r' (by rw [hkey]; exact hlast)
    exact .inl (congrArg some (List.inj_on_of_nodup_map hunique hmem hr hkey))

omit [DecidableEq κ] in
/-- Rows with unique keys are the same rows in another order when each is among the others. -/
theorem perm_of_nodup {rows rows' : List ρ} (h : (rows.map key).Nodup) (h' : (rows'.map key).Nodup) :
    rows.Perm rows' ↔ ∀ r, r ∈ rows ↔ r ∈ rows' :=
  List.perm_ext_iff_of_nodup (List.Nodup.of_map _ h) (List.Nodup.of_map _ h')

/-! ## Sorting by a key -/

section

variable {κ : Type*} [LinearOrder κ] {key : ρ → κ} {rows rows' : List ρ}

theorem pairwise_mergeSort (key : ρ → κ) (rows : List ρ) :
    (rows.mergeSort fun a b => key a ≤ key b).Pairwise fun a b => key a ≤ key b := by
  have hsorted : (rows.mergeSort fun a b => key a ≤ key b).Pairwise fun a b => decide (key a ≤ key b) = true :=
    List.pairwise_mergeSort (fun a b c hab hbc => decide_eq_true ((of_decide_eq_true hab).trans (of_decide_eq_true hbc)))
      (fun a b => by simpa using le_total (key a) (key b)) rows
  exact hsorted.imp fun hab => of_decide_eq_true hab

/-- Rows with unique keys are sorted strictly. -/
theorem mergeSort_strict (hunique : (rows.map key).Nodup) :
    (rows.mergeSort fun a b => key a ≤ key b).Pairwise fun a b => key a < key b := by
  have hperm := List.mergeSort_perm rows fun a b => decide (key a ≤ key b)
  have hdistinct := List.pairwise_map.mp ((hperm.map key).nodup_iff.mpr hunique)
  exact ((pairwise_mergeSort key rows).and hdistinct).imp fun hab => lt_of_le_of_ne hab.1 hab.2

/-- The same rows in another order are sorted to the same list, when their keys tell them apart. -/
theorem mergeSort_eq_of_perm (hinj : ∀ a ∈ rows, ∀ b ∈ rows, key a = key b → a = b) (h : rows.Perm rows') :
    (rows.mergeSort fun a b => key a ≤ key b) = rows'.mergeSort fun a b => key a ≤ key b := by
  have hperm := List.mergeSort_perm rows fun a b => decide (key a ≤ key b)
  have hperm' := List.mergeSort_perm rows' fun a b => decide (key a ≤ key b)
  refine List.Perm.eq_of_pairwise (fun a b ha hb hab hba => ?_) (pairwise_mergeSort key rows) (pairwise_mergeSort key rows')
    (hperm.trans (h.trans hperm'.symm))
  exact hinj a (hperm.mem_iff.mp ha) b (h.mem_iff.mpr (hperm'.mem_iff.mp hb)) (le_antisymm hab hba)

end

end Keyed
