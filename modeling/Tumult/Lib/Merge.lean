import Tumult.Lib.Tables

/-!
# Merging a table into another

The rows of a source are inserted into a table where it has no row of their key: an anti-join against the table as it was, so rows
of the source that share a key are inserted together or not at all. A row is compared with another on named columns, in which a
missing value equals a missing value. What a merge leaves out are the rows whose key the table had with other values.
-/

namespace Tables.Table

variable {V : Type} {T S G : Table V}

/-- A row of one table has the values of a row of another in these columns. -/
def Agree (T S : Table V) (columns : List String) (t r : List V) : Prop := ∀ c ∈ columns, T.value? t c = S.value? r c

instance [DecidableEq V] (T S : Table V) (columns : List String) (t r : List V) : Decidable (Agree T S columns t r) :=
  inferInstanceAs (Decidable (∀ c ∈ columns, T.value? t c = S.value? r c))

theorem Agree.mono {columns columns' : List String} {t r : List V} (h : Agree T S columns t r) (hsub : columns' ⊆ columns) :
    Agree T S columns' t r := fun c hc => h c (hsub hc)

theorem Agree.trans {columns : List String} {t r g : List V} (h : Agree T S columns t r) (h' : Agree S G columns r g) :
    Agree T G columns t g := fun c hc => (h c hc).trans (h' c hc)

theorem Agree.symm {columns : List String} {t r : List V} (h : Agree T S columns t r) : Agree S T columns r t :=
  fun c hc => (h c hc).symm

/-- The table has a row with these values of another's row. -/
def Has (T S : Table V) (columns : List String) (r : List V) : Prop := ∃ t ∈ T.rows, Agree T S columns t r

instance [DecidableEq V] (T S : Table V) (columns : List String) (r : List V) : Decidable (Has T S columns r) :=
  inferInstanceAs (Decidable (∃ t ∈ T.rows, Agree T S columns t r))

/-- The table with more rows. -/
def append (T : Table V) (rows : List (List V)) (h : ∀ r ∈ rows, r.length = T.columns.length) : Table V where
  columns := T.columns
  rows := T.rows ++ rows
  width := fun r hr => (List.mem_append.mp hr).elim (T.width r) (h r)

/-- A row of a source as a row of the table: its values in the shared columns, and the default of every other column. -/
def fill (T S : Table V) (default : String → V) (shared : List String) (row : List V) : List V :=
  T.columns.map fun c => if c ∈ shared then (S.value? row c).getD (default c) else default c

/-- The rows of a source whose key the table does not have. -/
def missing [DecidableEq V] (T S : Table V) (key : List String) : List (List V) := S.rows.filter fun r => ¬ T.Has S key r

/-- The table with the missing rows of a source. -/
def merge [DecidableEq V] (T S : Table V) (default : String → V) (shared key : List String) : Table V :=
  T.append ((T.missing S key).map (T.fill S default shared)) (by
    intro r hr
    obtain ⟨row, -, rfl⟩ := List.mem_map.mp hr
    simp [fill])

/-- The columns of the table that the source has too. -/
def shared (T S : Table V) : List String := T.columns.filter (· ∈ S.columns)

theorem mem_shared {c : String} : c ∈ T.shared S ↔ c ∈ T.columns ∧ c ∈ S.columns := by simp [shared]

theorem value?_isSome {row : List V} (hrow : row ∈ S.rows) {c : String} (hc : c ∈ S.columns) : (S.value? row c).isSome := by
  unfold value?
  rw [Option.isSome_iff_ne_none, ne_eq, List.getElem?_eq_none_iff, not_le, S.width row hrow]
  exact List.idxOf_lt_length_of_mem hc

/-- A row that is filled from a source's row agrees with it on what they share. -/
theorem agree_fill (default : String → V) {row : List V} (hrow : row ∈ S.rows) :
    Agree T S (T.shared S) (T.fill S default (T.shared S) row) row := by
  intro c hc
  obtain ⟨hT, hS⟩ := mem_shared.mp hc
  obtain ⟨v, hv⟩ := Option.isSome_iff_exists.mp (value?_isSome hrow hS)
  have hidx := List.idxOf_lt_length_of_mem hT
  unfold value? fill
  rw [List.getElem?_map, List.getElem?_eq_getElem hidx, List.getElem_idxOf hidx, Option.map_some, if_pos hc, hv]
  exact hv.symm

section Merge

variable [DecidableEq V] {default : String → V} {key : List String} {r : List V}

@[simp] theorem merge_columns {shared : List String} : (T.merge S default shared key).columns = T.columns := rfl

theorem merge_rows {shared : List String} :
    (T.merge S default shared key).rows = T.rows ++ (T.missing S key).map (T.fill S default shared) := rfl

theorem mem_missing : r ∈ T.missing S key ↔ r ∈ S.rows ∧ ¬ T.Has S key r := by simp [missing]

/-- What a merged table has, the table had, or a row of the source had whose key the table did not have. -/
theorem has_merge {columns : List String} (hcolumns : columns ⊆ T.shared S) :
    (T.merge S default (T.shared S) key).Has G columns r ↔
      T.Has G columns r ∨ ∃ s ∈ T.missing S key, Agree S G columns s r := by
  unfold Has
  rw [merge_rows]
  constructor
  · rintro ⟨t, ht, hagree⟩
    rcases List.mem_append.mp ht with ht | ht
    · exact .inl ⟨t, ht, hagree⟩
    · obtain ⟨s, hs, rfl⟩ := List.mem_map.mp ht
      have hfill := (agree_fill (T := T) default (mem_missing.mp hs).1).mono hcolumns
      exact .inr ⟨s, hs, hfill.symm.trans hagree⟩
  · rintro (⟨t, ht, hagree⟩ | ⟨s, hs, hagree⟩)
    · exact ⟨t, List.mem_append_left _ ht, hagree⟩
    · have hfill := (agree_fill (T := T) default (mem_missing.mp hs).1).mono hcolumns
      exact ⟨_, List.mem_append_right _ (List.mem_map_of_mem hs), hfill.trans hagree⟩

variable (hkey : key ⊆ T.shared S)

include hkey

/-- A merged table has a row of the source exactly when the table had it or had no row of its key. -/
theorem merge_present (hr : r ∈ S.rows) :
    (T.merge S default (T.shared S) key).Has S (T.shared S) r ↔ (T.Has S key r → T.Has S (T.shared S) r) := by
  rw [has_merge (List.Subset.refl _)]
  constructor
  · rintro (hhas | ⟨s, hs, hagree⟩) hhaskey
    · exact hhas
    · obtain ⟨t, ht, htr⟩ := hhaskey
      exact absurd ⟨t, ht, htr.trans (hagree.mono hkey).symm⟩ (mem_missing.mp hs).2
  · intro h
    by_cases hhaskey : T.Has S key r
    · exact .inl (h hhaskey)
    · exact .inr ⟨r, mem_missing.mpr ⟨hr, hhaskey⟩, fun _ _ => rfl⟩

/-- A merged table has the key of another's row exactly when the table had it or the source has it. -/
theorem merge_hasKey :
    (T.merge S default (T.shared S) key).Has G key r ↔ T.Has G key r ∨ S.Has G key r := by
  rw [has_merge hkey]
  constructor
  · rintro (hhas | ⟨s, hs, hagree⟩)
    · exact .inl hhas
    · exact .inr ⟨s, (mem_missing.mp hs).1, hagree⟩
  · rintro (hhas | ⟨s, hs, hagree⟩)
    · exact .inl hhas
    · by_cases hhaskey : T.Has S key s
      · obtain ⟨t, ht, hts⟩ := hhaskey
        exact .inl ⟨t, ht, hts.trans hagree⟩
      · exact .inr ⟨s, mem_missing.mpr ⟨hs, hhaskey⟩, hagree⟩

/-- Nothing of a source is missing from a table it was merged into. -/
theorem missing_merge : (T.merge S default (T.shared S) key).missing S key = [] := by
  unfold missing
  rw [List.filter_eq_nil_iff]
  intro r hr
  rw [decide_eq_true_eq, not_not, merge_hasKey hkey]
  exact .inr ⟨r, hr, fun _ _ => rfl⟩

end Merge

/-- A table from which nothing is missing is left. -/
theorem merge_of_missing_nil [DecidableEq V] {default : String → V} {shared key : List String} (h : T.missing S key = []) :
    T.merge S default shared key = T := by
  refine Table.ext rfl ?_
  rw [merge_rows, h, List.map_nil, List.append_nil]

end Tables.Table
