import Tumult.Lib.Db

/-!
# Tables and additive schema changes

A database is a family of tables, each with its columns in order and rows that have a value for every column. The additive
statements are `CREATE TABLE IF NOT EXISTS` and `ALTER TABLE … ADD COLUMN IF NOT EXISTS`: each acts on one table at a time
(`Ddl.on`), a table only grows under them (`Grown`), and a list of them brings every table that has a part of the columns it
declares to all of them (`Shaped.complete`). A table is rebuilt by copying its rows into a new one that then takes its name.

What a table holds is compared with what it held: `Kept` says that the old rows are there in their order, longer by the columns that
were added, and that the rows after them are keyed by what was seeded.
-/

namespace Tables

open Db (runAll runAll_nil runAll_cons runAll_append runAll_keeps runAll_take)

/-- A table: its columns in order, and rows with a value for each. -/
@[ext]
structure Table (V : Type) where
  columns : List String
  rows : List (List V)
  width : ∀ r ∈ rows, r.length = columns.length

/-- A database: its tables by name. -/
abbrev Database (V : Type) : Type := String → Option (Table V)

variable {V : Type}

namespace Table

/-- A table without rows. -/
def empty (columns : List String) : Table V := ⟨columns, [], fun _ h => absurd h List.not_mem_nil⟩

/-- The table with one more column, which is null in the rows that are there. -/
def pad (null : V) (column : String) (T : Table V) : Table V where
  columns := T.columns ++ [column]
  rows := T.rows.map (· ++ [null])
  width := by
    intro r hr
    obtain ⟨o, ho, rfl⟩ := List.mem_map.mp hr
    simp [T.width o ho]

/-- The table with one more row. -/
def insert (T : Table V) (row : List V) (h : row.length = T.columns.length) : Table V where
  columns := T.columns
  rows := T.rows ++ [row]
  width := by
    intro r hr
    rcases List.mem_append.mp hr with hr | hr
    · exact T.width r hr
    · rw [List.mem_singleton.mp hr, h]

/-- The table with its rows rewritten one by one. -/
def mapRows (T : Table V) (f : List V → List V) (h : ∀ r ∈ T.rows, (f r).length = r.length) : Table V where
  columns := T.columns
  rows := T.rows.map f
  width := by
    intro r hr
    obtain ⟨o, ho, rfl⟩ := List.mem_map.mp hr
    rw [h o ho, T.width o ho]

@[simp] theorem empty_columns (columns : List String) : (empty columns : Table V).columns = columns := rfl
@[simp] theorem empty_rows (columns : List String) : (empty columns : Table V).rows = [] := rfl
@[simp] theorem pad_columns (null : V) (c : String) (T : Table V) : (T.pad null c).columns = T.columns ++ [c] := rfl
@[simp] theorem pad_rows (null : V) (c : String) (T : Table V) : (T.pad null c).rows = T.rows.map (· ++ [null]) := rfl
@[simp] theorem insert_columns (T : Table V) (row : List V) (h) : (T.insert row h).columns = T.columns := rfl
@[simp] theorem insert_rows (T : Table V) (row : List V) (h) : (T.insert row h).rows = T.rows ++ [row] := rfl
@[simp] theorem mapRows_columns (T : Table V) (f : List V → List V) (h) : (T.mapRows f h).columns = T.columns := rfl
@[simp] theorem mapRows_rows (T : Table V) (f : List V → List V) (h) : (T.mapRows f h).rows = T.rows.map f := rfl

/-- Rewriting that changes no row. -/
theorem mapRows_eq_self {T : Table V} {f : List V → List V} {h : ∀ r ∈ T.rows, (f r).length = r.length}
    (hf : ∀ r ∈ T.rows, f r = r) : T.mapRows f h = T :=
  Table.ext rfl ((List.map_congr_left hf).trans (List.map_id _))

/-- The value of a row in a named column. -/
def value? (T : Table V) (row : List V) (column : String) : Option V := row[T.columns.idxOf column]?

end Table

/-! ## Additive statements -/

/-- The statements that declare what a database has. An index or a view holds no rows of its own. -/
inductive Ddl where
  | createTable (table : String) (columns : List String)
  | addColumn (table column : String)
  | derived (name : String)
  deriving DecidableEq, Repr

namespace Ddl

/-- What a statement makes of one table. -/
def on (null : V) (name : String) : Ddl → Option (Table V) → Option (Table V)
  | .createTable table columns, o => if table = name then some (o.getD (.empty columns)) else o
  | .addColumn table column, o => if table = name then o.map (fun T => if column ∈ T.columns then T else T.pad null column) else o
  | .derived _, o => o

/-- Whether the database takes a statement: a column is added to a table that exists. -/
def Takes (db : Database V) : Ddl → Prop
  | .addColumn table _ => (db table).isSome
  | _ => True

instance (db : Database V) (d : Ddl) : Decidable (d.Takes db) := by
  cases d <;> unfold Takes <;> infer_instance

/-- A statement on a database, or its error. -/
def run (null : V) (d : Ddl) (db : Database V) : Option (Database V) :=
  if d.Takes db then some (fun name => d.on null name (db name)) else none

/-- The columns a list of statements creates a table with. -/
def created (ds : List Ddl) (name : String) : Option (List String) :=
  ds.findSome? fun
    | .createTable table columns => if table = name then some columns else none
    | _ => none

/-- The columns a list of statements adds to a table. -/
def added (ds : List Ddl) (name : String) : List String :=
  ds.filterMap fun
    | .addColumn table column => if table = name then some column else none
    | _ => none

/-- The columns a table cannot be without: those it is created with, except what is also added. -/
def required (ds : List Ddl) (name : String) : List String :=
  ((created ds name).getD []).filter (· ∉ added ds name)

/-- The columns a table can have. -/
def declared (ds : List Ddl) (name : String) : List String := (created ds name).getD [] ++ added ds name

/-- A column is added to a table that is created before. -/
def Ordered : List Ddl → List String → Prop
  | [], _ => True
  | .createTable table _ :: ds, seen => Ordered ds (table :: seen)
  | .addColumn table _ :: ds, seen => table ∈ seen ∧ Ordered ds seen
  | .derived _ :: ds, seen => Ordered ds seen

instance decidableOrdered : ∀ ds seen, Decidable (Ordered ds seen)
  | [], _ => .isTrue trivial
  | .createTable table _ :: ds, seen => decidableOrdered ds (table :: seen)
  | .addColumn table _ :: ds, seen =>
    have := decidableOrdered ds seen
    inferInstanceAs (Decidable (table ∈ seen ∧ Ordered ds seen))
  | .derived _ :: ds, seen => decidableOrdered ds seen

/-- What a statement of a list owes the list: a table is created one way, without a column twice, and what is also added stands
last. -/
def Sound (ds : List Ddl) : Ddl → Prop
  | .createTable table columns => created ds table = some columns ∧ columns.Nodup ∧ required ds table <+: columns
  | .addColumn table _ => (created ds table).isSome
  | .derived _ => True

instance (ds : List Ddl) (d : Ddl) : Decidable (d.Sound ds) := by
  cases d <;> unfold Sound <;> infer_instance

end Ddl

/-! ## What a list of statements makes of the columns -/

/-- The columns of a table of the database. -/
def Database.columns (db : Database V) (name : String) : Option (List String) := (db name).map (·.columns)

/-- The columns of a table as a set. -/
def Database.columnSet (db : Database V) (name : String) : Option (Finset String) := (db.columns name).map (·.toFinset)

/-- Columns that a list of statements can have made of a table. -/
structure Fits (ds : List Ddl) (name : String) (columns : List String) : Prop where
  known : (Ddl.created ds name).isSome
  distinct : columns.Nodup
  required : Ddl.required ds name <+: columns
  declared : columns ⊆ Ddl.declared ds name

/-- A database whose tables a list of statements can have made. -/
def Shaped (ds : List Ddl) (db : Database V) : Prop := ∀ name columns, db.columns name = some columns → Fits ds name columns

/-- What a statement declares is there. -/
def Ddl.Held (db : Database V) : Ddl → Prop
  | .createTable table _ => (db.columns table).isSome
  | .addColumn table column => ∃ columns, db.columns table = some columns ∧ column ∈ columns
  | .derived _ => True

variable {null : V} {ds : List Ddl} {d e : Ddl} {db db' : Database V}

theorem Ddl.run_eq (h : d.Takes db) : d.run null db = some fun name => d.on null name (db name) := if_pos h

/-- Inversion: a statement the database took acted on its table. -/
theorem Ddl.of_run (h : d.run null db = some db') : d.Takes db ∧ db' = fun name => d.on null name (db name) := by
  unfold Ddl.run at h
  split at h
  · next htakes => exact ⟨htakes, (Option.some.inj h).symm⟩
  · cases h

theorem Ddl.run_apply (h : d.run null db = some db') (name : String) : db' name = d.on null name (db name) := by
  obtain ⟨-, rfl⟩ := of_run h
  rfl

/-- A statement leaves a table that is there, with the columns it had first. -/
theorem Ddl.on_some (null : V) (name : String) (d : Ddl) (T : Table V) :
    ∃ T', d.on null name (some T) = some T' ∧ (T' = T ∨ ∃ column, d = .addColumn name column ∧ column ∉ T.columns ∧ T' = T.pad null column) := by
  cases d with
  | createTable table columns => exact ⟨T, by simp [Ddl.on], .inl rfl⟩
  | addColumn table column =>
    by_cases hname : table = name
    · subst hname
      by_cases hmem : column ∈ T.columns
      · exact ⟨T, by simp [Ddl.on, hmem], .inl rfl⟩
      · exact ⟨_, by simp only [Ddl.on, if_true, Option.map_some, hmem, if_false], .inr ⟨column, rfl, hmem, rfl⟩⟩
    · exact ⟨T, by simp [Ddl.on, hname], .inl rfl⟩
  | derived => exact ⟨T, rfl, .inl rfl⟩

/-- A statement makes a table that was not there only by creating it. -/
theorem Ddl.on_none {name : String} {T : Table V} (h : d.on null name none = some T) :
    ∃ columns, d = .createTable name columns ∧ T = .empty columns := by
  cases d with
  | createTable table columns =>
    by_cases hname : table = name
    · subst hname
      exact ⟨columns, rfl, by simpa [Ddl.on] using h.symm⟩
    · simp [Ddl.on, hname] at h
  | addColumn table column => simp [Ddl.on] at h
  | derived => cases h

theorem Database.columns_eq_some {name : String} {columns : List String} :
    db.columns name = some columns ↔ ∃ T, db name = some T ∧ T.columns = columns := by
  simp [Database.columns]

/-- After a statement the columns are what they were, unless the statement created the table or added one to it. -/
theorem Ddl.columns_of_run {name : String} {columns : List String} (h : d.run null db = some db') (hcolumns : db.columns name = some columns) :
    db'.columns name = some columns ∨ ∃ column, d = .addColumn name column ∧ column ∉ columns ∧ db'.columns name = some (columns ++ [column]) := by
  obtain ⟨-, rfl⟩ := of_run h
  obtain ⟨T, hT, rfl⟩ := Database.columns_eq_some.mp hcolumns
  obtain ⟨T', hT', hcases⟩ := on_some null name d T
  simp only [Database.columns, hT, hT', Option.map_some]
  rcases hcases with rfl | ⟨column, hd, hmem, rfl⟩
  · exact .inl rfl
  · exact .inr ⟨column, hd, hmem, rfl⟩

/-- What is held stays held. -/
theorem Ddl.Held.run (he : e.Held db) (h : d.run null db = some db') : e.Held db' := by
  cases e with
  | createTable table columns =>
    obtain ⟨columns, hcolumns⟩ := Option.isSome_iff_exists.mp he
    rcases columns_of_run h hcolumns with hsame | ⟨_, -, -, hmore⟩
    · exact Option.isSome_iff_exists.mpr ⟨_, hsame⟩
    · exact Option.isSome_iff_exists.mpr ⟨_, hmore⟩
  | addColumn table column =>
    obtain ⟨columns, hcolumns, hmem⟩ := he
    rcases columns_of_run h hcolumns with hsame | ⟨_, -, -, hmore⟩
    · exact ⟨_, hsame, hmem⟩
    · exact ⟨_, hmore, List.mem_append_left _ hmem⟩
  | derived => trivial

/-- A statement the database took is held. -/
theorem Ddl.held_of_run (h : d.run null db = some db') : d.Held db' := by
  obtain ⟨htakes, rfl⟩ := of_run h
  cases d with
  | createTable table columns => simp [Held, Database.columns, on]
  | addColumn table column =>
    obtain ⟨T, hT⟩ := Option.isSome_iff_exists.mp htakes
    by_cases hmem : column ∈ T.columns
    · exact ⟨T.columns, by simp [Database.columns, on, hT, hmem], hmem⟩
    · exact ⟨T.columns ++ [column], by simp [Database.columns, on, hT, hmem], by simp⟩
  | derived => trivial

/-- A statement that is held changes nothing. -/
theorem Ddl.run_of_held (h : d.Held db) : d.run null db = some db := by
  cases d with
  | createTable table columns =>
    have htakes : (createTable table columns).Takes db := trivial
    refine (run_eq htakes).trans (congrArg some (funext fun name => ?_))
    by_cases hname : table = name
    · subst hname
      obtain ⟨T, hT⟩ : ∃ T, db table = some T := by simpa [Held, Database.columns, Option.isSome_iff_exists] using h
      simp [on, hT]
    · simp [on, hname]
  | addColumn table column =>
    obtain ⟨columns, hcolumns, hmem⟩ := h
    obtain ⟨T, hT, rfl⟩ := Database.columns_eq_some.mp hcolumns
    have htakes : (addColumn table column).Takes db := Option.isSome_iff_exists.mpr ⟨T, hT⟩
    refine (run_eq htakes).trans (congrArg some (funext fun name => ?_))
    by_cases hname : table = name
    · subst hname
      simp [on, hT, hmem]
    · simp [on, hname]
  | derived => rfl

/-- A list whose statements are all held changes nothing. -/
theorem runAll_of_held (null : V) {ds : List Ddl} (h : ∀ d ∈ ds, d.Held db) : runAll (ds.map (Ddl.run null)) db = some db := by
  induction ds with
  | nil => rfl
  | cons d ds ih =>
    rw [List.map_cons, runAll_cons, Ddl.run_of_held (h d List.mem_cons_self), Option.bind_some]
    exact ih fun e he => h e (List.mem_cons_of_mem _ he)

/-- After a list every statement of it is held. -/
theorem held_of_runAll {ds : List Ddl} (h : runAll (ds.map (Ddl.run null)) db = some db') : ∀ d ∈ ds, d.Held db' := by
  induction ds generalizing db with
  | nil => exact fun d hd => absurd hd List.not_mem_nil
  | cons d ds ih =>
    obtain ⟨db₁, h₁, h₂⟩ := Option.bind_eq_some_iff.mp h
    intro e he
    rcases List.mem_cons.mp he with rfl | he
    · refine runAll_keeps (P := fun db => e.Held db) (fun f hf st st' hst hrun => ?_) h₂ (Ddl.held_of_run h₁)
      obtain ⟨d', -, rfl⟩ := List.mem_map.mp hf
      exact Ddl.Held.run hst hrun
    · exact ih h₂ e he

/-- An ordered list runs to its end when the tables it takes to be there are. -/
theorem runAll_of_ordered (null : V) (db : Database V) {ds : List Ddl} {seen : List String}
    (h : Ddl.Ordered ds seen) (hseen : ∀ table ∈ seen, (db table).isSome) : ∃ db', runAll (ds.map (Ddl.run null)) db = some db' := by
  induction ds generalizing db seen with
  | nil => exact ⟨db, rfl⟩
  | cons d ds ih =>
    have hlater : ∀ {db'}, d.run null db = some db' → ∀ table ∈ seen, (db' table).isSome := by
      intro db' hrun table htable
      have hheld : (Ddl.createTable table []).Held db := by simpa [Ddl.Held, Database.columns] using hseen table htable
      simpa [Ddl.Held, Database.columns] using hheld.run hrun
    have hgo : ∀ seen', Ddl.Ordered ds seen' → d.Takes db → (∀ db', d.run null db = some db' → ∀ t ∈ seen', (db' t).isSome) →
        ∃ db', runAll ((d :: ds).map (Ddl.run null)) db = some db' := by
      intro seen' hordered htakes hseen'
      obtain ⟨db', hdb'⟩ := ih _ hordered (hseen' _ (Ddl.run_eq htakes))
      exact ⟨db', by rw [List.map_cons, runAll_cons, Ddl.run_eq htakes, Option.bind_some, hdb']⟩
    cases d with
    | createTable table columns =>
      refine hgo (table :: seen) h trivial fun db' hrun t ht => ?_
      rcases List.mem_cons.mp ht with rfl | ht
      · simpa [Ddl.Held, Database.columns] using Ddl.held_of_run hrun
      · exact hlater hrun t ht
    | addColumn table column => exact hgo _ h.2 (hseen table h.1) fun db' hrun => hlater hrun
    | derived => exact hgo _ h trivial fun db' hrun => hlater hrun

theorem Shaped.congr (h : Shaped ds db) (hcolumns : db'.columns = db.columns) : Shaped ds db' := by
  unfold Shaped
  rw [hcolumns]
  exact h

theorem Shaped.update {name : String} {T : Table V} (h : Shaped ds db) (hfits : Fits ds name T.columns) :
    Shaped ds (Function.update db name (some T)) := by
  intro x columns hcolumns
  by_cases hx : x = name
  · subst hx
    obtain rfl : T.columns = columns := by simpa [Database.columns] using hcolumns
    exact hfits
  · exact h x columns (by simpa [Database.columns, hx] using hcolumns)

/-- A table that nothing declares is not there. -/
theorem Shaped.eq_none {name : String} (h : Shaped ds db) (hcreated : Ddl.created ds name = none) : db name = none := by
  cases hname : db name with
  | none => rfl
  | some T =>
    have hknown := (h name T.columns (Database.columns_eq_some.mpr ⟨T, hname, rfl⟩)).known
    simp [hcreated] at hknown

theorem Ddl.Held.congr (h : d.Held db) (hcolumns : db'.columns = db.columns) : d.Held db' := by
  cases d <;> simpa only [Held, hcolumns] using h

/-- A table that is replaced by one with the same columns. -/
theorem Database.columns_update {name : String} {T T' : Table V} (hT : db name = some T) (hcolumns : T'.columns = T.columns) :
    Database.columns (Function.update db name (some T')) = db.columns := by
  funext x
  by_cases hx : x = name
  · subst hx
    simp [columns, hT, hcolumns]
  · simp [columns, hx]

/-- A list keeps the shape it gives (one statement). -/
theorem Shaped.run (hmem : d ∈ ds) (hsound : d.Sound ds) (h : Shaped ds db) (hrun : d.run null db = some db') : Shaped ds db' := by
  intro name columns hcolumns
  cases hbefore : db.columns name with
  | none =>
    obtain ⟨-, rfl⟩ := Ddl.of_run hrun
    obtain ⟨T, hT, rfl⟩ := Database.columns_eq_some.mp hcolumns
    have hnone : db name = none := by simpa [Database.columns] using hbefore
    rw [hnone] at hT
    obtain ⟨columns, rfl, rfl⟩ := Ddl.on_none hT
    obtain ⟨hcreated, hdistinct, hrequired⟩ := hsound
    refine ⟨by simp [hcreated], hdistinct, hrequired, fun c hc => ?_⟩
    exact List.mem_append_left _ (by simpa [hcreated] using hc)
  | some before =>
    have hfits := h name before hbefore
    rcases Ddl.columns_of_run hrun hbefore with hsame | ⟨column, rfl, hnew, hmore⟩
    · obtain rfl : before = columns := Option.some.inj (hsame.symm.trans hcolumns)
      exact hfits
    · obtain rfl : before ++ [column] = columns := Option.some.inj (hmore.symm.trans hcolumns)
      have hadded : column ∈ Ddl.added ds name := List.mem_filterMap.mpr ⟨_, hmem, by simp⟩
      refine ⟨hfits.known, ?_, hfits.required.trans (List.prefix_append _ _), ?_⟩
      · exact List.nodup_append.mpr ⟨hfits.distinct, List.nodup_singleton _, by
          intro a ha b hb
          rw [List.mem_singleton.mp hb]
          exact fun heq => hnew (heq ▸ ha)⟩
      · refine List.append_subset.mpr ⟨hfits.declared, fun c hc => ?_⟩
        rw [List.mem_singleton.mp hc]
        exact List.mem_append_right _ hadded

theorem Shaped.runAll {es : List Ddl} (hsub : ∀ e ∈ es, e ∈ ds ∧ e.Sound ds) (h : Shaped ds db)
    (hrun : runAll (es.map (Ddl.run null)) db = some db') : Shaped ds db' := by
  refine runAll_keeps (fun f hf st st' hst hrun => ?_) hrun h
  obtain ⟨e, he, rfl⟩ := List.mem_map.mp hf
  exact hst.run (hsub e he).1 (hsub e he).2 hrun

/-- The tables a list of statements declares, each with its set of columns. -/
def Ddl.schema (ds : List Ddl) (name : String) : Option (Finset String) := (created ds name).map fun _ => (declared ds name).toFinset

theorem Ddl.exists_createTable {name : String} {columns : List String} (h : created ds name = some columns) :
    .createTable name columns ∈ ds := by
  obtain ⟨d, hd, hcreates⟩ := List.exists_of_findSome?_eq_some h
  cases d with
  | createTable table columns' =>
    obtain ⟨rfl, rfl⟩ : table = name ∧ columns' = columns := by simpa using hcreates
    exact hd
  | addColumn => simp at hcreates
  | derived => simp at hcreates

theorem Ddl.mem_added {name column : String} : column ∈ added ds name ↔ .addColumn name column ∈ ds := by
  unfold added
  rw [List.mem_filterMap]
  constructor
  · rintro ⟨d, hd, hadds⟩
    cases d with
    | addColumn table column' =>
      obtain ⟨rfl, rfl⟩ : table = name ∧ column' = column := by simpa using hadds
      exact hd
    | createTable => simp at hadds
    | derived => simp at hadds
  · exact fun h => ⟨_, h, by simp⟩

/-- A database of that shape that holds every statement has exactly what the list declares. -/
theorem Shaped.complete (h : Shaped ds db) (hheld : ∀ d ∈ ds, d.Held db) : db.columnSet = Ddl.schema ds := by
  funext name
  unfold Database.columnSet Ddl.schema
  cases hcreated : Ddl.created ds name with
  | none =>
    cases hcolumns : db.columns name with
    | none => rfl
    | some columns =>
      have hknown := (h name columns hcolumns).known
      simp [hcreated] at hknown
  | some created =>
    have hexists : (db.columns name).isSome := hheld _ (Ddl.exists_createTable hcreated)
    obtain ⟨columns, hcolumns⟩ := Option.isSome_iff_exists.mp hexists
    have hfits := h name columns hcolumns
    have hadded : ∀ c ∈ Ddl.added ds name, c ∈ columns := by
      intro c hc
      obtain ⟨columns', hcolumns', hmem⟩ := hheld _ (Ddl.mem_added.mp hc)
      rwa [Option.some.inj (hcolumns'.symm.trans hcolumns)] at hmem
    rw [hcolumns]
    refine congrArg some (Finset.Subset.antisymm (fun c hc => ?_) fun c hc => ?_)
    · exact List.mem_toFinset.mpr (hfits.declared (List.mem_toFinset.mp hc))
    · rw [List.mem_toFinset] at hc ⊢
      rcases List.mem_append.mp hc with hc | hc
      · by_cases hin : c ∈ Ddl.added ds name
        · exact hadded c hin
        · exact hfits.required.subset (List.mem_filter.mpr ⟨hc, by simpa using hin⟩)
      · exact hadded c hc

/-- A table to which nothing is added has the columns it is created with. -/
theorem Fits.columns_eq {name : String} {columns created : List String} (h : Fits ds name columns)
    (hcreated : Ddl.created ds name = some created) (hadded : Ddl.added ds name = []) : columns = created := by
  have hprefix : created <+: columns := by simpa [Ddl.required, hcreated, hadded] using h.required
  have hsub : columns ⊆ created := by simpa [Ddl.declared, hcreated, hadded] using h.declared
  obtain ⟨rest, rfl⟩ := hprefix
  cases rest with
  | nil => simp
  | cons c rest =>
    have hc : c ∈ created := hsub (by simp)
    exact absurd rfl ((List.nodup_append.mp h.distinct).2.2 c hc c List.mem_cons_self)

/-! ## What becomes of the rows -/

/-- The old rows are there in their order, longer by the columns that were added; the rows after them have other keys. -/
def Kept (null : V) (K : V → Prop) (T₀ T : Table V) : Prop :=
  ∃ more added, T.columns = T₀.columns ++ more ∧ T.rows = T₀.rows.map (· ++ List.replicate more.length null) ++ added ∧
    ∀ row ∈ added, K (row.headD null)

namespace Kept

variable {K : V → Prop} {T₀ T : Table V}

theorem refl (T : Table V) : Kept null K T T := ⟨[], [], by simp, by simp, fun _ h => absurd h List.not_mem_nil⟩

theorem pad (h : Kept null K T₀ T) (column : String) : Kept null K T₀ (T.pad null column) := by
  obtain ⟨more, added, hcolumns, hrows, hkeys⟩ := h
  refine ⟨more ++ [column], added.map (· ++ [null]), by simp [hcolumns], ?_, fun row hrow => ?_⟩
  · simp [hrows, List.replicate_succ', Function.comp_def]
  · obtain ⟨o, ho, rfl⟩ := List.mem_map.mp hrow
    have hkey := hkeys o ho
    cases o <;> exact hkey

theorem insert (h : Kept null K T₀ T) {row : List V} (hwidth : row.length = T.columns.length) (hkey : K (row.headD null)) :
    Kept null K T₀ (T.insert row hwidth) := by
  obtain ⟨more, added, hcolumns, hrows, hkeys⟩ := h
  refine ⟨more, added ++ [row], by simp [hcolumns], by simp [hrows], fun r hr => ?_⟩
  rcases List.mem_append.mp hr with hr | hr
  · exact hkeys r hr
  · rw [List.mem_singleton.mp hr]
    exact hkey

theorem on (h : Kept null K T₀ T) (name : String) (d : Ddl) : ∃ T', d.on null name (some T) = some T' ∧ Kept null K T₀ T' := by
  obtain ⟨T', hT', hcases⟩ := Ddl.on_some null name d T
  refine ⟨T', hT', ?_⟩
  rcases hcases with rfl | ⟨column, -, -, rfl⟩
  · exact h
  · exact h.pad column

theorem prefix_columns (h : Kept null K T₀ T) : T₀.columns <+: T.columns := by
  obtain ⟨more, -, hcolumns, -⟩ := h
  exact ⟨more, hcolumns.symm⟩

/-- A row is there as often as before, with its values, when no key that was added is a key the table had. -/
theorem count_eq [DecidableEq V] (h : Kept null K T₀ T) (hne : T₀.columns ≠ []) (hfresh : ∀ row ∈ T₀.rows, ¬ K (row.headD null))
    {row : List V} (hrow : row ∈ T₀.rows) : (T.rows.map (·.take T₀.columns.length)).count row = T₀.rows.count row := by
  obtain ⟨more, added, -, hrows, hkeys⟩ := h
  have hold : (T₀.rows.map (· ++ List.replicate more.length null)).map (·.take T₀.columns.length) = T₀.rows := by
    rw [List.map_map]
    refine (List.map_congr_left fun r hr => ?_).trans (List.map_id _)
    simp [← T₀.width r hr]
  have hnew : (added.map (·.take T₀.columns.length)).count row = 0 := by
    refine List.count_eq_zero.mpr fun hmem => ?_
    obtain ⟨a, ha, rfl⟩ := List.mem_map.mp hmem
    refine hfresh _ hrow ?_
    have hkey := hkeys a ha
    obtain ⟨c, cs, hcs⟩ := List.exists_cons_of_ne_nil hne
    cases a <;> simpa [hcs] using hkey
  rw [hrows, List.map_append, List.count_append, hold, hnew, Nat.add_zero]

end Kept

/-! ## Rebuilding a table -/

/-- `CREATE TABLE` of a table that must not be there. -/
def createNew (name : String) (columns : List String) (db : Database V) : Option (Database V) :=
  if (db name).isSome then none else some (Function.update db name (some (.empty columns)))

/-- `INSERT INTO target SELECT columns FROM source`; without columns, `SELECT *`. -/
def insertSelect (null : V) (target source : String) (columns : Option (List String)) (db : Database V) : Option (Database V) := do
  let S ← db source
  let T ← db target
  let names := columns.getD S.columns
  if h : (∀ c ∈ names, c ∈ S.columns) ∧ names.length = T.columns.length then
    some (Function.update db target (some {
      columns := T.columns
      rows := T.rows ++ S.rows.map fun row => names.map fun c => (S.value? row c).getD null
      width := by
        intro row hrow
        rcases List.mem_append.mp hrow with hrow | hrow
        · exact T.width row hrow
        · obtain ⟨o, -, rfl⟩ := List.mem_map.mp hrow
          rw [List.length_map, h.2] }))
  else none

/-- `DROP TABLE`. -/
def dropTable (name : String) (db : Database V) : Option (Database V) :=
  if (db name).isSome then some (Function.update db name none) else none

/-- `ALTER TABLE … RENAME TO`. -/
def renameTable (name name' : String) (db : Database V) : Option (Database V) :=
  if (db name).isSome ∧ db name' = none then some (Function.update (Function.update db name none) name' (db name)) else none

/-- Copy a table's rows into a new one, which then takes its place. -/
def rebuild (null : V) (name copy : String) (columns : List String) (selected : Option (List String)) (db : Database V) :
    Option (Database V) := do
  let db ← createNew copy columns db
  let db ← insertSelect null copy name selected db
  let db ← dropTable name db
  renameTable copy name db

theorem insertSelect_eq {target source : String} {columns : Option (List String)} {S T : Table V} (hS : db source = some S)
    (hT : db target = some T) (hnames : ∀ c ∈ columns.getD S.columns, c ∈ S.columns)
    (hlength : (columns.getD S.columns).length = T.columns.length) :
    ∃ T', insertSelect null target source columns db = some (Function.update db target (some T')) ∧ T'.columns = T.columns ∧
      T'.rows = T.rows ++ S.rows.map fun row => (columns.getD S.columns).map fun c => (S.value? row c).getD null := by
  unfold insertSelect
  rw [hS, hT]
  simp only [Option.bind_eq_bind, Option.bind_some]
  rw [dif_pos ⟨hnames, hlength⟩]
  exact ⟨_, rfl, rfl, rfl⟩

/-- What a rebuild leaves: the table with the new columns, and everything else as it was. -/
theorem rebuild_eq {name copy : String} {columns : List String} {selected : Option (List String)} {S : Table V} (hne : copy ≠ name)
    (hcopy : db copy = none) (hS : db name = some S) (hnames : ∀ c ∈ selected.getD S.columns, c ∈ S.columns)
    (hlength : (selected.getD S.columns).length = columns.length) :
    ∃ T, rebuild null name copy columns selected db = some (Function.update db name (some T)) ∧ T.columns = columns ∧
      T.rows = S.rows.map fun row => (selected.getD S.columns).map fun c => (S.value? row c).getD null := by
  have hcreate : createNew copy columns db = some (Function.update db copy (some (.empty columns))) := by simp [createNew, hcopy]
  have hS' : Function.update db copy (some (.empty columns)) name = some S := by rw [Function.update_of_ne hne.symm, hS]
  obtain ⟨T, hinsert, hcolumns, hrows⟩ := insertSelect_eq hS' (Function.update_self copy _ db) hnames hlength
  rw [Function.update_idem] at hinsert
  have hdrop : dropTable name (Function.update db copy (some T)) =
      some (Function.update (Function.update db copy (some T)) name none) := by
    simp [dropTable, Function.update_of_ne hne.symm, hS]
  refine ⟨T, ?_, hcolumns, by simpa using hrows⟩
  simp only [rebuild, hcreate, hinsert, hdrop, Option.bind_eq_bind, Option.bind_some, renameTable, Function.update_of_ne hne,
    Function.update_self, Option.isSome_some, and_self, if_true]
  refine congrArg some (funext fun x => ?_)
  by_cases hx : x = name
  · subst hx
    simp
  · by_cases hx' : x = copy
    · subst hx'
      simp [hx, hcopy]
    · simp [hx, hx']

/-- Inversion: a rebuild that was not rejected found the table, and left it with the new columns. -/
theorem rebuild_some {name copy : String} {columns : List String} {selected : Option (List String)} (hne : copy ≠ name)
    (h : rebuild null name copy columns selected db = some db') :
    ∃ S T, db name = some S ∧ db' = Function.update db name (some T) ∧ T.columns = columns := by
  obtain ⟨db₁, hcreate, hrest⟩ := Option.bind_eq_some_iff.mp h
  obtain ⟨db₂, hinsert, -⟩ := Option.bind_eq_some_iff.mp hrest
  unfold createNew at hcreate
  split at hcreate
  · cases hcreate
  next hcopy =>
  obtain rfl := Option.some.inj hcreate
  obtain ⟨S, hS, hinsert⟩ := Option.bind_eq_some_iff.mp hinsert
  rw [Function.update_of_ne hne.symm] at hS
  rw [Function.update_self, Option.bind_eq_bind, Option.bind_some] at hinsert
  dsimp only at hinsert
  split at hinsert
  · next hnames =>
    obtain ⟨T, heq, hcolumns, -⟩ : ∃ T, rebuild null name copy columns selected db = some (Function.update db name (some T)) ∧
        T.columns = columns ∧ _ := rebuild_eq hne (by simpa using hcopy) hS hnames.1 hnames.2
    exact ⟨S, T, hS, Option.some.inj (h.symm.trans heq), hcolumns⟩
  · cases hinsert

/-- A row selected by its own columns is the row. -/
theorem Table.select_columns (null : V) (T : Table V) (hdistinct : T.columns.Nodup) {row : List V} (hrow : row ∈ T.rows) :
    (T.columns.map fun c => (T.value? row c).getD null) = row := by
  have hwidth := T.width row hrow
  refine List.ext_getElem (by simp [hwidth]) fun i hi hi' => ?_
  have hcol : i < T.columns.length := by simpa using hi
  simp [Table.value?, hdistinct.idxOf_getElem i hcol, hi']

/-- A rebuild into the columns that are there changes nothing. -/
theorem rebuild_self {name copy : String} {S : Table V} (hne : copy ≠ name) (hcopy : db copy = none) (hS : db name = some S)
    (hdistinct : S.columns.Nodup) : rebuild null name copy S.columns none db = some db := by
  obtain ⟨T, hrebuild, hcolumns, hrows⟩ : ∃ T, rebuild null name copy S.columns none db = some (Function.update db name (some T)) ∧
      T.columns = S.columns ∧ T.rows = S.rows.map fun row => S.columns.map fun c => (S.value? row c).getD null :=
    rebuild_eq hne hcopy hS (fun c hc => hc) rfl
  have hT : T = S := by
    refine Table.ext hcolumns (hrows.trans ?_)
    exact (List.map_congr_left fun row hrow => S.select_columns null hdistinct hrow).trans (List.map_id _)
  rw [hrebuild, hT, ← hS, Function.update_eq_self]

end Tables
