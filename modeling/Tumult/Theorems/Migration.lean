import Tumult.Lake.Schema

/-!
# What a migration leaves

An open whose migration is not interrupted brings the columns to those of a fresh store, records the current version, and keeps
every row, from any store recorded at an earlier version and after any number of interrupted opens: except at version 4, whose
rebuild drops the columns just added, and when an open before version 6 is interrupted behind the row of the backfill identity,
which the next one inserts again. An article row that differs from the registry is refreshed.

The migration is the script of the recorded version (`migrate_eq_script`): an interrupted open leaves what a part of the script
does.
-/

namespace Tumult

namespace Schema

open Tables (Ddl Table Database Shaped Kept rebuild)
open Db (runAll runAll_keeps executeAll)

/-! ## The declarations -/

theorem plainTables_added {name : String} (h : name ∈ plainTables.map (·.1)) : Ddl.added declarations name = [] := by
  obtain ⟨e, he, rfl⟩ := List.mem_map.mp h
  exact (wellDeclared.plain e he).2

theorem plainTables_columns {name : String} {columns columns' : List String} (h : (name, columns) ∈ plainTables)
    (hfits : Tables.Fits declarations name columns') : columns' = columns :=
  hfits.columns_eq (wellDeclared.plain _ h).1 (wellDeclared.plain _ h).2

theorem mem_declarations_of_create {d : Ddl} (h : d ∈ createTables) : d ∈ declarations := List.mem_append_left _ h

theorem mem_declarations_of_graph {d : Ddl} (h : d ∈ graphTables) : d ∈ declarations := List.mem_append_right _ h

/-! ## The measures -/

/-- How often the backfill identity is there. -/
def legacyUsers (db : Store) : Nat := (db "users").elim 0 fun T => T.rows.countP fun row => key row = .varchar "legacy"

/-- The rows of the articles are those of the registry. -/
def ArticlesCurrent (db : Store) : Prop :=
  ∀ T, db "graph_nodes" = some T → ∀ row ∈ T.rows, ∀ node ∈ complianceArticleNodes, key row = .varchar node.id → row = node.row

/-- The keys of the rows that a migration may add to a table. -/
def Seeded (db₀ : Store) (stored : Option Int) (name : String) (k : Value) : Prop :=
  (name = "users" ∧ stored.any (· < 6) ∧ k = .varchar "legacy") ∨
    (name = "graph_nodes" ∧ (∃ node ∈ complianceArticleNodes, k = .varchar node.id) ∧
      ∀ T, db₀ "graph_nodes" = some T → ∀ row ∈ T.rows, key row ≠ k)

/-- The rows of a store are there, and the articles are those of the registry. -/
structure Keeping (db₀ : Store) (stored : Option Int) (db : Store) : Prop where
  kept : ∀ name T₀, db₀ name = some T₀ → ∃ T, db name = some T ∧ Kept .null (Seeded db₀ stored name) T₀ T
  articles : ArticlesCurrent db

/-- How far a migration has come that started from a store: its shape, the version it goes by, how often it added the backfill
identity, and, where nothing is dropped or refreshed, the rows. -/
structure Stage (db₀ : Store) (stored : Option Int) (inserted : Nat) (db : Store) : Prop where
  shaped : Shaped declarations db
  recorded : storedVersion db = stored
  legacy : legacyUsers db = legacyUsers db₀ + inserted
  keeping : stored ≠ some 4 → ArticlesCurrent db₀ → Keeping db₀ stored db

variable {db₀ db db' : Store} {stored : Option Int} {inserted : Nat}

theorem Stage.start (hshaped : Shaped declarations db) (hrecorded : storedVersion db = stored) : Stage db stored 0 db :=
  ⟨hshaped, hrecorded, rfl, fun _ h => ⟨fun _ T₀ hT₀ => ⟨T₀, hT₀, .refl T₀⟩, h⟩⟩

/-! ## One statement -/

/-- A table to which nothing is declared to be added stays as it is, or is created. -/
theorem run_fixed {d : Ddl} (name : String) (hd : d ∈ declarations) (hadded : Ddl.added declarations name = [])
    (hrun : d.run .null db = some db') : db' name = db name ∨ db name = none ∧ ∃ columns, db' name = some (.empty columns) := by
  rw [Ddl.run_apply hrun]
  cases hname : db name with
  | none =>
    cases hon : d.on Value.null name none with
    | none => exact .inl rfl
    | some T =>
      obtain ⟨columns, -, rfl⟩ := Ddl.on_none hon
      exact .inr ⟨rfl, columns, rfl⟩
  | some T =>
    obtain ⟨T', hT', rfl | ⟨column, rfl, -, -⟩⟩ := Ddl.on_some Value.null name d T
    · exact .inl hT'
    · have hmem := Ddl.mem_added.mpr hd
      rw [hadded] at hmem
      exact absurd hmem List.not_mem_nil

theorem Stage.ddl {d : Ddl} (h : Stage db₀ stored inserted db) (hd : d ∈ declarations) (hrun : d.run .null db = some db') :
    Stage db₀ stored inserted db' := by
  refine ⟨h.shaped.run hd (wellDeclared.sound d hd) hrun, ?_, ?_, fun hstored harticles => ⟨fun name T₀ hT₀ => ?_, ?_⟩⟩
  · rw [← h.recorded]
    rcases run_fixed "schema_meta" hd (plainTables_added (by simp [plainTables])) hrun with heq | ⟨hnone, columns, hnew⟩
    · simp [storedVersion, heq]
    · simp [storedVersion, hnone, hnew]
  · rw [← h.legacy]
    rcases run_fixed "users" hd (plainTables_added (by simp [plainTables])) hrun with heq | ⟨hnone, columns, hnew⟩
    · simp [legacyUsers, heq]
    · simp [legacyUsers, hnone, hnew]
  · obtain ⟨T, hT, hkept⟩ := (h.keeping hstored harticles).kept name T₀ hT₀
    obtain ⟨T', hT', hkept'⟩ := hkept.on name d
    exact ⟨T', by rw [Ddl.run_apply hrun, hT, hT'], hkept'⟩
  · intro T hT row hrow
    rcases run_fixed "graph_nodes" hd (plainTables_added (by simp [plainTables])) hrun with heq | ⟨-, columns, hnew⟩
    · exact (h.keeping hstored harticles).articles T (heq ▸ hT) row hrow
    · obtain rfl : T = .empty columns := Option.some.inj (hT.symm.trans hnew)
      exact absurd hrow List.not_mem_nil

theorem insertRow_some {table : String} {row : List Value} (h : insertRow table row db = some db') :
    ∃ T hwidth, db table = some T ∧ db' = Function.update db table (some (T.insert row hwidth)) := by
  obtain ⟨T, hT, h⟩ := Option.bind_eq_some_iff.mp h
  split at h
  · next hwidth => exact ⟨T, hwidth, hT, (Option.some.inj h).symm⟩
  · cases h

theorem insertRow_run {table : String} {row : List Value} {T : Table Value} (hT : db table = some T)
    (hwidth : row.length = T.columns.length) : insertRow table row db = some (Function.update db table (some (T.insert row hwidth))) := by
  simp [insertRow, hT, hwidth]

theorem Stage.insertLegacyUser (hstored : stored.any (· < 6)) (h : Stage db₀ stored inserted db)
    (hrun : Schema.insertLegacyUser db = some db') : Stage db₀ stored (inserted + 1) db' := by
  obtain ⟨T, hwidth, hT, rfl⟩ := insertRow_some hrun
  refine ⟨h.shaped.congr (Database.columns_update hT rfl), ?_, ?_, fun hne harticles => ⟨fun name T₀ hT₀ => ?_, ?_⟩⟩
  · rw [← h.recorded]
    simp [storedVersion]
  · have hlegacy : T.rows.countP (fun row => key row = .varchar "legacy") = legacyUsers db₀ + inserted := by
      rw [← h.legacy, legacyUsers, hT]
      rfl
    simp only [legacyUsers, Function.update_self, Option.elim_some, Table.insert_rows, List.countP_append, hlegacy]
    rfl
  · obtain ⟨T', hT', hkept⟩ := (h.keeping hne harticles).kept name T₀ hT₀
    by_cases hname : name = "users"
    · subst hname
      obtain rfl : T = T' := Option.some.inj (hT.symm.trans hT')
      exact ⟨_, Function.update_self _ _ _, hkept.insert hwidth (.inl ⟨rfl, hstored, rfl⟩)⟩
    · exact ⟨T', by rw [Function.update_of_ne hname, hT'], hkept⟩
  · exact fun T' hT' => (h.keeping hne harticles).articles T' (by rwa [Function.update_of_ne (by decide)] at hT')

/-- Inversion: an upsert leaves the rows of other nodes, and the node. -/
theorem upsertNode_some {node : ArticleNode} (h : upsertNode node db = some db') :
    ∃ T T', db "graph_nodes" = some T ∧ T'.columns = T.columns ∧ T.columns = ["id", "kind", "label", "attrs"] ∧
      db' = Function.update db "graph_nodes" (some T') ∧
      ((∃ row ∈ T.rows, key row = .varchar node.id) ∧ T'.rows = T.rows.map (fun row => if key row = .varchar node.id then node.row else row) ∨
        (∀ row ∈ T.rows, key row ≠ .varchar node.id) ∧ ∃ hwidth, T' = T.insert node.row hwidth) := by
  obtain ⟨T, hT, h⟩ := Option.bind_eq_some_iff.mp h
  split at h
  · next hcolumns =>
    split at h
    · next hany =>
      obtain ⟨row, hrow, hkey⟩ := List.any_eq_true.mp hany
      exact ⟨T, T.mapRows _ _, hT, rfl, hcolumns, (Option.some.inj h).symm, .inl ⟨⟨row, hrow, by simpa using hkey⟩, rfl⟩⟩
    · next hany =>
      obtain ⟨T', hwidth, hT', rfl⟩ := insertRow_some h
      obtain rfl : T = T' := Option.some.inj (hT.symm.trans hT')
      exact ⟨T, T.insert _ hwidth, hT, rfl, hcolumns, rfl, .inr ⟨by simpa using hany, hwidth, rfl⟩⟩
  · cases h

theorem key_row (node : ArticleNode) : key node.row = .varchar node.id := rfl

/-- What a table holds after an upsert. -/
theorem mem_upsertNode {node : ArticleNode} {T T' : Table Value}
    (h : (∃ row ∈ T.rows, key row = .varchar node.id) ∧ T'.rows = T.rows.map (fun row => if key row = .varchar node.id then node.row else row) ∨
      (∀ row ∈ T.rows, key row ≠ .varchar node.id) ∧ ∃ hwidth, T' = T.insert node.row hwidth) (row : List Value) :
    row ∈ T'.rows ↔ row = node.row ∨ row ∈ T.rows ∧ key row ≠ .varchar node.id := by
  rcases h with ⟨⟨o, ho, hkey⟩, hrows⟩ | ⟨hfresh, hwidth, rfl⟩
  · rw [hrows, List.mem_map]
    constructor
    · rintro ⟨r, hr, rfl⟩
      by_cases hk : key r = .varchar node.id
      · exact .inl (if_pos hk)
      · exact .inr (by simpa [hk] using hr)
    · rintro (rfl | ⟨hr, hk⟩)
      · exact ⟨o, ho, if_pos hkey⟩
      · exact ⟨row, hr, if_neg hk⟩
  · rw [Table.insert_rows, List.mem_append, List.mem_singleton, or_comm]
    exact or_congr_right ⟨fun hr => ⟨hr, hfresh row hr⟩, And.left⟩

theorem Stage.upsertNode {node : ArticleNode} (hnode : node ∈ complianceArticleNodes) (h : Stage db₀ stored inserted db)
    (hrun : Schema.upsertNode node db = some db') : Stage db₀ stored inserted db' := by
  obtain ⟨T, T', hT, hcolumns, -, rfl, hrows⟩ := upsertNode_some hrun
  refine ⟨h.shaped.congr (Database.columns_update hT hcolumns), ?_, ?_, fun hne harticles => ⟨fun name T₀ hT₀ => ?_, ?_⟩⟩
  · rw [← h.recorded]
    simp [storedVersion]
  · rw [← h.legacy]
    simp [legacyUsers]
  · obtain ⟨T₁, hT₁, hkept⟩ := (h.keeping hne harticles).kept name T₀ hT₀
    by_cases hname : name = "graph_nodes"
    · subst hname
      obtain rfl : T = T₁ := Option.some.inj (hT.symm.trans hT₁)
      refine ⟨T', Function.update_self _ _ _, ?_⟩
      rcases hrows with ⟨-, hsame⟩ | ⟨hfresh, hwidth, rfl⟩
      · have hT' : T' = T := by
          refine Table.ext hcolumns (hsame.trans ((List.map_congr_left fun row hrow => ?_).trans (List.map_id _)))
          split
          · next hk => exact ((h.keeping hne harticles).articles T hT row hrow node hnode hk).symm
          · rfl
        rw [hT']
        exact hkept
      · refine hkept.insert hwidth (.inr ⟨rfl, ⟨node, hnode, rfl⟩, fun T₂ hT₂ row hrow hk => ?_⟩)
        obtain rfl : T₀ = T₂ := Option.some.inj (hT₀.symm.trans hT₂)
        obtain ⟨more, added, -, hrows, -⟩ := hkept
        refine hfresh (row ++ List.replicate more.length .null) ?_ ?_
        · rw [hrows]
          exact List.mem_append_left _ (List.mem_map.mpr ⟨row, hrow, rfl⟩)
        · cases row with
          | nil => cases hk
          | cons v row => exact hk
    · exact ⟨T₁, by rw [Function.update_of_ne hname, hT₁], hkept⟩
  · intro T₁ hT₁ row hrow node' hnode' hk
    obtain rfl : T' = T₁ := by simpa using hT₁
    rcases (mem_upsertNode hrows row).mp hrow with rfl | ⟨hrow, -⟩
    · have hid : node'.id = node.id := by simpa [key_row] using hk.symm
      exact (congrArg ArticleNode.row (List.inj_on_of_nodup_map wellDeclared.articles_distinct hnode' hnode hid)).symm
    · exact (h.keeping hne harticles).articles T hT row hrow node' hnode' hk

/-- The columns of a table that is there are among those it may have. -/
theorem Stage.fits {name : String} {T : Table Value} (h : Stage db₀ stored inserted db) (hT : db name = some T) :
    Tables.Fits declarations name T.columns := h.shaped name T.columns (Database.columns_eq_some.mpr ⟨T, hT, rfl⟩)

theorem migrateV8_of_source {S : Table Value} (h : Stage db₀ stored inserted db) (hS : db "manual_experiments" = some S) :
    migrateV8ManualExperimentsIndexFree db = some db := by
  have hfits := h.fits hS
  have hcolumns : S.columns = manualExperimentsV8 := plainTables_columns (by simp [plainTables]) hfits
  have hcopy : db "manual_experiments_v8" = none := h.shaped.eq_none (wellDeclared.copies _ (by simp))
  have hself : rebuild Value.null "manual_experiments" "manual_experiments_v8" S.columns none db = some db :=
    Tables.rebuild_self (by decide) hcopy hS hfits.distinct
  rwa [hcolumns] at hself

/-- The v5 rebuild leaves the run tables with the columns they had before anything was added. -/
theorem Stage.migrateV5 (hstored : stored = some 4) (h : Stage db₀ stored inserted db)
    (hrun : migrateV5RunTablesIndexFree db = some db') : Stage db₀ stored inserted db' ∧ db'.columns "runs" = some runsV5 := by
  obtain ⟨db₁, hfirst, hsecond⟩ := Option.bind_eq_some_iff.mp hrun
  obtain ⟨-, T, -, rfl, hT⟩ := Tables.rebuild_some (by decide) hfirst
  obtain ⟨-, T', -, rfl, hT'⟩ := Tables.rebuild_some (by decide) hsecond
  refine ⟨⟨(h.shaped.update (hT ▸ wellDeclared.fits_runsV5)).update (hT' ▸ wellDeclared.fits_runRegistryV5), ?_, ?_, fun hne => absurd hstored hne⟩, ?_⟩
  · rw [← h.recorded]
    simp [storedVersion]
  · rw [← h.legacy]
    simp [legacyUsers]
  · simp [Database.columns, hT]

theorem Stage.migrateV8 (h : Stage db₀ stored inserted db) (hrun : migrateV8ManualExperimentsIndexFree db = some db') : db' = db := by
  obtain ⟨S, -, hS, -, -⟩ := Tables.rebuild_some (by decide) hrun
  exact Option.some.inj (hrun.symm.trans (migrateV8_of_source h hS))

theorem Stage.rebuilds {f : Statement} (hf : f ∈ Schema.rebuilds stored) (h : Stage db₀ stored inserted db) (hrun : f db = some db') :
    Stage db₀ stored inserted db' := by
  rcases List.mem_append.mp hf with hf | hf
  · split at hf
    · next hstored =>
      obtain rfl := List.mem_singleton.mp hf
      exact (h.migrateV5 hstored hrun).1
    · exact absurd hf List.not_mem_nil
  · split at hf
    · obtain rfl := List.mem_singleton.mp hf
      rw [h.migrateV8 hrun]
      exact h
    · exact absurd hf List.not_mem_nil

/-! ## The script of a version -/

/-- The statements before the row of the backfill identity. -/
def beforeSeed (stored : Option Int) : List Statement := createTables.map (Ddl.run .null) ++ (some :: rebuilds stored)

/-- The statements between the row of the backfill identity and the version. -/
def afterSeed : List Statement := graphTables.map (Ddl.run .null) ++ (complianceArticleNodes.map upsertNode ++ [some])

/-- What a migration executes from a store that is recorded at a version; a query changes nothing. -/
def script (stored : Option Int) : List Statement := beforeSeed stored ++ (seeds stored ++ (afterSeed ++ recordVersion stored))

theorem Stage.beforeSeed {f : Statement} (hf : f ∈ Schema.beforeSeed stored) (h : Stage db₀ stored inserted db) (hrun : f db = some db') :
    Stage db₀ stored inserted db' := by
  rcases List.mem_append.mp hf with hf | hf
  · obtain ⟨d, hd, rfl⟩ := List.mem_map.mp hf
    exact h.ddl (mem_declarations_of_create hd) hrun
  rcases List.mem_cons.mp hf with rfl | hf
  · obtain rfl := Option.some.inj hrun
    exact h
  · exact h.rebuilds hf hrun

theorem Stage.afterSeed {f : Statement} (hf : f ∈ Schema.afterSeed) (h : Stage db₀ stored inserted db) (hrun : f db = some db') :
    Stage db₀ stored inserted db' := by
  rcases List.mem_append.mp hf with hf | hf
  · obtain ⟨d, hd, rfl⟩ := List.mem_map.mp hf
    exact h.ddl (mem_declarations_of_graph hd) hrun
  rcases List.mem_append.mp hf with hf | hf
  · obtain ⟨node, hnode, rfl⟩ := List.mem_map.mp hf
    exact h.upsertNode hnode hrun
  · obtain rfl := List.mem_singleton.mp hf
    obtain rfl := Option.some.inj hrun
    exact h

theorem Stage.seeds {f : Statement} (hf : f ∈ Schema.seeds stored) (h : Stage db₀ stored inserted db) (hrun : f db = some db') :
    Stage db₀ stored (inserted + 1) db' := by
  unfold Schema.seeds at hf
  split at hf
  · next hstored =>
    obtain rfl := List.mem_singleton.mp hf
    exact h.insertLegacyUser hstored hrun
  · exact absurd hf List.not_mem_nil

/-- Some point of a migration of that version. -/
def Underway (stored : Option Int) (db : Store) : Prop := ∃ db₀ inserted, Stage db₀ stored inserted db

theorem Underway.executeAll {Γ : Db.Env} {fs : List Statement} {u : Unit} {s s' : Db.Session Store}
    (hfs : ∀ f ∈ fs, f ∈ Schema.beforeSeed stored ∨ f ∈ Schema.seeds stored ∨ f ∈ Schema.afterSeed) (h : Underway stored s.store)
    (hok : executeBatch Γ fs s = (.ok u, s')) : Underway stored s'.store := by
  refine runAll_keeps (fun f hf st st' hst hrun => ?_) (Db.executeAll_run hok) h
  obtain ⟨db₀, inserted, hst⟩ := hst
  rcases hfs f hf with hf | hf | hf
  · exact ⟨db₀, _, hst.beforeSeed hf hrun⟩
  · exact ⟨db₀, _, hst.seeds hf hrun⟩
  · exact ⟨db₀, _, hst.afterSeed hf hrun⟩

theorem execute_some {Γ : Db.Env} {u : Unit} {s s' : Db.Session Store}
    (h : Db.execute Γ MigrationError.interrupted .rejected some s = (.ok u, s')) : s'.store = s.store := by
  have hrun : executeAll Γ MigrationError.interrupted .rejected [some] s = (.ok (), s') := by
    rw [executeAll, Db.bind_of_ok h]
    rfl
  simpa using (Db.executeAll_run hrun).symm

theorem executeBatch_append (Γ : Db.Env) (fs gs : List Statement) (s : Db.Session Store) :
    executeBatch Γ (fs ++ gs) s = (executeBatch Γ fs >>= fun _ => executeBatch Γ gs) s := Db.executeAll_append s

/-- A migration is the script of the version that is recorded. -/
theorem migrate_eq_script (Γ : Db.Env) {s : Db.Session Store} (h : Underway stored s.store) :
    migrate Γ s = executeBatch Γ (script stored) s := by
  have hscript : script stored = createTables.map (Ddl.run .null) ++ (some :: (rebuilds stored ++ (seeds stored ++
      (graphTables.map (Ddl.run .null) ++ (complianceArticleNodes.map upsertNode ++ (some :: recordVersion stored)))))) := by
    simp [script, beforeSeed, afterSeed]
  have hrecorded : ∀ {db}, Underway stored db → storedVersion db = stored := fun ⟨_, _, h⟩ => h.recorded
  rw [hscript, migrate, executeBatch_append]
  refine Db.bind_congr_ok fun _ s₁ h₁ => ?_
  have hs₁ := h.executeAll (fun f hf => .inl (List.mem_append_left _ hf)) h₁
  rw [Db.query_bind Γ _ .rejected, hrecorded hs₁]
  refine Db.bind_congr_ok fun _ s₂ h₂ => ?_
  have hs₂ : Underway stored s₂.store := execute_some h₂ ▸ hs₁
  change _ = executeBatch Γ (rebuilds stored ++ _) s₂
  rw [executeBatch_append]
  refine Db.bind_congr_ok fun _ s₃ h₃ => ?_
  have hs₃ := hs₂.executeAll (fun f hf => .inl (List.mem_append_right _ (List.mem_cons_of_mem _ hf))) h₃
  rw [executeBatch_append]
  refine Db.bind_congr_ok fun _ s₄ h₄ => ?_
  have hs₄ := hs₃.executeAll (fun f hf => .inr (.inl hf)) h₄
  rw [executeBatch_append]
  refine Db.bind_congr_ok fun _ s₅ h₅ => ?_
  have hs₅ := hs₄.executeAll (fun f hf => .inr (.inr (List.mem_append_left _ hf))) h₅
  rw [executeBatch_append]
  refine Db.bind_congr_ok fun _ s₆ h₆ => ?_
  have hs₆ := hs₅.executeAll (fun f hf => .inr (.inr (List.mem_append_right _ (List.mem_append_left _ hf)))) h₆
  rw [Db.query_bind Γ _ .rejected, hrecorded hs₆]
  rfl

/-! ## The script runs to its end -/

/-- The row of an article is there, and no other row has its identifier. -/
def Seated (node : ArticleNode) (db : Store) : Prop :=
  ∃ T, db "graph_nodes" = some T ∧ T.columns = ["id", "kind", "label", "attrs"] ∧ node.row ∈ T.rows ∧
    ∀ row ∈ T.rows, key row = .varchar node.id → row = node.row

theorem seated_upsertNode {node : ArticleNode} (hrun : upsertNode node db = some db') : Seated node db' := by
  obtain ⟨T, T', -, hcolumns, hfour, rfl, hrows⟩ := upsertNode_some hrun
  refine ⟨T', Function.update_self _ _ _, hcolumns.trans hfour, (mem_upsertNode hrows _).mpr (.inl rfl), fun row hrow hk => ?_⟩
  rcases (mem_upsertNode hrows row).mp hrow with rfl | ⟨-, hne⟩
  · rfl
  · exact absurd hk hne

theorem Seated.upsertNode {node node' : ArticleNode} (hne : node.id ≠ node'.id) (h : Seated node db)
    (hrun : Schema.upsertNode node' db = some db') : Seated node db' := by
  obtain ⟨T, hT, hfour, hmem, hunique⟩ := h
  obtain ⟨T₁, T', hT₁, hcolumns, -, rfl, hrows⟩ := upsertNode_some hrun
  obtain rfl : T = T₁ := Option.some.inj (hT.symm.trans hT₁)
  refine ⟨T', Function.update_self _ _ _, hcolumns.trans hfour, (mem_upsertNode hrows _).mpr (.inr ⟨hmem, ?_⟩), fun row hrow hk => ?_⟩
  · simpa [key_row] using hne
  · rcases (mem_upsertNode hrows row).mp hrow with rfl | ⟨hrow, -⟩
    · exact absurd (by simpa [key_row] using hk.symm) hne
    · exact hunique row hrow hk

/-- An upsert of a row that is there changes nothing. -/
theorem upsertNode_of_seated {node : ArticleNode} (h : Seated node db) : upsertNode node db = some db := by
  obtain ⟨T, hT, hfour, hmem, hunique⟩ := h
  have hany : T.rows.any (fun row => key row = .varchar node.id) = true :=
    List.any_eq_true.mpr ⟨node.row, hmem, by simp [key_row]⟩
  simp only [upsertNode, hT, Option.bind_eq_bind, Option.bind_some, hfour, dite_true, hany, if_true]
  rw [Table.mapRows_eq_self, ← hT, Function.update_eq_self]
  intro row hrow
  split
  · next hk => exact (hunique row hrow hk).symm
  · rfl

theorem upsertNode_columns {node : ArticleNode} (hrun : upsertNode node db = some db') : db'.columns = db.columns := by
  obtain ⟨T, T', hT, hcolumns, -, rfl, -⟩ := upsertNode_some hrun
  exact Database.columns_update hT hcolumns

theorem upsertNode_run (node : ArticleNode) {T : Table Value} (hT : db "graph_nodes" = some T)
    (hfour : T.columns = ["id", "kind", "label", "attrs"]) : ∃ db', upsertNode node db = some db' := by
  simp only [upsertNode, hT, Option.bind_eq_bind, Option.bind_some, hfour, dite_true]
  split
  · exact ⟨_, rfl⟩
  · simp [insertRow, hT, hfour, ArticleNode.row]

/-- The upserts of distinct nodes run, and seat every node. -/
theorem upserts_run {nodes : List ArticleNode} (hdistinct : (nodes.map (·.id)).Nodup) {T : Table Value}
    (hT : db "graph_nodes" = some T) (hfour : T.columns = ["id", "kind", "label", "attrs"]) :
    ∃ db', runAll (nodes.map upsertNode) db = some db' ∧ db'.columns = db.columns ∧ ∀ node ∈ nodes, Seated node db' := by
  induction nodes generalizing db T with
  | nil => exact ⟨db, rfl, rfl, fun _ h => absurd h List.not_mem_nil⟩
  | cons node nodes ih =>
    obtain ⟨hnew, hdistinct⟩ := List.nodup_cons.mp hdistinct
    obtain ⟨db₁, hrun⟩ := upsertNode_run node hT hfour
    obtain ⟨T₁, hT₁, hfour₁, -, -⟩ := seated_upsertNode hrun
    obtain ⟨db', hrest, hcolumns, hseated⟩ := ih hdistinct hT₁ hfour₁
    refine ⟨db', ?_, hcolumns.trans (upsertNode_columns hrun), fun node' hnode' => ?_⟩
    · rw [List.map_cons, Db.runAll_cons, hrun, Option.bind_some, hrest]
    · rcases List.mem_cons.mp hnode' with rfl | hnode'
      · refine runAll_keeps (P := Seated node') (fun f hf st st' hst hrun => ?_) hrest (seated_upsertNode hrun)
        obtain ⟨node, hnode, rfl⟩ := List.mem_map.mp hf
        exact hst.upsertNode (fun hid => hnew (List.mem_map.mpr ⟨node, hnode, hid.symm⟩)) hrun
      · exact hseated node' hnode'

/-- The backfill identity is added where the recorded version asks for it. -/
def seeded (stored : Option Int) : Nat := if stored.any (· < 6) then 1 else 0

/-- A table that was created is there. -/
theorem exists_table {ds : List Ddl} (hheld : ∀ d ∈ ds, d.Held db) (name : String) (h : (Ddl.created ds name).isSome) :
    ∃ T, db name = some T := by
  obtain ⟨columns, hcreated⟩ := Option.isSome_iff_exists.mp h
  obtain ⟨columns', hcolumns⟩ := Option.isSome_iff_exists.mp (hheld _ (Ddl.exists_createTable hcreated))
  obtain ⟨T, hT, -⟩ := Database.columns_eq_some.mp hcolumns
  exact ⟨T, hT⟩

theorem migrateV5_run (h : Stage db₀ stored inserted db) (hheld : ∀ d ∈ createTables, d.Held db) :
    ∃ T T', migrateV5RunTablesIndexFree db =
      some (Function.update (Function.update db "runs" (some T)) "run_registry" (some T')) := by
  obtain ⟨S, hS⟩ := exists_table hheld "runs" (wellDeclared.expected _ (by simp))
  obtain ⟨S', hS'⟩ := exists_table hheld "run_registry" (wellDeclared.expected _ (by simp))
  have hnames : ∀ c ∈ runsV5, c ∈ S.columns := (h.fits hS).required.subset
  have hnames' : ∀ c ∈ runRegistryV5, c ∈ S'.columns := (h.fits hS').required.subset
  obtain ⟨T, hrebuild, -⟩ : ∃ T, rebuild Value.null "runs" "runs_v5" runsV5 (some runsV5) db =
      some (Function.update db "runs" (some T)) ∧ _ :=
    Tables.rebuild_eq (by decide) (h.shaped.eq_none (wellDeclared.copies _ (by simp))) hS hnames rfl
  obtain ⟨T', hrebuild', -⟩ : ∃ T', rebuild Value.null "run_registry" "run_registry_v5" runRegistryV5 (some runRegistryV5)
      (Function.update db "runs" (some T)) =
        some (Function.update (Function.update db "runs" (some T)) "run_registry" (some T')) ∧ _ :=
    Tables.rebuild_eq (by decide) (by rw [Function.update_of_ne (by decide)]; exact h.shaped.eq_none (wellDeclared.copies _ (by simp)))
      (by rw [Function.update_of_ne (by decide), hS']) hnames' rfl
  exact ⟨T, T', by simp only [migrateV5RunTablesIndexFree, hrebuild, Option.bind_eq_bind, Option.bind_some, hrebuild']⟩

theorem migrateV8_run (h : Stage db₀ stored inserted db) (hheld : ∀ d ∈ createTables, d.Held db) :
    migrateV8ManualExperimentsIndexFree db = some db := by
  obtain ⟨S, hS⟩ := exists_table hheld "manual_experiments" (wellDeclared.expected _ (by simp))
  exact migrateV8_of_source h hS

/-- The rebuilds run: they change nothing, except at version 4 the run tables. -/
theorem rebuilds_run (h : Stage db₀ stored inserted db) (hheld : ∀ d ∈ createTables, d.Held db) :
    ∃ db', runAll (rebuilds stored) db = some db' ∧ (stored ≠ some 4 → db' = db) ∧
      (stored = some 4 → db'.columns "runs" = some runsV5 ∧ ∀ name, name ≠ "runs" → name ≠ "run_registry" → db' name = db name) := by
  by_cases hstored : stored = some 4
  · obtain ⟨T, T', hrun⟩ := migrateV5_run h hheld
    obtain ⟨hstage, hruns⟩ := h.migrateV5 hstored hrun
    obtain ⟨S, hS⟩ := exists_table hheld "manual_experiments" (wellDeclared.expected _ (by simp))
    have hsecond := migrateV8_of_source hstage (S := S) (by simpa using hS)
    refine ⟨_, ?_, fun hne => absurd hstored hne, fun _ => ⟨hruns, fun name hname hname' => ?_⟩⟩
    · subst hstored
      simp only [rebuilds, if_true, List.cons_append, List.nil_append, Db.runAll_cons, hrun, Option.bind_some, Option.any_some,
        show decide ((2 : Int) ≤ 4 ∧ (4 : Int) < 8) = true by decide, hsecond, Db.runAll_nil]
    · rw [Function.update_of_ne hname', Function.update_of_ne hname]
  · refine ⟨db, ?_, fun _ => rfl, fun h => absurd h hstored⟩
    unfold rebuilds
    rw [if_neg hstored, List.nil_append]
    split
    · rw [Db.runAll_cons, migrateV8_run h hheld]
      rfl
    · rfl

theorem seeds_run (h : Stage db₀ stored inserted db) {T : Table Value} (hT : db "users" = some T) :
    ∃ db', runAll (seeds stored) db = some db' ∧ db'.columns = db.columns ∧ Stage db₀ stored (inserted + seeded stored) db' := by
  by_cases hstored : stored.any (· < 6)
  · have hcolumns : T.columns = ["id", "username", "password_hash", "role", "must_change", "disabled", "created_at_ns"] :=
      plainTables_columns (by simp [plainTables]) (h.fits hT)
    have hwidth : legacyUser.length = T.columns.length := by rw [hcolumns]; rfl
    have hrun : insertLegacyUser db = some _ := insertRow_run hT hwidth
    have hsame : (T.insert legacyUser hwidth).columns = T.columns := rfl
    refine ⟨_, ?_, Database.columns_update hT hsame, ?_⟩
    · simp only [seeds, hstored, if_true, Db.runAll_cons, hrun, Option.bind_some, Db.runAll_nil]
    · simp only [seeded, hstored, if_true]
      exact h.insertLegacyUser hstored hrun
  · refine ⟨db, by rw [seeds, if_neg hstored, Db.runAll_nil], rfl, ?_⟩
    rw [seeded, if_neg hstored, Nat.add_zero]
    exact h

/-- A store to which only the version has still to be written. -/
structure Prepared (db₀ : Store) (stored : Option Int) (inserted : Nat) (db : Store) : Prop where
  stage : Stage db₀ stored inserted db
  held : stored ≠ some 4 → ∀ d ∈ declarations, d.Held db
  dropped : stored = some 4 → db.columns "runs" = some runsV5
  versioned : ∃ T, db "schema_meta" = some T
  seated : ∀ node ∈ complianceArticleNodes, Seated node db

theorem runAll_held {d : Ddl} {ds : List Ddl} (h : d.Held db) (hrun : runAll (ds.map (Ddl.run .null)) db = some db') : d.Held db' := by
  refine runAll_keeps (P := fun db => d.Held db) (fun f hf st st' hst hrun => ?_) hrun h
  obtain ⟨e, -, rfl⟩ := List.mem_map.mp hf
  exact hst.run hrun

/-- A list that adds nothing to a table leaves its columns. -/
theorem runAll_columns {ds : List Ddl} {name : String} {columns : List String} (hadded : Ddl.added ds name = [])
    (hrun : runAll (ds.map (Ddl.run .null)) db = some db') (h : db.columns name = some columns) : db'.columns name = some columns := by
  refine runAll_keeps (P := fun db => db.columns name = some columns) (fun f hf st st' hst hrun => ?_) hrun h
  obtain ⟨d, hd, rfl⟩ := List.mem_map.mp hf
  rcases Ddl.columns_of_run hrun hst with hsame | ⟨column, rfl, -, -⟩
  · exact hsame
  · have hmem := Ddl.mem_added.mpr hd
    rw [hadded] at hmem
    exact absurd hmem List.not_mem_nil

/-- Everything before the version runs. -/
theorem script_run (h : Stage db₀ stored inserted db) :
    ∃ db', runAll (beforeSeed stored ++ (seeds stored ++ afterSeed)) db = some db' ∧
      Prepared db₀ stored (inserted + seeded stored) db' := by
  obtain ⟨db₁, hcreate⟩ := Tables.runAll_of_ordered Value.null db wellDeclared.createTables_ordered
    fun table htable => absurd htable List.not_mem_nil
  have h₁ : Stage db₀ stored inserted db₁ :=
    runAll_keeps (fun f hf st st' hst hrun => hst.beforeSeed (List.mem_append_left _ hf) hrun) hcreate h
  have hheld₁ := Tables.held_of_runAll hcreate
  obtain ⟨db₂, hrebuilds, hsame, hdropped⟩ := rebuilds_run h₁ hheld₁
  have h₂ : Stage db₀ stored inserted db₂ := runAll_keeps (fun f hf st st' hst hrun => hst.rebuilds hf hrun) hrebuilds h₁
  have hcarried : ∀ name, name ≠ "runs" → name ≠ "run_registry" → db₂ name = db₁ name := by
    intro name hruns hregistry
    by_cases hstored : stored = some 4
    · exact (hdropped hstored).2 name hruns hregistry
    · rw [hsame hstored]
  obtain ⟨T, hT⟩ := exists_table hheld₁ "users" (wellDeclared.expected _ (by simp))
  obtain ⟨db₃, hseeds, hcolumns₃, h₃⟩ := seeds_run h₂ (hcarried "users" (by decide) (by decide) ▸ hT)
  obtain ⟨db₄, hgraph⟩ := Tables.runAll_of_ordered Value.null db₃ wellDeclared.graphTables_ordered fun table htable => absurd htable List.not_mem_nil
  have h₄ : Stage db₀ stored (inserted + seeded stored) db₄ :=
    runAll_keeps (fun f hf st st' hst hrun => hst.afterSeed (List.mem_append_left _ hf) hrun) hgraph h₃
  have hheld₄ := Tables.held_of_runAll hgraph
  obtain ⟨N, hN⟩ := exists_table hheld₄ "graph_nodes" wellDeclared.graphNodes
  have hfour : N.columns = ["id", "kind", "label", "attrs"] := plainTables_columns (by simp [plainTables]) (h₄.fits hN)
  obtain ⟨db₅, hupserts, hcolumns₅, hseated⟩ := upserts_run wellDeclared.articles_distinct hN hfour
  have h₅ : Stage db₀ stored (inserted + seeded stored) db₅ :=
    runAll_keeps (fun f hf st st' hst hrun => hst.afterSeed (List.mem_append_right _ (List.mem_append_left _ hf)) hrun) hupserts h₄
  have hheld : ∀ d : Ddl, d.Held db₂ → d.Held db₅ := fun d hd => (runAll_held (hd.congr hcolumns₃) hgraph).congr hcolumns₅
  refine ⟨db₅, ?_, h₅, fun hstored d hd => ?_, fun hstored => ?_, ?_, hseated⟩
  · simp only [beforeSeed, afterSeed, Db.runAll_append, hcreate, Option.bind_some, Db.runAll_cons, hrebuilds, hseeds, hgraph, hupserts,
      Db.runAll_nil]
  · rcases List.mem_append.mp hd with hd | hd
    · exact hheld d (hsame hstored ▸ hheld₁ d hd)
    · exact (hheld₄ d hd).congr hcolumns₅
  · rw [hcolumns₅]
    exact runAll_columns wellDeclared.graph_runs hgraph (by rw [hcolumns₃, (hdropped hstored).1])
  · have hmeta : (Ddl.createTable "schema_meta" []).Held db₂ := by
      obtain ⟨T, hT⟩ := exists_table hheld₁ "schema_meta" (wellDeclared.expected _ (by simp))
      simp [Ddl.Held, Database.columns, hcarried "schema_meta" (by decide) (by decide), hT]
    obtain ⟨columns, hcolumns⟩ := Option.isSome_iff_exists.mp (hheld _ hmeta)
    obtain ⟨T, hT, -⟩ := Database.columns_eq_some.mp hcolumns
    exact ⟨T, hT⟩

/-! ## The version -/

/-- The rows of the version store, with the current version. -/
def versioned (rows : List (List Value)) : List (List Value) :=
  Db.updateWhere (fun row => key row = .varchar "version") (fun row => row.set 1 (.bigint currentSchemaVersion)) rows

theorem key_set (row : List Value) (v : Value) : key (row.set 1 v) = key row := by
  cases row <;> rfl

theorem updateVersion_run {T : Table Value} (hT : db "schema_meta" = some T) :
    ∃ T', updateVersion db = some (Function.update db "schema_meta" (some T')) ∧ T'.columns = T.columns ∧
      T'.rows = versioned T.rows := by
  simp only [updateVersion, hT, Option.bind_eq_bind, Option.bind_some]
  exact ⟨_, rfl, rfl, by simp [versioned, Db.updateWhere]⟩

/-- A version that is recorded is replaced. -/
theorem storedVersion_versioned {T T' : Table Value} {version : Int} (hT : db "schema_meta" = some T)
    (hrecorded : storedVersion db = some version) (hrows : T'.rows = versioned T.rows) :
    storedVersion (Function.update db "schema_meta" (some T')) = some currentSchemaVersion := by
  simp only [storedVersion, hT, Option.bind_eq_bind, Option.bind_some, Option.bind_eq_some_iff] at hrecorded
  obtain ⟨row, hfind, value, hvalue, -⟩ := hrecorded
  have hlength : 1 < row.length := (List.getElem?_eq_some_iff.mp hvalue).1
  have hkey : key row = .varchar "version" := by simpa using List.find?_some hfind
  have hfind' := Db.find?_updateWhere (p := fun row => decide (key row = .varchar "version"))
    (f := fun row => row.set 1 (.bigint currentSchemaVersion)) (q := fun row => decide (key row = .varchar "version"))
    (fun r => by rw [key_set]) T.rows
  rw [hfind] at hfind'
  simp only [storedVersion, Function.update_self, Option.bind_eq_bind, Option.bind_some, hrows, versioned, hfind', Option.map_some,
    hkey, decide_true, if_true, List.getElem?_set_self hlength, Value.bigint?]

/-- What the last statement of a migration leaves. -/
structure Recorded (db db' : Store) : Prop where
  columns : db'.columns = db.columns
  current : storedVersion db' = some currentSchemaVersion
  other : ∀ name, name ≠ "schema_meta" → db' name = db name
  rows : ∀ T, db "schema_meta" = some T → ∃ T', db' "schema_meta" = some T' ∧ T'.columns = T.columns ∧ T'.rows = versioned T.rows

theorem recordVersion_run {version : Int} (h : Prepared db₀ (some version) inserted db) (hearlier : version < currentSchemaVersion) :
    ∃ db', runAll (recordVersion (some version)) db = some db' ∧ Recorded db db' := by
  obtain ⟨T, hT⟩ := h.versioned
  obtain ⟨T', hrun, hcolumns, hrows⟩ := updateVersion_run hT
  refine ⟨_, ?_, Database.columns_update hT hcolumns, storedVersion_versioned hT h.stage.recorded hrows,
    fun name hname => Function.update_of_ne hname _ _, fun T₁ hT₁ => ?_⟩
  · rw [recordVersion, if_pos hearlier, Db.runAll_cons, hrun]
    rfl
  · obtain rfl : T = T₁ := Option.some.inj (hT.symm.trans hT₁)
    exact ⟨T', Function.update_self _ _ _, hcolumns, hrows⟩

/-- An open that is not interrupted runs the script. -/
theorem openStore_script (h : Underway stored db) (hscript : runAll (script stored) db = some db') : openStore db = (.ok (), db') := by
  have hmigrate : migrate Db.calm ⟨db, 0⟩ = (.ok (), ⟨db', 0 + (script stored).length⟩) :=
    (migrate_eq_script Db.calm h).trans (Db.executeAll_ok hscript fun _ _ _ => rfl)
  simp [openStore, hmigrate]

theorem openStore_eq {version : Int} (h : Stage db₀ (some version) inserted db) (hearlier : version < currentSchemaVersion) :
    ∃ db₁ db', openStore db = (.ok (), db') ∧ runAll (script (some version)) db = some db' ∧
      Prepared db₀ (some version) (inserted + seeded (some version)) db₁ ∧ Recorded db₁ db' := by
  obtain ⟨db₁, hrun, hprepared⟩ := script_run h
  obtain ⟨db', hrecord, hrecorded⟩ := recordVersion_run hprepared hearlier
  have hscript : runAll (script (some version)) db = some db' := by
    rw [script, ← List.append_assoc (seeds _), ← List.append_assoc, Db.runAll_append, hrun, Option.bind_some, hrecord]
  exact ⟨db₁, db', openStore_script ⟨db₀, inserted, h⟩ hscript, hscript, hprepared, hrecorded⟩

/-- A freshly created store has what is declared. -/
theorem freshStore_columnSet : freshStore.columnSet = Ddl.schema declarations := by
  have hstart : Stage noTables none 0 noTables := Stage.start (fun name columns h => by simp [Database.columns, noTables] at h) rfl
  obtain ⟨db₁, hrun, hprepared⟩ := script_run hstart
  obtain ⟨T, hT⟩ := hprepared.versioned
  have hcolumns : T.columns = ["key", "value"] := plainTables_columns (by simp [plainTables]) (hprepared.stage.fits hT)
  have hwidth : [Value.varchar "version", .bigint currentSchemaVersion].length = T.columns.length := by rw [hcolumns]; rfl
  have hinserted : (T.insert _ hwidth).columns = T.columns := rfl
  obtain ⟨db', hinsert, hsame⟩ : ∃ db', insertVersion db₁ = some db' ∧ db'.columns = db₁.columns :=
    ⟨_, insertRow_run hT hwidth, Database.columns_update hT hinserted⟩
  have hscript : runAll (script none) noTables = some db' := by
    rw [script, ← List.append_assoc (seeds _), ← List.append_assoc, Db.runAll_append, hrun, Option.bind_some, recordVersion,
      Db.runAll_cons, hinsert, Option.bind_some, Db.runAll_nil]
  have hfresh : freshStore = db' := congrArg Prod.snd (openStore_script ⟨noTables, 0, hstart⟩ hscript)
  rw [hfresh]
  exact (hprepared.stage.shaped.congr hsame).complete fun d hd => (hprepared.held (by simp) d hd).congr hsame

/-! ## An interrupted open -/

/-- Whether an open from a version, interrupted before its statement of that number, has added the backfill identity. -/
def seededBefore (version : Int) (n : Nat) : Nat := if version < 6 ∧ (beforeSeed (some version)).length < n then 1 else 0

/-- What a part of the script does. -/
theorem Stage.part {version : Int} {n : Nat} (h : Stage db₀ (some version) inserted db) (hearlier : version < currentSchemaVersion)
    (hn : n < (script (some version)).length) (hrun : runAll ((script (some version)).take n) db = some db') :
    Stage db₀ (some version) (inserted + seededBefore version n) db' := by
  have hrecord : (recordVersion (some version)).length = 1 := by rw [recordVersion, if_pos hearlier]; rfl
  have hafter : ∀ {k m st st'}, m ≤ Schema.afterSeed.length → Stage db₀ (some version) k st →
      runAll ((Schema.afterSeed ++ recordVersion (some version)).take m) st = some st' → Stage db₀ (some version) k st' := by
    intro k m st st' hm hst hrun
    rw [List.take_append_of_le_length hm] at hrun
    exact runAll_keeps (fun f hf st st' hst hrun => hst.afterSeed (List.mem_of_mem_take hf) hrun) hrun hst
  by_cases hbefore : n ≤ (Schema.beforeSeed (some version)).length
  · rw [script, List.take_append_of_le_length hbefore] at hrun
    rw [seededBefore, if_neg (by omega), Nat.add_zero]
    exact runAll_keeps (fun f hf st st' hst hrun => hst.beforeSeed (List.mem_of_mem_take hf) hrun) hrun h
  · obtain ⟨m, rfl⟩ : ∃ m, n = (Schema.beforeSeed (some version)).length + (m + 1) := ⟨n - (Schema.beforeSeed (some version)).length - 1, by omega⟩
    rw [script, List.take_length_add_append, Db.runAll_append] at hrun
    obtain ⟨db₁, hfirst, hrest⟩ := Option.bind_eq_some_iff.mp hrun
    have h₁ : Stage db₀ (some version) inserted db₁ :=
      runAll_keeps (fun f hf st st' hst hrun => hst.beforeSeed hf hrun) hfirst h
    simp only [script, List.length_append, hrecord] at hn
    by_cases hversion : version < 6
    · have hseeds : Schema.seeds (some version) = [Schema.insertLegacyUser] := by simp [Schema.seeds, hversion]
      rw [hseeds, List.singleton_append, List.take_succ_cons, Db.runAll_cons] at hrest
      obtain ⟨db₂, hinsert, hrest⟩ := Option.bind_eq_some_iff.mp hrest
      rw [hseeds] at hn
      rw [seededBefore, if_pos ⟨hversion, by omega⟩]
      exact hafter (by simp at hn; omega) (h₁.insertLegacyUser (by simpa using hversion) hinsert) hrest
    · have hseeds : Schema.seeds (some version) = [] := by simp [Schema.seeds, hversion]
      rw [hseeds, List.nil_append] at hrest
      rw [hseeds] at hn
      rw [seededBefore, if_neg (by omega), Nat.add_zero]
      exact hafter (by simp at hn; omega) h₁ hrest

/-- An interrupted open leaves the store at a stage of the migration. -/
theorem Stage.interruptedOpen {version : Int} {n : Nat} (h : Stage db₀ (some version) inserted db) (hearlier : version < currentSchemaVersion)
    (hn : n < (script (some version)).length) :
    Stage db₀ (some version) (inserted + seededBefore version n) (Schema.interruptedOpen db n) := by
  obtain ⟨_, _, -, hscript, -, -⟩ := openStore_eq h hearlier
  obtain ⟨db', hpart⟩ := Db.runAll_take hscript n
  have hcrash : migrate (Db.crashAt n) ⟨db, 0⟩ = (.error .interrupted, ⟨db', n + 1⟩) :=
    (migrate_eq_script _ ⟨db₀, inserted, h⟩).trans (Db.executeAll_crash (Nat.zero_add n) hpart hn)
  rw [Schema.interruptedOpen, hcrash]
  exact h.part hearlier hn hpart

/-- So do any number of interrupted opens (induction on the opens). -/
theorem Stage.interruptedOpens {version : Int} {crashes : List Nat} (h : Stage db₀ (some version) inserted db)
    (hearlier : version < currentSchemaVersion) (hcrashes : ∀ n ∈ crashes, n < (script (some version)).length) :
    Stage db₀ (some version) (inserted + (crashes.map (seededBefore version)).sum) (crashes.foldl Schema.interruptedOpen db) := by
  induction crashes generalizing db inserted with
  | nil => exact h
  | cons n crashes ih =>
    have hn := h.interruptedOpen hearlier (hcrashes n List.mem_cons_self)
    have hrest := ih hn fun m hm => hcrashes m (List.mem_cons_of_mem _ hm)
    rw [List.map_cons, List.sum_cons, ← Nat.add_assoc]
    exact hrest

/-! ## What is asked of a migration -/

/-- The row that records the version. -/
def IsVersion (name : String) (row : List Value) : Prop := name = "schema_meta" ∧ key row = .varchar "version"

/-- Every row is there as often as before, with its values; only the recorded version is replaced. -/
def Lossless (db db' : Store) : Prop :=
  ∀ name T, db name = some T → ∃ T', db' name = some T' ∧ T.columns <+: T'.columns ∧
    ∀ row ∈ T.rows, ¬ IsVersion name row → (T'.rows.map (·.take T.columns.length)).count row = T.rows.count row

/-- What is asked of the store a migration leaves. -/
structure Migrated (db db' : Store) : Prop where
  complete : db'.columnSet = freshStore.columnSet
  current : storedVersion db' = some currentSchemaVersion
  lossless : Lossless db db'
  legacyOnce : legacyUsers db' ≤ 1
  stable : openStore db' = (.ok (), db')

/-- A store recorded at an earlier version: tables that a version declares, with the columns it created them with and any of those
that were added since. -/
structure EarlierStore where
  tables : Store
  version : Int
  recorded : storedVersion tables = some version
  earlier : version < currentSchemaVersion
  shaped : Shaped declarations tables

theorem required_ne_nil : ∀ d ∈ declarations, ∀ table columns, d = .createTable table columns → Ddl.required declarations table ≠ [] := by
  rintro d hd table columns rfl
  simpa using wellDeclared.required table (List.mem_filterMap.mpr ⟨_, hd, rfl⟩)

theorem columns_ne_nil (h : Shaped declarations db) {name : String} {T : Table Value} (hT : db name = some T) : T.columns ≠ [] := by
  have hfits := h name T.columns (Database.columns_eq_some.mpr ⟨T, hT, rfl⟩)
  obtain ⟨columns, hcreated⟩ := Option.isSome_iff_exists.mp hfits.known
  have hne := required_ne_nil _ (Ddl.exists_createTable hcreated) name columns rfl
  intro hnil
  exact hne (List.prefix_nil.mp (hnil ▸ hfits.required))

theorem count_versioned {row : List Value} (h : key row ≠ .varchar "version") (rows : List (List Value)) :
    (versioned rows).count row = rows.count row := by
  induction rows with
  | nil => rfl
  | cons r rows ih =>
    have hcons : versioned (r :: rows) =
        (if key r = .varchar "version" then r.set 1 (.bigint currentSchemaVersion) else r) :: versioned rows := by
      simp [versioned, Db.updateWhere]
    rw [hcons, List.count_cons, List.count_cons, ih]
    by_cases hr : key r = .varchar "version"
    · have hset : r.set 1 (.bigint currentSchemaVersion) ≠ row := fun heq => h (by rw [← heq, key_set, hr])
      have hne : r ≠ row := fun heq => h (heq ▸ hr)
      simp [hr, hset, hne]
    · simp [hr]

/-- Nothing is lost where nothing is dropped, refreshed or added twice. -/
theorem Prepared.lossless {db₁ : Store} (hshaped : Shaped declarations db) (h : Prepared db stored inserted db₁) (hstored : stored ≠ some 4)
    (harticles : ArticlesCurrent db) (hlegacy : stored.any (· < 6) → legacyUsers db = 0) (hrecorded : Recorded db₁ db') :
    Lossless db db' := by
  intro name T hT
  obtain ⟨T₁, hT₁, hkept⟩ := (h.stage.keeping hstored harticles).kept name T hT
  have hfresh : ∀ row ∈ T.rows, ¬ Seeded db stored name (row.headD .null) := by
    rintro row hrow (⟨rfl, hv, hk⟩ | ⟨rfl, -, hnew⟩)
    · have hnone := hlegacy hv
      simp only [legacyUsers, hT, Option.elim_some, List.countP_eq_zero] at hnone
      exact hnone row hrow (by simpa [key] using hk)
    · exact hnew T hT row hrow rfl
  have hcount : ∀ row ∈ T.rows, (T₁.rows.map (·.take T.columns.length)).count row = T.rows.count row :=
    fun row hrow => hkept.count_eq (columns_ne_nil hshaped hT) hfresh hrow
  by_cases hname : name = "schema_meta"
  · subst hname
    obtain ⟨T', hT', hcolumns, hrows⟩ := hrecorded.rows T₁ hT₁
    have htwo : T.columns = ["key", "value"] :=
      plainTables_columns (by simp [plainTables]) (hshaped _ _ (Database.columns_eq_some.mpr ⟨T, hT, rfl⟩))
    have htwo₁ : T₁.columns = ["key", "value"] := plainTables_columns (by simp [plainTables]) (h.stage.fits hT₁)
    have hwhole : ∀ S : Table Value, S.columns = T.columns → S.rows.map (·.take T.columns.length) = S.rows := by
      intro S hS
      exact (List.map_congr_left fun r hr => List.take_of_length_le (by rw [S.width r hr, hS])).trans (List.map_id _)
    refine ⟨T', hT', hcolumns ▸ hkept.prefix_columns, fun row hrow hversion => ?_⟩
    rw [hwhole T' (by rw [hcolumns, htwo, htwo₁]), hrows, count_versioned fun hk => hversion ⟨rfl, hk⟩, ← hcount row hrow,
      hwhole T₁ (by rw [htwo, htwo₁])]
  · exact ⟨T₁, by rw [hrecorded.other name hname, hT₁], hkept.prefix_columns, fun row hrow _ => hcount row hrow⟩

/-- A store that has everything and the current version is left as it is. -/
theorem openStore_self (hshaped : Shaped declarations db) (hheld : ∀ d ∈ declarations, d.Held db)
    (hseated : ∀ node ∈ complianceArticleNodes, Seated node db) (hcurrent : storedVersion db = some currentSchemaVersion) :
    openStore db = (.ok (), db) := by
  have hupserts : ∀ nodes : List ArticleNode, (∀ node ∈ nodes, Seated node db) → runAll (nodes.map upsertNode) db = some db := by
    intro nodes h
    induction nodes with
    | nil => rfl
    | cons node nodes ih =>
      rw [List.map_cons, Db.runAll_cons, upsertNode_of_seated (h node List.mem_cons_self), Option.bind_some]
      exact ih fun n hn => h n (List.mem_cons_of_mem _ hn)
  have hcreate := Tables.runAll_of_held Value.null fun d hd => hheld d (mem_declarations_of_create hd)
  have hgraph := Tables.runAll_of_held Value.null fun d hd => hheld d (mem_declarations_of_graph hd)
  refine openStore_script ⟨db, 0, Stage.start hshaped hcurrent⟩ ?_
  have hrebuilds : rebuilds (some currentSchemaVersion) = [] := by simp [rebuilds, currentSchemaVersion]
  have hseeds : seeds (some currentSchemaVersion) = [] := by simp [seeds, currentSchemaVersion]
  have hrecord : recordVersion (some currentSchemaVersion) = [] := by simp [recordVersion]
  have hquery : runAll [some] db = some db := rfl
  have hafter : runAll afterSeed db = some db := by
    rw [afterSeed, Db.runAll_append, hgraph, Option.bind_some, Db.runAll_append, hupserts _ hseated, Option.bind_some, hquery]
  rw [script, beforeSeed, hrebuilds, hseeds, hrecord, List.nil_append, List.append_nil, Db.runAll_append, Db.runAll_append, hcreate,
    Option.bind_some, hquery, Option.bind_some, hafter]

/-- The rebuild of version 4 leaves the run tables without the campaign column. -/
theorem Prepared.incomplete (h : Prepared db₀ (some 4) inserted db) (hrecorded : Recorded db db') :
    db'.columnSet ≠ freshStore.columnSet := by
  intro heq
  have hruns := congrFun heq "runs"
  rw [freshStore_columnSet, Database.columnSet, hrecorded.columns, h.dropped rfl] at hruns
  exact absurd hruns (by decide)

/-- After a migration an article row is that of the registry, so a row that was there with other values is lost. -/
theorem Prepared.articlesCurrent {db₁ : Store} (h : Prepared db₀ stored inserted db₁) (hrecorded : Recorded db₁ db')
    (hshaped : Shaped declarations db) (hlossless : Lossless db db') : ArticlesCurrent db := by
  intro T hT row hrow node hnode hk
  obtain ⟨S, hS, hfour, -, hunique⟩ := h.seated node hnode
  obtain ⟨T', hT', -, hcount⟩ := hlossless _ T hT
  have hTfour : T.columns = ["id", "kind", "label", "attrs"] :=
    plainTables_columns (by simp [plainTables]) (hshaped _ _ (Database.columns_eq_some.mpr ⟨T, hT, rfl⟩))
  obtain rfl : S = T' := Option.some.inj (hS.symm.trans ((hrecorded.other _ (by decide)).symm.trans hT'))
  have hpos : 0 < (S.rows.map (·.take T.columns.length)).count row := by
    rw [hcount row hrow fun hversion => absurd hversion.1 (by decide)]
    exact List.count_pos_iff.mpr hrow
  obtain ⟨r, hr, rfl⟩ := List.mem_map.mp (List.count_pos_iff.mp hpos)
  have hwhole : r.take T.columns.length = r := List.take_of_length_le (by rw [S.width r hr, hfour, hTfour])
  rw [hwhole] at hk ⊢
  exact hunique r hr hk

/-- No interrupted open has added the backfill identity when each stopped before it. -/
theorem sum_seededBefore {version : Int} {crashes : List Nat} :
    (crashes.map (seededBefore version)).sum = 0 ↔ (version < 6 → ∀ n ∈ crashes, n ≤ (beforeSeed (some version)).length) := by
  rw [List.sum_eq_zero_iff, List.forall_mem_map]
  constructor
  · intro h hversion n hn
    by_contra hlt
    have hone := h n hn
    rw [seededBefore, if_pos ⟨hversion, by omega⟩] at hone
    cases hone
  · intro h n hn
    exact if_neg fun ⟨hversion, hlt⟩ => absurd (h hversion n hn) (by omega)

theorem Seated.congr {node : ArticleNode} (h : Seated node db) (heq : db' "graph_nodes" = db "graph_nodes") : Seated node db' := by
  unfold Seated
  rw [heq]
  exact h

/-- What an open leaves that is not interrupted, after opens that were. -/
theorem EarlierStore.opened (db : EarlierStore) (crashes : List Nat) (hcrashes : ∀ n ∈ crashes, n < (script (some db.version)).length) :
    ∃ inserted db₁ db', openStore (crashes.foldl Schema.interruptedOpen db.tables) = (.ok (), db') ∧
      Prepared db.tables (some db.version) inserted db₁ ∧ Recorded db₁ db' ∧
      legacyUsers db' = legacyUsers db.tables + ((crashes.map (seededBefore db.version)).sum + seeded (some db.version)) := by
  have hstage := (Stage.start db.shaped db.recorded).interruptedOpens db.earlier hcrashes
  rw [Nat.zero_add] at hstage
  obtain ⟨db₁, db', hopen, -, hprepared, hrecorded⟩ := openStore_eq hstage db.earlier
  refine ⟨_, db₁, db', hopen, hprepared, hrecorded, ?_⟩
  rw [← hprepared.stage.legacy, legacyUsers, hrecorded.other "users" (by decide), legacyUsers]

/-- From a store recorded at an earlier version, and after any number of interrupted opens, an open that is not interrupted returns
and does all that is asked of it if and only if the version is not 4, no open before version 6 was interrupted behind the row of the
backfill identity, which was not there, and the articles that are there are those of the registry. -/
theorem migrated_iff (db : EarlierStore) (crashes : List Nat) (hcrashes : ∀ n ∈ crashes, n < (script (some db.version)).length) :
    (∃ db', openStore (crashes.foldl interruptedOpen db.tables) = (.ok (), db') ∧ Migrated db.tables db') ↔
      db.version ≠ 4 ∧
      (db.version < 6 → legacyUsers db.tables = 0 ∧ ∀ n ∈ crashes, n ≤ (beforeSeed (some db.version)).length) ∧
      (6 ≤ db.version → legacyUsers db.tables ≤ 1) ∧ ArticlesCurrent db.tables := by
  obtain ⟨inserted, db₁, db', hopen, hprepared, hrecorded, hlegacy⟩ := db.opened crashes hcrashes
  constructor
  · rintro ⟨db'', hopen', hmigrated⟩
    obtain rfl : db' = db'' := congrArg Prod.snd (hopen.symm.trans hopen')
    have honce := hmigrated.legacyOnce
    refine ⟨fun h4 => ?_, fun hversion => ⟨?_, fun n hn => ?_⟩, fun hversion => ?_, ?_⟩
    · rw [h4] at hprepared
      exact hprepared.incomplete hrecorded hmigrated.complete
    · rw [seeded, if_pos (by simpa using hversion)] at hlegacy
      omega
    · rw [seeded, if_pos (by simpa using hversion)] at hlegacy
      exact sum_seededBefore.mp (by omega) hversion n hn
    · omega
    · exact hprepared.articlesCurrent hrecorded db.shaped hmigrated.lossless
  · rintro ⟨hne, hbefore, hafter, harticles⟩
    have hstored : some db.version ≠ some 4 := fun h => hne (Option.some.inj h)
    have hheld := fun d hd => (hprepared.held hstored d hd).congr hrecorded.columns
    have hshaped := hprepared.stage.shaped.congr hrecorded.columns
    refine ⟨db', hopen, ?_, hrecorded.current, hprepared.lossless db.shaped hstored harticles ?_ hrecorded, ?_, ?_⟩
    · rw [hshaped.complete hheld, freshStore_columnSet]
    · exact fun hversion => (hbefore (by simpa using hversion)).1
    · rw [hlegacy, sum_seededBefore.mpr fun hversion => (hbefore hversion).2]
      by_cases hversion : db.version < 6
      · simp [seeded, hversion, (hbefore hversion).1]
      · simpa [seeded, hversion] using hafter (by omega)
    · exact openStore_self hshaped hheld (fun node hnode => (hprepared.seated node hnode).congr (hrecorded.other _ (by decide)))
        hrecorded.current

/-- A store in which nothing but the version is recorded. -/
def markerStore (version : Int) : Store := Function.update noTables "schema_meta"
  (some ((Table.empty ["key", "value"]).insert [.varchar "version", .bigint version] rfl))

theorem shaped_markerStore (version : Int) : Shaped declarations (markerStore version) :=
  Shaped.update (fun name columns h => by simp [Database.columns, noTables] at h) wellDeclared.fits_schemaMeta

/-- A store recorded at version 4. -/
def versionFour : EarlierStore := ⟨markerStore 4, 4, rfl, by decide, shaped_markerStore 4⟩

/-- A store recorded at version 5. -/
def versionFive : EarlierStore := ⟨markerStore 5, 5, rfl, by decide, shaped_markerStore 5⟩

/-- A store recorded at version 12. -/
def versionTwelve : EarlierStore := ⟨markerStore 12, 12, rfl, by decide, shaped_markerStore 12⟩

theorem articlesCurrent_markerStore (version : Int) : ArticlesCurrent (markerStore version) := by
  intro T hT
  simp [markerStore, noTables] at hT

/-- At version 12, also after opens that were interrupted early and late. -/
theorem migrated_iff_versionTwelve :
    ∃ db', openStore ([3, 70].foldl interruptedOpen versionTwelve.tables) = (.ok (), db') ∧ Migrated versionTwelve.tables db' :=
  (migrated_iff versionTwelve [3, 70] (by decide)).mpr
    ⟨by decide, fun h => absurd h (by decide), fun _ => by decide, articlesCurrent_markerStore 12⟩

/-- From version 4 one open leaves the run tables without a column; from version 5 an open that is interrupted behind the row of the
backfill identity makes the next one add it again. -/
theorem migrated_false :
    (¬ ∃ db', openStore versionFour.tables = (.ok (), db') ∧ Migrated versionFour.tables db') ∧
      ¬ ∃ db', openStore ([70].foldl interruptedOpen versionFive.tables) = (.ok (), db') ∧ Migrated versionFive.tables db' := by
  constructor
  · rintro ⟨db'', hopen', hmigrated⟩
    obtain ⟨inserted, db₁, db', hopen, hprepared, hrecorded, -⟩ := versionFour.opened [] (by simp)
    obtain rfl : db' = db'' := congrArg Prod.snd (hopen.symm.trans hopen')
    exact hprepared.incomplete hrecorded hmigrated.complete
  · rintro ⟨db'', hopen', hmigrated⟩
    obtain ⟨inserted, db₁, db', hopen, -, -, hlegacy⟩ := versionFive.opened [70] (by decide)
    obtain rfl : db' = db'' := congrArg Prod.snd (hopen.symm.trans hopen')
    have htwice : legacyUsers versionFive.tables + (([70].map (seededBefore versionFive.version)).sum + seeded (some versionFive.version)) = 2 := by
      decide
    have honce := hmigrated.legacyOnce
    omega

end Schema

end Tumult
