import Tumult.Lake.Legacy

/-!
# What an import of a legacy store keeps

An import keeps every row that was there and inserts every row whose key was not; imported again, the same source adds nothing. A
row whose key was there is left out, and lost where the key is not one that the schema enforces, unless the store has that very row.
-/

namespace Tumult.Schema

open Db (Tx Env)
open Tables (Table Ddl)

/-! ## What is asked of an import -/

/-- A source whose tables carry the natural-key columns. -/
def CarriesKeys (source : Store) : Prop := ∀ e ∈ LEGACY_TABLES, ∀ S, source e.table = some S → e.key ⊆ S.columns

/-- A store whose tables have the columns of the schema. -/
def CurrentSchema (db : Store) : Prop := ∀ e ∈ LEGACY_TABLES, db.columnSet e.table = Ddl.schema Schema.declarations e.table

/-- What is asked of one table: its rows are kept, and each row of the source is there, or a row with its key was there when the
schema enforces the key. -/
structure MergedWhole (e : LegacyTable) (S T T' : Table Value) : Prop where
  columns : T'.columns = T.columns
  kept : T.rows <+: T'.rows
  covered : ∀ r ∈ S.rows, T'.Has S (T.shared S) r ∨ uniqueKey e.table = some e.key ∧ T.Has S e.key r

/-- What is asked of an import that returned: every table of the source is merged whole, every other table is left, and importing
the source again inserts nothing. -/
structure LosslessImport (source db db' : Store) : Prop where
  merged : ∀ e ∈ LEGACY_TABLES, ∀ S, source e.table = some S →
    ∃ T T', db e.table = some T ∧ db' e.table = some T' ∧ MergedWhole e S T T'
  others : ∀ name, (∀ e ∈ LEGACY_TABLES, e.table = name → source name = none) → db' name = db name
  again : ∀ Γ path tick report s, importLegacy Γ path (some source) ⟨db', tick⟩ = (.ok report, s) →
    s.store = db' ∧ ∀ p ∈ report, p.2 = 0

/-! ## When it is met -/

/-- Where the store has the key of a source's row, and the schema does not enforce the key, the store has the row. -/
def KeysDetermine (source db : Store) : Prop :=
  ∀ e ∈ LEGACY_TABLES, uniqueKey e.table ≠ some e.key → ∀ S T, source e.table = some S → db e.table = some T →
    ∀ r ∈ S.rows, T.Has S e.key r → T.Has S (T.shared S) r

/-- The source later: its tables have the same columns and at least the rows they had. -/
def Grows (source grown : Store) : Prop :=
  ∀ name, (source name = none ∧ grown name = none) ∨
    ∃ S G, source name = some S ∧ grown name = some G ∧ G.columns = S.columns ∧ S.rows ⊆ G.rows

/-- Where the store or the source has the key of a later source's row, and the schema does not enforce the key, the store or the
source has the row. -/
def KeysDetermineLater (source grown db : Store) : Prop :=
  ∀ e ∈ LEGACY_TABLES, uniqueKey e.table ≠ some e.key →
    ∀ S G T, source e.table = some S → grown e.table = some G → db e.table = some T →
      ∀ r ∈ G.rows, T.Has G e.key r ∨ S.Has G e.key r → T.Has G (T.shared S) r ∨ S.Has G (T.shared S) r

/-! ## One table -/

variable {Γ : Env} {source grown : Store} {e : LegacyTable} {s s' : Db.Session Store}

theorem executeCount_ok {f : Store → Option (Nat × Store)} {n : Nat} (h : executeCount Γ f s = (.ok n, s')) :
    f s.store = some (n, s'.store) := by
  obtain ⟨count, s₁, hstatement, hcount⟩ := Db.bind_ok.mp h
  obtain ⟨-, rfl, rfl⟩ := Db.statement_ok.mp hstatement
  cases hf : f s.store with
  | none =>
    simp only [hf, Option.map_none] at hcount
    exact absurd hcount Db.throw_ok
  | some p =>
    simp only [hf, Option.map_some, Option.getD_some] at hcount
    obtain ⟨rfl, rfl⟩ := Db.pure_ok.mp hcount
    rfl

/-- A table that the source does not have is left. -/
theorem mergeLegacyTable_absent {r : Option (String × Nat)} (h : mergeLegacyTable Γ source e s = (.ok r, s'))
    (hS : source e.table = none) : r = none ∧ s'.store = s.store := by
  obtain ⟨srcCols, s₁, hquery, hrest⟩ := Db.bind_ok.mp h
  obtain ⟨-, rfl, rfl⟩ := Db.query_ok.mp hquery
  have hempty : tableColumns source e.table = [] := by simp [tableColumns, Tables.Database.columns, hS]
  rw [if_pos hempty] at hrest
  obtain ⟨rfl, rfl⟩ := Db.pure_ok.mp hrest
  exact ⟨rfl, rfl⟩

/-- The table of a source with its key is merged, and its missing rows are counted. -/
theorem mergeLegacyTable_present {r : Option (String × Nat)} {S T : Table Value} (h : mergeLegacyTable Γ source e s = (.ok r, s'))
    (hS : source e.table = some S) (hT : s.store e.table = some T) (hne : e.key ≠ []) (hkey : e.key ⊆ T.shared S) :
    r = some (e.table, (T.missing S e.key).length) ∧
      s'.store = Function.update s.store e.table (some (T.merge S (columnDefault e.table) (T.shared S) e.key)) := by
  obtain ⟨srcCols, s₁, hquery, hrest⟩ := Db.bind_ok.mp h
  obtain ⟨-, rfl, rfl⟩ := Db.query_ok.mp hquery
  have hsrc : tableColumns source e.table = S.columns := by simp [tableColumns, Tables.Database.columns, hS]
  have hdst : tableColumns s.store e.table = T.columns := by simp [tableColumns, Tables.Database.columns, hT]
  have hcolumns : S.columns ≠ [] := by
    obtain ⟨k, hk⟩ := List.exists_mem_of_ne_nil _ hne
    exact List.ne_nil_of_mem (Table.mem_shared.mp (hkey hk)).2
  rw [hsrc, if_neg hcolumns] at hrest
  obtain ⟨dstCols, s₂, hquery', hrest⟩ := Db.bind_ok.mp hrest
  obtain ⟨-, rfl, rfl⟩ := Db.query_ok.mp hquery'
  rw [Db.Session.next_store, hdst] at hrest
  have hall : (e.key.any fun k => decide (k ∉ T.columns.filter (· ∈ S.columns))) = false := by
    refine List.any_eq_false.mpr fun k hk => ?_
    rw [decide_eq_true_eq, not_not]
    exact hkey hk
  rw [hall, if_neg Bool.false_ne_true] at hrest
  obtain ⟨n, s₃, hcount, hrest⟩ := Db.bind_ok.mp hrest
  obtain ⟨rfl, rfl⟩ := Db.pure_ok.mp hrest
  have hinsert := executeCount_ok hcount
  unfold insertMissing at hinsert
  simp only [Db.Session.next_store, hT, hS, Option.bind_eq_bind, Option.bind_some] at hinsert
  split at hinsert
  · obtain ⟨rfl, hstore⟩ := Prod.mk.inj (Option.some.inj hinsert)
    exact ⟨rfl, hstore.symm⟩
  · cases hinsert

/-! ## All tables -/

/-- Every table of the source has its key in common with the store's. -/
def Importable (es : List LegacyTable) (source db : Store) : Prop :=
  ∀ e ∈ es, ∀ S, source e.table = some S → ∃ T, db e.table = some T ∧ e.key ⊆ T.shared S

/-- The store with every table of the source merged, as the statements leave it. -/
structure Imported (es : List LegacyTable) (source db db' : Store) (report : List (String × Nat)) : Prop where
  merged : ∀ e ∈ es, ∀ S T, source e.table = some S → db e.table = some T →
    db' e.table = some (T.merge S (columnDefault e.table) (T.shared S) e.key)
  others : ∀ name, (∀ e ∈ es, e.table = name → source name = none) → db' name = db name
  counted : ∀ p ∈ report, ∃ e ∈ es, ∃ S T, source e.table = some S ∧ db e.table = some T ∧ p.2 = (T.missing S e.key).length

/-- Tables are merged independently of each other (induction on the tables). -/
theorem mergeTables_ok {es : List LegacyTable} {report : List (String × Nat)} (h : mergeTables Γ source es s = (.ok report, s'))
    (hnames : (es.map (·.table)).Nodup) (hkeys : ∀ e ∈ es, e.key ≠ []) (himportable : Importable es source s.store) :
    Imported es source s.store s'.store report := by
  induction es generalizing s report with
  | nil =>
    obtain ⟨rfl, rfl⟩ := Db.pure_ok.mp h
    exact ⟨fun _ he => absurd he List.not_mem_nil, fun _ _ => rfl, fun _ hp => absurd hp List.not_mem_nil⟩
  | cons e es ih =>
    obtain ⟨hnew, hnodup⟩ := List.nodup_cons.mp hnames
    obtain ⟨hkey, hkeys⟩ := List.forall_mem_cons.mp hkeys
    obtain ⟨hfirst, hothers⟩ := List.forall_mem_cons.mp himportable
    obtain ⟨r, s₁, hmerge, hrest⟩ := Db.bind_ok.mp h
    obtain ⟨report', s₂, hmerges, hend⟩ := Db.bind_ok.mp hrest
    obtain ⟨rfl, rfl⟩ := Db.pure_ok.mp hend
    have hapart : ∀ e' ∈ es, e'.table ≠ e.table := fun e' he' hname => hnew (List.mem_map.mpr ⟨e', he', hname⟩)
    -- the first table's statement is not seen by the others
    have hstays : ∀ name, name ≠ e.table → s₁.store name = s.store name := by
      intro name hname
      cases hS : source e.table with
      | none => rw [(mergeLegacyTable_absent hmerge hS).2]
      | some S =>
        obtain ⟨T, hT, hshared⟩ := hfirst S hS
        rw [(mergeLegacyTable_present hmerge hS hT hkey hshared).2, Function.update_of_ne hname]
    have hrest := ih hmerges hnodup hkeys fun e' he' S hS => by
      obtain ⟨T, hT, hshared⟩ := hothers e' he' S hS
      exact ⟨T, (hstays _ (hapart e' he')).trans hT, hshared⟩
    have hlast : s'.store e.table = s₁.store e.table :=
      hrest.others _ fun e' he' hname => absurd hname (hapart e' he')
    refine ⟨fun e' he' S T hS hT => ?_, fun name hname => ?_, fun p hp => ?_⟩
    · rcases List.mem_cons.mp he' with rfl | he'
      · obtain ⟨T', hT', hshared⟩ := hfirst S hS
        obtain rfl := Option.some.inj (hT'.symm.trans hT)
        rw [hlast, (mergeLegacyTable_present hmerge hS hT hkey hshared).2, Function.update_self]
      · exact hrest.merged e' he' S T hS ((hstays _ (hapart e' he')).trans hT)
    · obtain ⟨habsent, hname⟩ := List.forall_mem_cons.mp hname
      rw [hrest.others name hname]
      by_cases heq : name = e.table
      · rw [(mergeLegacyTable_absent hmerge (heq ▸ habsent heq.symm)).2]
      · exact hstays name heq
    · rcases List.mem_append.mp hp with hp | hp
      · cases hS : source e.table with
        | none =>
          rw [(mergeLegacyTable_absent hmerge hS).1] at hp
          nomatch hp
        | some S =>
          obtain ⟨T, hT, hshared⟩ := hfirst S hS
          rw [(mergeLegacyTable_present hmerge hS hT hkey hshared).1] at hp
          obtain rfl := List.mem_singleton.mp hp
          exact ⟨e, List.mem_cons_self, S, T, hS, hT, rfl⟩
      · obtain ⟨e', he', S, T, hS, hT, hcount⟩ := hrest.counted p hp
        exact ⟨e', List.mem_cons_of_mem _ he', S, T, hS, (hstays _ (hapart e' he')).symm.trans hT, hcount⟩

theorem CurrentSchema.table {db : Store} (h : CurrentSchema db) (he : e ∈ LEGACY_TABLES) :
    ∃ T, db e.table = some T ∧ e.key ⊆ T.columns := by
  obtain ⟨hcreated, hkey⟩ := schema_hasKeys e he
  obtain ⟨columns, hcolumns⟩ := Option.isSome_iff_exists.mp hcreated
  have hset := h e he
  rw [Ddl.schema, hcolumns, Option.map_some] at hset
  unfold Tables.Database.columnSet Tables.Database.columns at hset
  cases hT : db e.table with
  | none => simp [hT] at hset
  | some T =>
    rw [hT, Option.map_some, Option.map_some, Option.some.injEq] at hset
    refine ⟨T, rfl, fun k hk => ?_⟩
    rw [← List.mem_toFinset, hset, List.mem_toFinset]
    exact hkey k hk

theorem importable {db : Store} (hsource : CarriesKeys source) (hdb : CurrentSchema db) : Importable LEGACY_TABLES source db := by
  intro e he S hS
  obtain ⟨T, hT, hkey⟩ := hdb.table he
  exact ⟨T, hT, fun k hk => Table.mem_shared.mpr ⟨hkey hk, hsource e he S hS hk⟩⟩

/-- An import that returned has merged every table. -/
theorem importLegacy_ok {path : String} {report : List (String × Nat)} (h : importLegacy Γ path (some source) s = (.ok report, s'))
    (himportable : Importable LEGACY_TABLES source s.store) : Imported LEGACY_TABLES source s.store s'.store report := by
  obtain ⟨_, s₁, hattach, hrest⟩ := Db.bind_ok.mp h
  obtain ⟨-, -, rfl⟩ := Db.query_ok.mp hattach
  rcases hmerge : mergeLegacyTables Γ source s.next with ⟨result, s₂⟩
  unfold thenDetach at hrest
  rw [hmerge] at hrest
  obtain ⟨rfl, rfl⟩ := Prod.mk.inj hrest
  obtain ⟨_, s₃, hcatalog, hmerges⟩ := Db.bind_ok.mp hmerge
  obtain ⟨-, -, rfl⟩ := Db.query_ok.mp hcatalog
  have hmerged : Imported LEGACY_TABLES source s.next.next.store s₂.store report :=
    mergeTables_ok hmerges legacyTables_nodup legacyTables_keyed himportable
  exact hmerged

namespace Imported

variable {db db' : Store} {report : List (String × Nat)} {es : List LegacyTable}

/-- A merged table shares with the source what it shared before. -/
theorem importable (h : Imported es source db db' report) (himportable : Importable es source db) {source' : Store}
    (hsource : ∀ name, (source name = none ∧ source' name = none) ∨
      ∃ S S', source name = some S ∧ source' name = some S' ∧ S'.columns = S.columns) : Importable es source' db' := by
  intro e he S' hS'
  rcases hsource e.table with ⟨-, hnone⟩ | ⟨S, G, hS, hG, hcolumns⟩
  · rw [hnone] at hS'
    nomatch hS'
  · obtain rfl := Option.some.inj (hG.symm.trans hS')
    obtain ⟨T, hT, hkey⟩ := himportable e he S hS
    refine ⟨_, h.merged e he S T hS hT, fun k hk => ?_⟩
    have hk' := Table.mem_shared.mp (hkey hk)
    exact Table.mem_shared.mpr ⟨hk'.1, hcolumns ▸ hk'.2⟩

/-- Nothing is missing from the store a source was imported into, so another import leaves it. -/
theorem again (h : Imported es source db db' report) (himportable : Importable es source db) {db'' : Store}
    {report' : List (String × Nat)} (h' : Imported es source db' db'' report') : db'' = db' ∧ ∀ p ∈ report', p.2 = 0 := by
  have hmissing {e : LegacyTable} (he : e ∈ es) {S T' : Table Value} (hS : source e.table = some S) (hT' : db' e.table = some T') :
      T'.missing S e.key = [] := by
    obtain ⟨T, hT, hkey⟩ := himportable e he S hS
    obtain rfl := Option.some.inj ((h.merged e he S T hS hT).symm.trans hT')
    exact Table.missing_merge hkey
  refine ⟨funext fun name => ?_, fun p hp => ?_⟩
  · by_cases hname : ∃ e ∈ es, e.table = name ∧ source name ≠ none
    · obtain ⟨e, he, rfl, hsome⟩ := hname
      obtain ⟨S, hS⟩ := Option.ne_none_iff_exists'.mp hsome
      obtain ⟨T, hT, -⟩ := himportable e he S hS
      have hT' := h.merged e he S T hS hT
      rw [h'.merged e he S _ hS hT', Table.merge_of_missing_nil (hmissing he hS hT'), hT']
    · exact h'.others name fun e he heq => by_contra fun hsome => hname ⟨e, he, heq, hsome⟩
  · obtain ⟨e, he, S, T', hS, hT', hcount⟩ := h'.counted p hp
    rw [hcount, hmissing he hS hT', List.length_nil]

/-- A merged table is merged whole exactly when keys that are not enforced determine the rows. -/
theorem mergedWhole_iff {S T : Table Value} (hkey : e.key ⊆ T.shared S) :
    MergedWhole e S T (T.merge S (columnDefault e.table) (T.shared S) e.key) ↔
      (uniqueKey e.table ≠ some e.key → ∀ r ∈ S.rows, T.Has S e.key r → T.Has S (T.shared S) r) := by
  constructor
  · intro h hunique r hr hhas
    exact (Table.merge_present hkey hr).mp ((h.covered r hr).resolve_right fun h => hunique h.1) hhas
  · intro h
    refine ⟨rfl, List.prefix_append _ _, fun r hr => ?_⟩
    rw [Table.merge_present hkey hr]
    by_cases hunique : uniqueKey e.table = some e.key
    · by_cases hhas : T.Has S e.key r
      · exact .inr ⟨hunique, hhas⟩
      · exact .inl fun h => absurd h hhas
    · exact .inl (h hunique r hr)

end Imported

/-- A source that stays is one that grows. -/
theorem Grows.refl (source : Store) : Grows source source := by
  intro name
  cases hS : source name with
  | none => exact .inl ⟨rfl, rfl⟩
  | some S => exact .inr ⟨S, S, rfl, rfl, rfl, List.Subset.refl _⟩

theorem Grows.columns (h : Grows source grown) (name : String) : (source name = none ∧ grown name = none) ∨
    ∃ S G, source name = some S ∧ grown name = some G ∧ G.columns = S.columns :=
  (h name).imp_right fun ⟨S, G, hS, hG, hcolumns, _⟩ => ⟨S, G, hS, hG, hcolumns⟩

/-- An import is lossless exactly when keys that are not enforced determine the rows. -/
theorem lossless_iff {db db' : Store} {report : List (String × Nat)} (h : Imported LEGACY_TABLES source db db' report)
    (himportable : Importable LEGACY_TABLES source db) : LosslessImport source db db' ↔ KeysDetermine source db := by
  constructor
  · intro hlossless e he hunique S T hS hT
    obtain ⟨T₀, T', hT₀, hT', hwhole⟩ := hlossless.merged e he S hS
    obtain rfl := Option.some.inj (hT₀.symm.trans hT)
    obtain rfl := Option.some.inj ((h.merged e he S T₀ hS hT).symm.trans hT')
    obtain ⟨T₁, hT₁, hkey⟩ := himportable e he S hS
    obtain rfl := Option.some.inj (hT₁.symm.trans hT)
    exact (Imported.mergedWhole_iff hkey).mp hwhole hunique
  · intro hdetermine
    refine ⟨fun e he S hS => ?_, h.others, fun Γ path tick report' s hs => ?_⟩
    · obtain ⟨T, hT, hkey⟩ := himportable e he S hS
      exact ⟨T, _, hT, h.merged e he S T hS hT,
        (Imported.mergedWhole_iff hkey).mpr fun hunique => hdetermine e he hunique S T hS hT⟩
    · have hnext := h.importable himportable (Grows.refl source).columns
      exact h.again himportable (importLegacy_ok hs hnext)

/-- After an import in which keys determine the rows, a merged table has what the table or the source had. -/
theorem merge_hasShared {S T G : Table Value} {default : String → Value} {key : List String} {r : List Value}
    (hdetermine : ∀ s ∈ S.rows, T.Has S key s → T.Has S (T.shared S) s) :
    (T.merge S default (T.shared S) key).Has G (T.shared S) r ↔ T.Has G (T.shared S) r ∨ S.Has G (T.shared S) r := by
  rw [Table.has_merge (List.Subset.refl _)]
  refine or_congr_right' fun hnot => ⟨fun ⟨s, hs, hagree⟩ => ⟨s, (Table.mem_missing.mp hs).1, hagree⟩, fun ⟨s, hs, hagree⟩ => ?_⟩
  refine ⟨s, Table.mem_missing.mpr ⟨hs, fun hhas => ?_⟩, hagree⟩
  obtain ⟨t, ht, hts⟩ := hdetermine s hs hhas
  exact hnot ⟨t, ht, hts.trans hagree⟩

/-- The condition on the second of two imports of a source that grew, on the store before the first. -/
theorem keysDetermine_grown {db db' : Store} {report : List (String × Nat)} (h : Imported LEGACY_TABLES source db db' report)
    (himportable : Importable LEGACY_TABLES source db) (hgrows : Grows source grown) (hdetermine : KeysDetermine source db) :
    KeysDetermine grown db' ↔ KeysDetermineLater source grown db := by
  have hsame {e : LegacyTable} {S T G : Table Value} (hcolumns : G.columns = S.columns) :
      (T.merge S (columnDefault e.table) (T.shared S) e.key).shared G = T.shared S := by
    unfold Table.shared
    rw [Table.merge_columns, hcolumns]
  constructor
  · intro hlater e he hunique S G T hS hG hT r hr hhas
    obtain ⟨T₀, hT₀, hkey⟩ := himportable e he S hS
    obtain rfl := Option.some.inj (hT₀.symm.trans hT)
    rcases hgrows e.table with ⟨hnone, -⟩ | ⟨S₀, G₀, hS₀, hG₀, hcolumns, -⟩
    · rw [hnone] at hS
      nomatch hS
    · obtain rfl := Option.some.inj (hS₀.symm.trans hS)
      obtain rfl := Option.some.inj (hG₀.symm.trans hG)
      have hfound := hlater e he hunique G₀ _ hG (h.merged e he S₀ T₀ hS hT) r hr ((Table.merge_hasKey hkey).mpr hhas)
      rw [hsame hcolumns] at hfound
      exact (merge_hasShared (hdetermine e he hunique S₀ T₀ hS hT)).mp hfound
  · intro hlater e he hunique G T' hG hT' r hr hhas
    rcases hgrows e.table with ⟨-, hnone⟩ | ⟨S, G₀, hS, hG₀, hcolumns, -⟩
    · rw [hnone] at hG
      nomatch hG
    · obtain rfl := Option.some.inj (hG₀.symm.trans hG)
      obtain ⟨T, hT, hkey⟩ := himportable e he S hS
      obtain rfl := Option.some.inj ((h.merged e he S T hS hT).symm.trans hT')
      rw [hsame hcolumns]
      exact (merge_hasShared (hdetermine e he hunique S T hS hT)).mpr
        (hlater e he hunique S G₀ T hS hG hT r hr ((Table.merge_hasKey hkey).mp hhas))

/-- An import that returned is lossless, and inserts nothing when it is made again, exactly when every key that the schema does not
enforce determines the rows: where the store has the key of a source's row it has the row. After it the import of the source once it
grew is lossless too exactly when the keys of the store and the source determine the rows that were added. -/
theorem importLegacy_lossless_iff {path : String} {report : List (String × Nat)} (hsource : CarriesKeys source)
    (hdb : CurrentSchema s.store) (h : importLegacy Γ path (some source) s = (.ok report, s')) :
    (LosslessImport source s.store s'.store ↔ KeysDetermine source s.store) ∧
      ∀ Γ' path' grown tick report' s'', Grows source grown →
        importLegacy Γ' path' (some grown) ⟨s'.store, tick⟩ = (.ok report', s'') →
        (LosslessImport source s.store s'.store ∧ LosslessImport grown s'.store s''.store ↔
          KeysDetermine source s.store ∧ KeysDetermineLater source grown s.store) := by
  have himportable := importable hsource hdb
  have himported := importLegacy_ok h himportable
  have hfirst := lossless_iff himported himportable
  refine ⟨hfirst, fun Γ' path' grown tick report' s'' hgrows h' => ?_⟩
  have hnext := himported.importable himportable hgrows.columns
  have hsecond := lossless_iff (importLegacy_ok h' hnext) hnext
  rw [hfirst]
  exact and_congr_right fun hdetermine => hsecond.trans (keysDetermine_grown himported himportable hgrows hdetermine)

/-! ## Metric points -/

/-- A store of the current schema without rows. -/
def emptyStore : Store := fun name =>
  (Ddl.created Schema.declarations name).map fun _ => Table.empty (Ddl.declared Schema.declarations name)

theorem emptyStore_current : CurrentSchema emptyStore := by
  intro e _
  unfold emptyStore Tables.Database.columnSet Tables.Database.columns Ddl.schema
  dsimp only
  cases Ddl.created Schema.declarations e.table <;> rfl

/-- The value of one series at one time, with the host it is of. -/
def metricSum (ts : Int) (name host : String) : List Value :=
  [.bigint ts, .varchar name, .double 0, .null, .null, .null, .map [("host", host)], .null]

/-- The key of the points of a metric, and their columns. -/
def sumsKey : List String := ["ts_ns", "metric_name"]

def sumsColumns : List String :=
  ["ts_ns", "metric_name", "value", "experiment_name", "outcome_status", "plugin_name", "attrs", "resource_attrs"]

def sumsTable (points : List (Int × String × String)) : Table Value where
  columns := sumsColumns
  rows := points.map fun p => metricSum p.1 p.2.1 p.2.2
  width := by
    intro r hr
    obtain ⟨p, -, rfl⟩ := List.mem_map.mp hr
    rfl

/-- A source with nothing but some metric points. -/
def sourceOfSums (points : List (Int × String × String)) : Store := fun name =>
  if name = "metric_sums" then some (sumsTable points) else none

theorem sourceOfSums_some {points : List (Int × String × String)} {S : Table Value} (he : e ∈ LEGACY_TABLES)
    (h : sourceOfSums points e.table = some S) : e = ⟨"metric_sums", sumsKey⟩ ∧ S = sumsTable points := by
  have hnames : ∀ e ∈ LEGACY_TABLES, e.table = "metric_sums" → e = ⟨"metric_sums", sumsKey⟩ := by decide +kernel
  unfold sourceOfSums at h
  split at h
  · next htable => exact ⟨hnames e he htable, (Option.some.inj h).symm⟩
  · nomatch h

theorem sourceOfSums_keys (points : List (Int × String × String)) : CarriesKeys (sourceOfSums points) := by
  intro e he S hS
  obtain ⟨rfl, rfl⟩ := sourceOfSums_some he hS
  change sumsKey ⊆ sumsColumns
  decide

theorem emptyStore_has {T S : Table Value} {name : String} {columns : List String} {r : List Value}
    (h : emptyStore name = some T) : ¬ T.Has S columns r := by
  obtain ⟨columns', -, rfl⟩ := Option.map_eq_some_iff.mp h
  rintro ⟨t, ht, -⟩
  nomatch ht

theorem sourceOfSums_grows {points points' : List (Int × String × String)} (h : points ⊆ points') :
    Grows (sourceOfSums points) (sourceOfSums points') := by
  intro name
  unfold sourceOfSums
  split
  · exact .inr ⟨_, _, rfl, rfl, rfl, List.map_subset _ h⟩
  · exact .inl ⟨rfl, rfl⟩

/-- The store after an import in which nothing is refused. -/
def afterImport (source db : Store) : Store := (importLegacy Db.calm "kronika.duckdb" (some source) ⟨db, 0⟩).2.store

theorem importLegacy_calm {db : Store} {report : List (String × Nat)}
    (h : (importLegacy Db.calm "kronika.duckdb" (some source) ⟨db, 0⟩).1 = .ok report) :
    ∃ s', importLegacy Db.calm "kronika.duckdb" (some source) ⟨db, 0⟩ = (.ok report, s') ∧ s'.store = afterImport source db :=
  ⟨_, Prod.ext h rfl, rfl⟩

theorem importLegacy_lossless_sums :
    LosslessImport (sourceOfSums [(1, "cpu", "a")]) emptyStore (afterImport (sourceOfSums [(1, "cpu", "a")]) emptyStore) ∧
    LosslessImport (sourceOfSums [(1, "cpu", "a"), (2, "cpu", "b")]) (afterImport (sourceOfSums [(1, "cpu", "a")]) emptyStore)
      (afterImport (sourceOfSums [(1, "cpu", "a"), (2, "cpu", "b")])
        (afterImport (sourceOfSums [(1, "cpu", "a")]) emptyStore)) := by
  have hfirst : (importLegacy Db.calm "kronika.duckdb" (some (sourceOfSums [(1, "cpu", "a")])) ⟨emptyStore, 0⟩).1 =
      .ok [("metric_sums", 1)] := by decide +kernel
  have hsecond : (importLegacy Db.calm "kronika.duckdb" (some (sourceOfSums [(1, "cpu", "a"), (2, "cpu", "b")]))
      ⟨afterImport (sourceOfSums [(1, "cpu", "a")]) emptyStore, 0⟩).1 = .ok [("metric_sums", 1)] := by decide +kernel
  obtain ⟨s₁, hfirst, hs₁⟩ := importLegacy_calm hfirst
  obtain ⟨s₂, hsecond, hs₂⟩ := importLegacy_calm hsecond
  have hlossless := importLegacy_lossless_iff (sourceOfSums_keys _) emptyStore_current hfirst
  rw [← hs₁] at hsecond hs₂ ⊢
  rw [← hs₂]
  refine (hlossless.2 _ _ _ _ _ _ (sourceOfSums_grows (by simp)) hsecond).mpr ⟨?_, ?_⟩
  · intro e _ _ S T _ hT r _ hhas
    exact absurd hhas (emptyStore_has hT)
  · intro e he _ S G T hS hG hT r hr hhas
    obtain ⟨rfl, rfl⟩ := sourceOfSums_some he hS
    obtain ⟨-, rfl⟩ := sourceOfSums_some he hG
    have hrows : ∀ r ∈ (sumsTable [(1, "cpu", "a"), (2, "cpu", "b")]).rows,
        (sumsTable [(1, "cpu", "a")]).Has (sumsTable [(1, "cpu", "a"), (2, "cpu", "b")]) sumsKey r →
          (sumsTable [(1, "cpu", "a")]).Has (sumsTable [(1, "cpu", "a"), (2, "cpu", "b")]) sumsColumns r := by decide
    have hempty : emptyStore "metric_sums" = some T := hT
    obtain ⟨t, ht, hagree⟩ := hrows r hr (hhas.resolve_left (emptyStore_has hempty))
    exact .inr ⟨t, ht, hagree.mono fun c hc => (Table.mem_shared.mp hc).2⟩

/-- A point of a second host at a time and of a metric that were imported is lost when the source has grown by it. -/
theorem importLegacy_lossless_false :
    Grows (sourceOfSums [(1, "cpu", "a")]) (sourceOfSums [(1, "cpu", "a"), (1, "cpu", "b")]) ∧
    (importLegacy Db.calm "kronika.duckdb" (some (sourceOfSums [(1, "cpu", "a"), (1, "cpu", "b")]))
      ⟨afterImport (sourceOfSums [(1, "cpu", "a")]) emptyStore, 0⟩).1 = .ok [("metric_sums", 0)] ∧
    ¬ LosslessImport (sourceOfSums [(1, "cpu", "a"), (1, "cpu", "b")]) (afterImport (sourceOfSums [(1, "cpu", "a")]) emptyStore)
      (afterImport (sourceOfSums [(1, "cpu", "a"), (1, "cpu", "b")])
        (afterImport (sourceOfSums [(1, "cpu", "a")]) emptyStore)) := by
  have hgrows : Grows (sourceOfSums [(1, "cpu", "a")]) (sourceOfSums [(1, "cpu", "a"), (1, "cpu", "b")]) :=
    sourceOfSums_grows (by simp)
  have hfirst : (importLegacy Db.calm "kronika.duckdb" (some (sourceOfSums [(1, "cpu", "a")])) ⟨emptyStore, 0⟩).1 =
      .ok [("metric_sums", 1)] := by decide +kernel
  have hsecond : (importLegacy Db.calm "kronika.duckdb" (some (sourceOfSums [(1, "cpu", "a"), (1, "cpu", "b")]))
      ⟨afterImport (sourceOfSums [(1, "cpu", "a")]) emptyStore, 0⟩).1 = .ok [("metric_sums", 0)] := by decide +kernel
  refine ⟨hgrows, hsecond, ?_⟩
  obtain ⟨s₁, hfirst, hs₁⟩ := importLegacy_calm hfirst
  obtain ⟨s₂, hsecond, hs₂⟩ := importLegacy_calm hsecond
  rw [← hs₁] at hsecond hs₂ ⊢
  rw [← hs₂]
  intro hlossless
  have himportable := importable (sourceOfSums_keys [(1, "cpu", "a")]) emptyStore_current
  have himported := importLegacy_ok hfirst himportable
  have hnext := himported.importable himportable hgrows.columns
  have hdetermine := (lossless_iff (importLegacy_ok hsecond hnext) hnext).mp hlossless
  have hmetric : (⟨"metric_sums", sumsKey⟩ : LegacyTable) ∈ LEGACY_TABLES := by decide
  have hempty : emptyStore "metric_sums" = some (Table.empty (Ddl.declared Schema.declarations "metric_sums")) := by
    obtain ⟨columns, hcolumns⟩ := Option.isSome_iff_exists.mp (schema_hasKeys _ hmetric).1
    unfold emptyStore
    rw [hcolumns]
    rfl
  have hmerged := himported.merged _ hmetric _ _ (if_pos rfl) hempty
  have hhas := hdetermine _ hmetric (by decide) _ _ (if_pos rfl) hmerged (metricSum 1 "cpu" "b")
  revert hhas
  decide

end Tumult.Schema
