import Tumult.Lake.Refresh
import Tumult.Theorems.Analytics

/-!
# What a refresh of the graph leaves

A refresh that returns has replaced the edges under its identifier and left all others, but a service that an earlier document
declared and this one does not name stays declared. A refresh that reports an error has written what its statements before the
refused one write, which leaves the graph as it was only where they write what is there.
-/

namespace Tumult

open Db (Tx Env runAll executeAll StopsBefore)

/-! ## What is asked of a refresh -/

def Node.attr? (node : Node) (name : String) : Option Attr := (Attr.record node.attrs).get? name

def Attr.isTrue : Attr → Bool
  | .bool value => value
  | _ => false

/-- A service marked as declared. -/
def Node.declared (node : Node) : Bool := node.kind = .service && ((node.attr? "declared").map Attr.isTrue).getD false

/-- The service that a node marks as declared, with its owner and its tier. -/
def Node.declaration? (node : Node) : Option (String × Option Attr × Option Attr) :=
  if node.declared then some (node.id, node.attr? "owner", node.attr? "tier") else none

def AnalyticsDb.edgesUnder (db : AnalyticsDb) (runId : String) : List GraphEdgeRow := db.graphEdges.filter (·.runId = runId)

def AnalyticsDb.edgesBeside (db : AnalyticsDb) (runId : String) : List GraphEdgeRow := db.graphEdges.filter (·.runId ≠ runId)

/-- The edges under an identifier are those of a delta, and all others are as before. -/
structure ReplacesEdges (runId : String) (delta : GraphDelta) (db db' : AnalyticsDb) : Prop where
  under : db'.edgesUnder runId = staticEdgeRows runId delta.edges
  beside : db'.edgesBeside runId = db.edgesBeside runId

/-- The services marked as declared are those that a delta declares, with their owner and tier. -/
def DeclaresExactly (delta : GraphDelta) (db : AnalyticsDb) : Prop :=
  ∀ x, (∃ node ∈ db.graphNodes, node.declaration? = some x) ↔ ∃ node ∈ delta.nodes, node.declaration? = some x

/-- The gaps are those of a delta. -/
def GapsExactly (delta : GraphDelta) (db : AnalyticsDb) : Prop :=
  ∀ node, node.kind = .coverageGap → (node ∈ db.graphNodes ↔ node ∈ delta.nodes)

/-- The same rows in both tables of the graph. -/
def SameGraph (db db' : AnalyticsDb) : Prop := db'.graphNodes.Perm db.graphNodes ∧ db'.graphEdges.Perm db.graphEdges

/-- What is asked of a refresh in a session: it replaces when it returns, and leaves the graph when it reports an error. -/
def AtomicRefresh (refresh : Tx AnalyticsError AnalyticsDb Unit) (s : Db.Session AnalyticsDb)
    (replaced : AnalyticsDb → Prop) : Prop :=
  (∀ s', refresh s = (.ok (), s') → replaced s'.store) ∧ ∀ e s', refresh s = (.error e, s') → SameGraph s.store s'.store

/-! ## Runs -/

/-- A call on the store. -/
inductive GraphCall where
  | ingest (journal : Journal) (experiment : Option Experiment)
  | refreshTopology (delta : GraphDelta)
  | refreshCoverageGaps (delta : GraphDelta)

def GraphCall.run (Γ : Env) (ctx : IngestCtx) : GraphCall → Tx AnalyticsError AnalyticsDb Unit
  | .ingest journal experiment => do
    let _ ← ingestJournalWithExperiment Γ ctx journal experiment
    pure ()
  | .refreshTopology delta => Tumult.refreshTopology Γ delta
  | .refreshCoverageGaps delta => Tumult.refreshCoverageGaps Γ delta

/-- A session reached by calls, whatever was refused on the way, from a store that was opened: its graph holds the articles. -/
inductive GraphReached (Γ : Env) (ctx : IngestCtx) : Db.Session AnalyticsDb → Prop
  | opened (articles : List Node) (hunique : (articles.map (·.id)).Nodup) (tick : Nat) :
      GraphReached Γ ctx ⟨{ graphNodes := articles }, tick⟩
  | call {s : Db.Session AnalyticsDb} (c : GraphCall) (h : GraphReached Γ ctx s) : GraphReached Γ ctx (Db.after (c.run Γ ctx) s)

/-! ## When it is met -/

/-- What is written last of each identifier is there already. -/
def AnalyticsDb.Holds (db : AnalyticsDb) (written : List Node) : Prop :=
  ∀ node, Keyed.last? Node.id written node.id = some node → node ∈ db.graphNodes

/-- The edges under an identifier are these already. -/
def AnalyticsDb.HoldsEdges (db : AnalyticsDb) (runId : String) (edges : List Edge) : Prop :=
  (db.edgesUnder runId).Perm (staticEdgeRows runId edges)

/-- What a topology refresh writes before its statement of that number is there already. -/
def TopologyIdle (db : AnalyticsDb) (delta : GraphDelta) (n : Nat) : Prop :=
  n = 0 ∨ db.Holds (delta.nodes.take (n - 1)) ∧ db.HoldsEdges TOPOLOGY_RUN_ID (delta.edges.take (n - 1 - delta.nodes.length))

/-- What a coverage-gap refresh writes before its statement of that number is there already, every gap among it. -/
def GapsIdle (db : AnalyticsDb) (delta : GraphDelta) (n : Nat) : Prop :=
  n = 0 ∨ db.Holds (delta.nodes.take (n - 2)) ∧
    (∀ node ∈ db.graphNodes, node.kind = .coverageGap → node.id ∈ (delta.nodes.take (n - 2)).map (·.id)) ∧
    (n = 1 ∨ db.HoldsEdges COVERAGE_GAP_RUN_ID (delta.edges.take (n - 2 - delta.nodes.length)))

/-- Every service that is declared is named, and no declaration of the delta is overruled by a later node of its identifier. -/
def NamesDeclared (db : AnalyticsDb) (delta : GraphDelta) : Prop :=
  (∀ node ∈ db.graphNodes, node.declared = true → node.id ∈ delta.nodes.map (·.id)) ∧
    ∀ node ∈ delta.nodes, node.declared = true → ∀ last, Keyed.last? Node.id delta.nodes node.id = some last →
      last.declaration? = node.declaration?

/-- No gap of the delta is overruled by a later node of its identifier. -/
def GapsLast (delta : GraphDelta) : Prop :=
  ∀ node ∈ delta.nodes, node.kind = .coverageGap → Keyed.last? Node.id delta.nodes node.id = some node

/-! ## What statements write -/

variable {Γ : Env} {ctx : IngestCtx} {db : AnalyticsDb} {delta : GraphDelta}

/-- The store after the first statements that write a delta. -/
def written (runId : String) (delta : GraphDelta) (n : Nat) (db : AnalyticsDb) : AnalyticsDb :=
  { db with
    graphNodes := Keyed.upsertAll Node.id (delta.nodes.take n) db.graphNodes
    graphEdges := db.graphEdges ++ staticEdgeRows runId (delta.edges.take (n - delta.nodes.length)) }

theorem writeDelta_length (runId : String) (delta : GraphDelta) :
    (writeDelta runId delta).length = delta.nodes.length + delta.edges.length := by
  simp [writeDelta, staticEdgeRows]

theorem runAll_writeDelta (runId : String) (n : Nat) (db : AnalyticsDb) :
    runAll ((writeDelta runId delta).take n) db = some (written runId delta n db) := by
  have hnodes (nodes : List Node) (db : AnalyticsDb) : runAll (nodes.map upsertNode) db =
      some { db with graphNodes := Keyed.upsertAll Node.id nodes db.graphNodes } :=
    Db.runAll_field AnalyticsDb.graphNodes (fun db nodes => { db with graphNodes := nodes }) (fun _ _ => rfl) (fun _ _ _ => rfl)
      (fun _ => rfl) (fun rows row => Keyed.upsert Node.id row rows) nodes db
  have hedges (edges : List GraphEdgeRow) (db : AnalyticsDb) : runAll (edges.map insertEdge) db =
      some { db with graphEdges := db.graphEdges ++ edges } :=
    Db.runAll_insert AnalyticsDb.graphEdges (fun db edges => { db with graphEdges := edges }) (fun _ _ => rfl) (fun _ _ _ => rfl)
      (fun _ => rfl) edges db
  have htake : (writeDelta runId delta).take n = (delta.nodes.take n).map upsertNode ++
      (staticEdgeRows runId (delta.edges.take (n - delta.nodes.length))).map insertEdge := by
    simp [writeDelta, staticEdgeRows, List.take_append, List.map_take]
  rw [htake, Db.runAll_append, hnodes, Option.bind_some, hedges]
  rfl

/-- The store after the first statements of a topology refresh. -/
def topologyUpTo (delta : GraphDelta) (db : AnalyticsDb) : Nat → AnalyticsDb
  | 0 => db
  | n + 1 => written TOPOLOGY_RUN_ID delta n { db with graphEdges := db.edgesBeside TOPOLOGY_RUN_ID }

/-- The store after the first statements of a coverage-gap refresh. -/
def gapsUpTo (delta : GraphDelta) (db : AnalyticsDb) : Nat → AnalyticsDb
  | 0 => db
  | 1 => { db with graphNodes := db.graphNodes.filter (·.kind ≠ .coverageGap) }
  | n + 2 => written COVERAGE_GAP_RUN_ID delta n
      { db with
        graphNodes := db.graphNodes.filter (·.kind ≠ .coverageGap)
        graphEdges := db.edgesBeside COVERAGE_GAP_RUN_ID }

theorem runAll_topologyScript (n : Nat) : runAll ((topologyScript delta).take n) db = some (topologyUpTo delta db n) := by
  cases n with
  | zero => rfl
  | succ n =>
    rw [topologyScript, List.take_succ_cons, Db.runAll_cons, deleteEdgesForRun, Option.bind_some, runAll_writeDelta]
    rfl

theorem runAll_coverageGapsScript (n : Nat) : runAll ((coverageGapsScript delta).take n) db = some (gapsUpTo delta db n) := by
  match n with
  | 0 => rfl
  | 1 => rfl
  | n + 2 =>
    rw [coverageGapsScript, List.take_succ_cons, List.take_succ_cons, Db.runAll_cons, deleteNodesByKind, Option.bind_some,
      Db.runAll_cons, deleteEdgesForRun, Option.bind_some, runAll_writeDelta]
    rfl

/-! ## Edges -/

theorem staticEdgeRows_runId {runId : String} {edges : List Edge} {row : GraphEdgeRow} (h : row ∈ staticEdgeRows runId edges) :
    row.runId = runId := by
  obtain ⟨edge, -, rfl⟩ := List.mem_map.mp h
  rfl

/-- Replaced edges are the old ones exactly when the new ones stand for those that were deleted. -/
theorem replacedEdges_perm (runId : String) (edges : List Edge) :
    (db.edgesBeside runId ++ staticEdgeRows runId edges).Perm db.graphEdges ↔ db.HoldsEdges runId edges := by
  have hsplit : (db.edgesBeside runId ++ db.edgesUnder runId).Perm db.graphEdges := by
    refine List.perm_append_comm.trans ?_
    have hbeside : db.edgesBeside runId = db.graphEdges.filter (fun row => !decide (row.runId = runId)) := by
      simp [AnalyticsDb.edgesBeside]
    rw [hbeside]
    exact List.filter_append_perm _ _
  rw [← (List.Perm.congr_right hsplit _), List.perm_append_left_iff, List.perm_comm]
  rfl

/-- A delta that is written whole over no edges of its identifier replaces them. -/
theorem written_edges {runId : String} {n : Nat} {db' : AnalyticsDb} (h : db'.graphEdges = db.edgesBeside runId)
    (hn : delta.nodes.length + delta.edges.length ≤ n) : ReplacesEdges runId delta db (written runId delta n db') := by
  have htake : delta.edges.take (n - delta.nodes.length) = delta.edges := List.take_of_length_le (by omega)
  have hedges : (written runId delta n db').graphEdges = db.edgesBeside runId ++ staticEdgeRows runId delta.edges := by
    change db'.graphEdges ++ _ = _
    rw [h, htake]
  have hstatic (row) (hrow : row ∈ staticEdgeRows runId delta.edges) : row.runId = runId := staticEdgeRows_runId hrow
  have hbeside (row) (hrow : row ∈ db.edgesBeside runId) : row.runId ≠ runId := by simpa using (List.mem_filter.mp hrow).2
  constructor
  · rw [AnalyticsDb.edgesUnder, hedges, List.filter_append, List.filter_eq_nil_iff.mpr, List.nil_append, List.filter_eq_self.mpr]
    · exact fun row hrow => decide_eq_true (hstatic row hrow)
    · exact fun row hrow => by simpa using hbeside row hrow
  · rw [AnalyticsDb.edgesBeside, hedges, List.filter_append, List.filter_eq_self.mpr, List.filter_eq_nil_iff.mpr, List.append_nil]
    · exact fun row hrow => by simpa using hstatic row hrow
    · exact fun row hrow => by simpa using hbeside row hrow

/-! ## Nodes -/

theorem declaration?_some {node : Node} {x : String × Option Attr × Option Attr} (h : node.declaration? = some x) :
    node.declared = true ∧ x.1 = node.id := by
  unfold Node.declaration? at h
  split at h
  · next hdeclared => exact ⟨hdeclared, (Option.some.inj h) ▸ rfl⟩
  · nomatch h

theorem declaration?_of_declared {node : Node} (h : node.declared = true) : ∃ x, node.declaration? = some x := by
  rw [Node.declaration?, if_pos h]
  exact ⟨_, rfl⟩

/-- The declared services after a delta's nodes are upserted are those of the delta exactly when it names those that were there. -/
theorem declaresExactly_iff {db' : AnalyticsDb} (h : db'.graphNodes = Keyed.upsertAll Node.id delta.nodes db.graphNodes) :
    DeclaresExactly delta db' ↔ NamesDeclared db delta := by
  unfold DeclaresExactly
  rw [h]
  refine ⟨fun hexact => ⟨fun node hnode hdeclared => ?_, fun node hnode hdeclared last hlast => ?_⟩,
    fun ⟨hnames, hlasts⟩ x => ⟨?_, ?_⟩⟩
  · by_contra hnot
    -- a declared service that is not named is still there
    have hlast : Keyed.last? Node.id delta.nodes node.id = none :=
      Keyed.last?_eq_none.mpr fun row hrow hid => hnot (List.mem_map.mpr ⟨row, hrow, hid⟩)
    obtain ⟨x, hx⟩ := declaration?_of_declared hdeclared
    obtain ⟨row, hrow, hrowx⟩ := (hexact x).mp ⟨node, Keyed.mem_upsertAll.mpr (.inr ⟨hlast, hnode⟩), hx⟩
    exact Keyed.last?_eq_none.mp hlast row hrow ((declaration?_some hrowx).2.symm.trans (declaration?_some hx).2)
  · obtain ⟨x, hx⟩ := declaration?_of_declared hdeclared
    obtain ⟨row, hrow, hrowx⟩ := (hexact x).mpr ⟨node, hnode, hx⟩
    have hid : row.id = node.id := (declaration?_some hrowx).2.symm.trans (declaration?_some hx).2
    rcases Keyed.mem_upsertAll.mp hrow with hrow | ⟨hnone, -⟩
    · rw [hid, hlast] at hrow
      rw [Option.some.inj hrow, hrowx, hx]
    · exact absurd hid.symm (Keyed.last?_eq_none.mp hnone node hnode)
  · rintro ⟨node, hnode, hx⟩
    rcases Keyed.mem_upsertAll.mp hnode with hlast | ⟨hnone, hold⟩
    · exact ⟨node, (Keyed.last?_some hlast).1, hx⟩
    · obtain ⟨row, hrow, hid⟩ := List.mem_map.mp (hnames node hold (declaration?_some hx).1)
      exact absurd hid (Keyed.last?_eq_none.mp hnone row hrow)
  · rintro ⟨node, hnode, hx⟩
    cases hlast : Keyed.last? Node.id delta.nodes node.id with
    | none => exact absurd rfl (Keyed.last?_eq_none.mp hlast node hnode)
    | some last =>
      have hid := (Keyed.last?_some hlast).2
      exact ⟨last, Keyed.mem_upsertAll.mpr (.inl (hid ▸ hlast)), (hlasts node hnode (declaration?_some hx).1 last hlast).trans hx⟩

/-- The gaps after a delta's nodes are upserted over none are those of the delta exactly when none of them is overruled. -/
theorem gapsExactly_iff {db' : AnalyticsDb}
    (h : db'.graphNodes = Keyed.upsertAll Node.id delta.nodes (db.graphNodes.filter (·.kind ≠ .coverageGap))) :
    GapsExactly delta db' ↔ GapsLast delta := by
  unfold GapsExactly
  rw [h]
  refine ⟨fun hexact node hnode hgap => ?_, fun hlasts node hgap => ⟨fun hnode => ?_, fun hnode => ?_⟩⟩
  · rcases Keyed.mem_upsertAll.mp ((hexact node hgap).mpr hnode) with hlast | ⟨-, hold⟩
    · exact hlast
    · exact absurd hgap (by simpa using (List.mem_filter.mp hold).2)
  · rcases Keyed.mem_upsertAll.mp hnode with hlast | ⟨-, hold⟩
    · exact (Keyed.last?_some hlast).1
    · exact absurd hgap (by simpa using (List.mem_filter.mp hold).2)
  · exact Keyed.mem_upsertAll.mpr (.inl (hlasts node hnode hgap))

/-- Upserting over the nodes that are no gaps leaves the nodes exactly when what is written is there, every gap among it. -/
theorem upsertAll_beside_gaps {new : List Node} (hunique : (db.graphNodes.map (·.id)).Nodup) :
    (Keyed.upsertAll Node.id new (db.graphNodes.filter (·.kind ≠ .coverageGap))).Perm db.graphNodes ↔
      db.Holds new ∧ ∀ node ∈ db.graphNodes, node.kind = .coverageGap → node.id ∈ new.map (·.id) := by
  have hfilter : ((db.graphNodes.filter (·.kind ≠ .coverageGap)).map (·.id)).Nodup :=
    hunique.sublist (List.filter_sublist.map _)
  rw [Keyed.perm_of_nodup (Keyed.nodup_upsertAll hfilter) hunique]
  refine ⟨fun h => ⟨fun node hlast => (h node).mp (Keyed.mem_upsertAll.mpr (.inl hlast)), fun node hnode hgap => ?_⟩,
    fun ⟨hholds, hgaps⟩ node => ⟨fun hnode => ?_, fun hnode => ?_⟩⟩
  · rcases Keyed.mem_upsertAll.mp ((h node).mpr hnode) with hlast | ⟨-, hold⟩
    · exact List.mem_map_of_mem (Keyed.last?_some hlast).1
    · exact absurd hgap (by simpa using (List.mem_filter.mp hold).2)
  · rcases Keyed.mem_upsertAll.mp hnode with hlast | ⟨-, hold⟩
    · exact hholds node hlast
    · exact (List.mem_filter.mp hold).1
  · cases hlast : Keyed.last? Node.id new node.id with
    | none =>
      refine Keyed.mem_upsertAll.mpr (.inr ⟨hlast, List.mem_filter.mpr ⟨hnode, ?_⟩⟩)
      refine decide_eq_true fun hgap => ?_
      obtain ⟨row, hrow, hid⟩ := List.mem_map.mp (hgaps node hnode hgap)
      exact Keyed.last?_eq_none.mp hlast row hrow hid
    | some last =>
      have hid := (Keyed.last?_some hlast).2
      have hmem := hholds last (hid ▸ hlast)
      have hsame : last = node := List.inj_on_of_nodup_map hunique hmem hnode hid
      exact Keyed.mem_upsertAll.mpr (.inl (hsame ▸ hlast))

/-! ## What every call keeps -/

/-- No two nodes share an identifier. -/
def AnalyticsDb.UniqueNodes (db : AnalyticsDb) : Prop := (db.graphNodes.map (·.id)).Nodup

theorem mergeNode_unique {nodes : List Node} (h : (nodes.map (·.id)).Nodup) (node : Node) :
    ((mergeNode ctx nodes node).map (·.id)).Nodup := by
  have hmerge : mergeNode ctx nodes node =
      Keyed.upsertWith Node.id (fun old node => { node with attrs := ctx.jsonMergePatch old.attrs node.attrs }) node nodes := rfl
  rw [hmerge]
  exact Keyed.nodup_upsertWith (fun _ _ => rfl) h

/-- A statement of a refresh keeps the nodes unique. -/
theorem writeDelta_unique {runId : String} {f : AnalyticsStatement} (hf : f ∈ writeDelta runId delta) {db' : AnalyticsDb}
    (hrun : f db = some db') (h : db.UniqueNodes) : db'.UniqueNodes := by
  rcases List.mem_append.mp hf with hf | hf
  · obtain ⟨node, -, rfl⟩ := List.mem_map.mp hf
    obtain rfl := Option.some.inj hrun
    exact Keyed.nodup_upsert h
  · obtain ⟨edge, -, rfl⟩ := List.mem_map.mp hf
    obtain rfl := Option.some.inj hrun
    exact h

theorem refreshTopology_unique {s : Db.Session AnalyticsDb} (h : s.store.UniqueNodes) :
    (Db.after (refreshTopology Γ delta) s).store.UniqueNodes := by
  refine Db.executeAll_keeps (fun f hf db db' hdb hrun => ?_) h
  rcases List.mem_cons.mp hf with rfl | hf
  · obtain rfl := Option.some.inj hrun
    exact hdb
  · exact writeDelta_unique hf hrun hdb

theorem refreshCoverageGaps_unique {s : Db.Session AnalyticsDb} (h : s.store.UniqueNodes) :
    (Db.after (refreshCoverageGaps Γ delta) s).store.UniqueNodes := by
  refine Db.executeAll_keeps (fun f hf db db' hdb hrun => ?_) h
  rcases List.mem_cons.mp hf with rfl | hf
  · obtain rfl := Option.some.inj hrun
    exact hdb.sublist (List.filter_sublist.map _)
  · rcases List.mem_cons.mp hf with rfl | hf
    · obtain rfl := Option.some.inj hrun
      exact hdb
    · exact writeDelta_unique hf hrun hdb

theorem ingest_unique {s : Db.Session AnalyticsDb} (journal : Journal) (experiment : Option Experiment) (h : s.store.UniqueNodes) :
    (Db.after (ingestJournalWithExperiment Γ ctx journal experiment) s).store.UniqueNodes := by
  have hall : RunInput.AllOrNothing Γ ctx s (.ofJournal journal experiment) := allOrNothing_ofJournal journal experiment s
  unfold Db.after
  rcases hresult : ingestJournalWithExperiment Γ ctx journal experiment s with ⟨e | added, s'⟩
  · rw [hall.unwound e s' hresult]
    exact h
  · cases added with
    | false =>
      rw [(hall.skipped s' hresult).2]
      exact h
    | true =>
      rw [(hall.added s' hresult).2]
      have hfold (nodes old : List Node) (hold : (old.map (·.id)).Nodup) :
          ((nodes.foldl (mergeNode ctx) old).map (·.id)).Nodup := by
        induction nodes generalizing old with
        | nil => exact hold
        | cons node nodes ih => exact ih _ (mergeNode_unique hold node)
      exact hfold _ _ h

/-- In every session reached no two nodes share an identifier (induction on the calls). -/
theorem GraphReached.unique {s : Db.Session AnalyticsDb} (h : GraphReached Γ ctx s) : s.store.UniqueNodes := by
  induction h with
  | opened articles hunique tick => exact hunique
  | @call s c _ ih =>
    cases c with
    | refreshTopology delta => exact refreshTopology_unique ih
    | refreshCoverageGaps delta => exact refreshCoverageGaps_unique ih
    | ingest journal experiment =>
      have hingest : (Db.after (ingestJournalWithExperiment Γ ctx journal experiment) s).store.UniqueNodes :=
        ingest_unique journal experiment ih
      change (Db.after (ingestJournalWithExperiment Γ ctx journal experiment >>= fun _ => pure ()) s).store.UniqueNodes
      unfold Db.after at hingest ⊢
      rcases hresult : ingestJournalWithExperiment Γ ctx journal experiment s with ⟨e | added, s'⟩
      · rw [hresult] at hingest
        rw [Db.bind_of_error hresult]
        exact hingest
      · rw [hresult] at hingest
        rw [Db.bind_of_ok hresult]
        exact hingest

/-! ## Refreshes -/

theorem atomicRefresh_iff {fs : List AnalyticsStatement} {s : Db.Session AnalyticsDb} {replaced : AnalyticsDb → Prop}
    {upTo : Nat → AnalyticsDb} (htotal : ∀ n, runAll (fs.take n) s.store = some (upTo n)) :
    AtomicRefresh (executeAll Γ .db .constraint fs) s replaced ↔
      ((∀ i < fs.length, Γ.fails (s.tick + i) = false) → replaced (upTo fs.length)) ∧
        ∀ n < fs.length, StopsBefore Γ s.tick n → SameGraph s.store (upTo n) := by
  unfold AtomicRefresh
  exact Db.executeAll_iff (P := replaced) (E := SameGraph s.store) fun n _ => htotal n

theorem topologyUpTo_same {n : Nat} (hunique : db.UniqueNodes) :
    SameGraph db (topologyUpTo delta db n) ↔ TopologyIdle db delta n := by
  cases n with
  | zero => exact iff_of_true ⟨.refl _, .refl _⟩ (.inl rfl)
  | succ n =>
    rw [TopologyIdle, or_iff_right (Nat.succ_ne_zero n), Nat.add_sub_cancel]
    refine and_congr ?_ (replacedEdges_perm _ _)
    exact (Keyed.perm_of_nodup (Keyed.nodup_upsertAll hunique) hunique).trans (Keyed.upsertAll_same hunique)

theorem gapsUpTo_same {n : Nat} (hunique : db.UniqueNodes) : SameGraph db (gapsUpTo delta db n) ↔ GapsIdle db delta n := by
  match n with
  | 0 => exact iff_of_true ⟨.refl _, .refl _⟩ (.inl rfl)
  | 1 =>
    have hnodes := @upsertAll_beside_gaps db [] hunique
    rw [GapsIdle, or_iff_right Nat.one_ne_zero]
    refine (and_iff_left (List.Perm.refl _)).trans (hnodes.trans ?_)
    simp
  | n + 2 =>
    rw [GapsIdle, or_iff_right (Nat.succ_ne_zero _), or_iff_right (by omega), Nat.add_sub_cancel, ← and_assoc]
    exact and_congr (upsertAll_beside_gaps hunique) (replacedEdges_perm _ _)

/-- In a delta whose identifiers are unique, as those of documents and of catalogues are, no node is overruled. -/
theorem NamesDeclared.of_unique (hunique : (delta.nodes.map (·.id)).Nodup)
    (h : ∀ node ∈ db.graphNodes, node.declared = true → node.id ∈ delta.nodes.map (·.id)) : NamesDeclared db delta := by
  refine ⟨h, fun node hnode _ last hlast => ?_⟩
  rw [Keyed.last?_of_nodup hunique hnode] at hlast
  rw [Option.some.inj hlast]

theorem gapsLast_of_unique (hunique : (delta.nodes.map (·.id)).Nodup) : GapsLast delta :=
  fun _ hnode _ => Keyed.last?_of_nodup hunique hnode

/-- In every session that ingestions and refreshes reach, whatever was refused before: a topology refresh replaces its sub-graph or
leaves the graph exactly when what it writes before a statement that is refused is there already, and, when none is, the delta names
every service that is declared; a coverage-gap refresh exactly when what it writes before a statement that is refused is there
already, and, when none is, no gap of the delta is overruled within it. -/
theorem refresh_atomic_iff {s : Db.Session AnalyticsDb} (h : GraphReached Γ ctx s) (delta : GraphDelta) :
    (AtomicRefresh (refreshTopology Γ delta) s
        (fun db => ReplacesEdges TOPOLOGY_RUN_ID delta s.store db ∧ DeclaresExactly delta db) ↔
      ((∀ i < (topologyScript delta).length, Γ.fails (s.tick + i) = false) → NamesDeclared s.store delta) ∧
        ∀ n < (topologyScript delta).length, StopsBefore Γ s.tick n → TopologyIdle s.store delta n) ∧
    (AtomicRefresh (refreshCoverageGaps Γ delta) s
        (fun db => ReplacesEdges COVERAGE_GAP_RUN_ID delta s.store db ∧ GapsExactly delta db) ↔
      ((∀ i < (coverageGapsScript delta).length, Γ.fails (s.tick + i) = false) → GapsLast delta) ∧
        ∀ n < (coverageGapsScript delta).length, StopsBefore Γ s.tick n → GapsIdle s.store delta n) := by
  have hunique := h.unique
  have hlength := writeDelta_length TOPOLOGY_RUN_ID delta
  have hlength' := writeDelta_length COVERAGE_GAP_RUN_ID delta
  refine ⟨?topology, ?gaps⟩
  case topology =>
    refine (atomicRefresh_iff runAll_topologyScript).trans (and_congr (imp_congr_right fun _ => ?_) ?_)
    · have hend : topologyUpTo delta s.store (topologyScript delta).length = written TOPOLOGY_RUN_ID delta
          (delta.nodes.length + delta.edges.length) { s.store with graphEdges := s.store.edgesBeside TOPOLOGY_RUN_ID } := by
        rw [topologyScript, List.length_cons, hlength, topologyUpTo]
      rw [hend, and_iff_right (written_edges rfl (Nat.le_refl _))]
      refine declaresExactly_iff ?_
      rw [written, List.take_of_length_le (Nat.le_add_right _ _)]
    · exact forall₃_congr fun n _ _ => topologyUpTo_same hunique
  case gaps =>
    refine (atomicRefresh_iff runAll_coverageGapsScript).trans (and_congr (imp_congr_right fun _ => ?_) ?_)
    · have hend : gapsUpTo delta s.store (coverageGapsScript delta).length = written COVERAGE_GAP_RUN_ID delta
          (delta.nodes.length + delta.edges.length)
          { s.store with
            graphNodes := s.store.graphNodes.filter (·.kind ≠ .coverageGap)
            graphEdges := s.store.edgesBeside COVERAGE_GAP_RUN_ID } := by
        rw [coverageGapsScript, List.length_cons, List.length_cons, hlength', gapsUpTo]
      rw [hend, and_iff_right (written_edges rfl (Nat.le_refl _))]
      refine @gapsExactly_iff s.store delta _ ?_
      rw [written, List.take_of_length_le (Nat.le_add_right _ _)]
    · exact forall₃_congr fun n _ _ => gapsUpTo_same hunique

/-- An interface and the database it depends on, and the interface alone. -/
def apiOverDb : TopologyDoc := ⟨[{ name := "api", dependsOn := ["db"], owner := some "core" }, { name := "db" }]⟩

def apiAlone : TopologyDoc := ⟨[{ name := "api", owner := some "core" }]⟩

theorem refresh_atomic_fresh :
    AtomicRefresh (refreshTopology Db.calm (topologyDelta apiOverDb)) ⟨{}, 0⟩
      (fun db => ReplacesEdges TOPOLOGY_RUN_ID (topologyDelta apiOverDb) {} db ∧ DeclaresExactly (topologyDelta apiOverDb) db) ∧
    AtomicRefresh (refreshCoverageGaps Db.calm (coverageGapDelta [⟨"net", "drop"⟩] [])) ⟨{}, 0⟩
      (fun db => ReplacesEdges COVERAGE_GAP_RUN_ID (coverageGapDelta [⟨"net", "drop"⟩] []) {} db ∧
        GapsExactly (coverageGapDelta [⟨"net", "drop"⟩] []) db) := by
  have hopened : GraphReached Db.calm bareIngestCtx ⟨{}, 0⟩ := .opened [] List.nodup_nil 0
  have hnames : NamesDeclared {} (topologyDelta apiOverDb) :=
    .of_unique (topologyDelta_unique (by decide)) fun node hnode => nomatch hnode
  refine ⟨(refresh_atomic_iff hopened _).1.mpr ⟨fun _ => hnames, fun n _ hstops => nomatch hstops.1⟩,
    (refresh_atomic_iff hopened _).2.mpr ⟨fun _ => gapsLast_of_unique (coverageGapDelta_unique _ _),
      fun n _ hstops => nomatch hstops.1⟩⟩

/-- After a document of two services, one that names only the first leaves the second declared; and importing the first document
again, refused at its second statement, reports an error with its edges gone. -/
theorem refresh_atomic_false :
    (∃ s, GraphReached Db.calm bareIngestCtx s ∧ ¬ AtomicRefresh (refreshTopology Db.calm (topologyDelta apiAlone)) s
      fun db => ReplacesEdges TOPOLOGY_RUN_ID (topologyDelta apiAlone) s.store db ∧ DeclaresExactly (topologyDelta apiAlone) db) ∧
    ∃ s, GraphReached (Db.crashAt 5) bareIngestCtx s ∧ ¬ AtomicRefresh (refreshTopology (Db.crashAt 5) (topologyDelta apiOverDb)) s
      fun db => ReplacesEdges TOPOLOGY_RUN_ID (topologyDelta apiOverDb) s.store db ∧
        DeclaresExactly (topologyDelta apiOverDb) db := by
  refine ⟨⟨_, .call (.refreshTopology (topologyDelta apiOverDb)) (.opened [] List.nodup_nil 0), fun h => ?_⟩,
    ⟨_, .call (.refreshTopology (topologyDelta apiOverDb)) (.opened [] List.nodup_nil 0), fun h => ?_⟩⟩
  · have hexact := (h.1 _ rfl).2 ("svc:db", none, none)
    obtain ⟨node, hnode, hx⟩ := hexact.mp ⟨TopologyService.node { name := "db" }, List.mem_cons_of_mem _ List.mem_cons_self, rfl⟩
    have hid := (declaration?_some hx).2
    rw [topologyDelta_nodes] at hnode
    obtain rfl := List.mem_singleton.mp hnode
    exact absurd hid (by decide)
  · have hsame := h.2 _ _ rfl
    have hlength := hsame.2.length_eq
    exact absurd hlength (by decide)

end Tumult
