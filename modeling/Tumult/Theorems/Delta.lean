import Tumult.Graph.Map

/-!
# Integrity of a delta

No node and no edge of a delta occurs twice, and both endpoints of an edge are nodes of the delta, an article's endpoint excepted.
The deviation's attributions are pushed before the faults they point at; each of them is a fault the later passes push.
-/

namespace Tumult

variable {Γ : MapCtx} {b : Builder} {owed : String → Prop}

/-- A node with this id was pushed. -/
def Builder.Has (b : Builder) (id : String) : Prop := ∃ node ∈ b.nodes, node.id = id

/-- An edge to a compliance article that some requirement names. -/
def Edge.ToArticle (Γ : MapCtx) (e : Edge) : Prop :=
  (e.rel = .mapsToCompliance ∨ e.rel = .evidences) ∧
    ∃ framework requirement citation, Γ.resolveCitation framework requirement = some citation ∧
      e.dst = complianceArticleId citation.framework citation.controlId

/-- Nodes and edges have each their key once, and the endpoints of an edge are nodes, articles excepted and the nodes that are still
owed. -/
structure Builder.Sound (Γ : MapCtx) (owed : String → Prop) (b : Builder) : Prop where
  nodes : (b.nodes.map (·.id)).Nodup
  edges : (b.edges.map fun e => (e.src, e.rel, e.dst)).Nodup
  src : ∀ e ∈ b.edges, b.Has e.src
  dst : ∀ e ∈ b.edges, b.Has e.dst ∨ owed e.dst ∨ e.ToArticle Γ

/-- One builder has the nodes of another. -/
def Builder.Extends (b b' : Builder) : Prop := ∀ id, b.Has id → b'.Has id

namespace Builder

theorem Extends.refl (b : Builder) : b.Extends b := fun _ h => h

theorem Extends.trans {b b' b'' : Builder} (h : b.Extends b') (h' : b'.Extends b'') : b.Extends b'' := fun id hid => h' id (h id hid)

/-! ## Pushing -/

theorem extends_pushNode (node : Node) : b.Extends (b.pushNode node) := by
  rintro id ⟨n, hn, hid⟩
  unfold pushNode
  split
  · exact ⟨n, hn, hid⟩
  · exact ⟨n, List.mem_append_left _ hn, hid⟩

theorem has_pushNode (node : Node) : (b.pushNode node).Has node.id := by
  unfold pushNode
  split
  · next h =>
    obtain ⟨n, hn, hid⟩ := List.any_eq_true.mp h
    exact ⟨n, hn, by simpa using hid⟩
  · exact ⟨node, by simp, rfl⟩

@[simp] theorem nodes_pushEdgeWithAttrs (src : String) (rel : EdgeRel) (dst : String) (attrs : Attrs) :
    (b.pushEdgeWithAttrs src rel dst attrs).nodes = b.nodes := by
  unfold pushEdgeWithAttrs
  split <;> rfl

theorem extends_pushEdgeWithAttrs (src : String) (rel : EdgeRel) (dst : String) (attrs : Attrs) :
    b.Extends (b.pushEdgeWithAttrs src rel dst attrs) := by
  rintro id ⟨n, hn, hid⟩
  exact ⟨n, by rwa [nodes_pushEdgeWithAttrs], hid⟩

theorem extends_pushEdge (src : String) (rel : EdgeRel) (dst : String) : b.Extends (b.pushEdge src rel dst) :=
  extends_pushEdgeWithAttrs src rel dst []

theorem Sound.pushNode (h : b.Sound Γ owed) (node : Node) : (b.pushNode node).Sound Γ owed := by
  have hext : b.Extends (b.pushNode node) := extends_pushNode node
  refine ⟨?_, by rw [pushNode_edges]; exact h.edges, fun e he => ?_, fun e he => ?_⟩
  · unfold Builder.pushNode
    split
    · exact h.nodes
    · next hnew =>
      rw [List.map_append, List.map_singleton]
      refine h.nodes.append (List.nodup_singleton _) ?_
      rw [List.disjoint_singleton]
      intro hmem
      obtain ⟨n, hn, hid⟩ := List.mem_map.mp hmem
      exact hnew (List.any_eq_true.mpr ⟨n, hn, by simpa using hid⟩)
  · rw [pushNode_edges] at he
    exact hext _ (h.src e he)
  · rw [pushNode_edges] at he
    exact (h.dst e he).imp_left (hext _)

/-- An edge between nodes, to a node that is owed, or to an article. -/
theorem Sound.pushEdgeWithAttrs (h : b.Sound Γ owed) {src dst : String} (rel : EdgeRel) (attrs : Attrs) (hsrc : b.Has src)
    (hdst : b.Has dst ∨ owed dst ∨ Edge.ToArticle Γ ⟨src, rel, dst, attrs⟩) : (b.pushEdgeWithAttrs src rel dst attrs).Sound Γ owed := by
  unfold Builder.pushEdgeWithAttrs
  split
  · exact h
  next hnew =>
  refine ⟨h.nodes, ?_, fun e he => ?_, fun e he => ?_⟩
  · rw [List.map_append, List.map_singleton]
    refine h.edges.append (List.nodup_singleton _) ?_
    rw [List.disjoint_singleton]
    intro hmem
    obtain ⟨e, he, hkey⟩ := List.mem_map.mp hmem
    exact hnew (List.any_eq_true.mpr ⟨e, he, by simpa [and_assoc] using hkey⟩)
  · rcases List.mem_append.mp he with he | he
    · exact h.src e he
    · rw [List.mem_singleton.mp he]
      exact hsrc
  · rcases List.mem_append.mp he with he | he
    · exact h.dst e he
    · rw [List.mem_singleton.mp he]
      exact hdst

/-- An edge between nodes, or to a node that is owed. -/
theorem Sound.pushEdge (h : b.Sound Γ owed) {src dst : String} (rel : EdgeRel) (hsrc : b.Has src) (hdst : b.Has dst ∨ owed dst) :
    (b.pushEdge src rel dst).Sound Γ owed :=
  h.pushEdgeWithAttrs rel [] hsrc (hdst.imp_right Or.inl)

/-- Pushing for each item of a list keeps what pushing for one keeps, while the nodes stay. -/
theorem foldl_sound {α : Type} {f : Builder → α → Builder} {id : String} (as : List α)
    (hf : ∀ b : Builder, ∀ a ∈ as, b.Sound Γ owed → b.Has id → (f b a).Sound Γ owed ∧ b.Extends (f b a)) (h : b.Sound Γ owed)
    (hid : b.Has id) : (as.foldl f b).Sound Γ owed ∧ b.Extends (as.foldl f b) := by
  induction as generalizing b with
  | nil => exact ⟨h, Extends.refl b⟩
  | cons a as ih =>
    obtain ⟨hsound, hext⟩ := hf b a List.mem_cons_self h hid
    obtain ⟨hrest, hext'⟩ := ih (fun b a' ha' => hf b a' (List.mem_cons_of_mem _ ha')) hsound (hext id hid)
    exact ⟨hrest, hext.trans hext'⟩

/-- What pushing for one item leaves is there at the end. -/
theorem foldl_has {α : Type} {f : Builder → α → Builder} {id : String} {as : List α} {a : α} (ha : a ∈ as)
    (hext : ∀ (b : Builder) (a : α), b.Extends (f b a)) (hself : ∀ b, (f b a).Has id) : (as.foldl f b).Has id := by
  have hkeep : ∀ (as : List α) (b : Builder), b.Has id → (as.foldl f b).Has id := by
    intro as
    induction as with
    | nil => exact fun _ h => h
    | cons a' as ih => exact fun b h => ih (f b a') (hext b a' id h)
  induction as generalizing b with
  | nil => exact absurd ha List.not_mem_nil
  | cons a' as ih =>
    rcases List.mem_cons.mp ha with rfl | ha
    · exact hkeep as _ (hself b)
    · exact ih ha

end Builder

/-! ## The passes -/

variable {journal : Journal} {experiment : Option Experiment} {expId : String}

theorem extends_mapActivity (b : Builder) (activity : Activity) : b.Extends (mapActivity Γ expId b activity) := by
  unfold mapActivity
  split
  · exact Builder.Extends.refl b
  dsimp only
  have hfault : ∀ node src rel dst, b.Extends ((b.pushNode node).pushEdge src rel dst) :=
    fun _ _ _ _ => (Builder.extends_pushNode _).trans (Builder.extends_pushEdge _ _ _)
  split
  · exact hfault _ _ _ _
  · intro id hid
    refine Builder.extends_pushEdge _ _ _ _ (Builder.extends_pushEdge _ _ _ _ (Builder.extends_pushNode _ _ ?_))
    exact hfault _ _ _ _ id hid

/-- An action leaves the node of its fault. -/
theorem has_mapActivity (b : Builder) {activity : Activity} (h : activity.activityType = .action) :
    (mapActivity Γ expId b activity).Has activity.faultId := by
  unfold mapActivity
  rw [if_neg (by simp [h])]
  have hfault : ∀ id, ((b.pushNode ⟨activity.faultId, .fault, activity.faultLabel, activity.faultAttrs⟩).pushEdge expId .injects
      id).Has activity.faultId := fun id => Builder.extends_pushEdge _ _ _ _ (Builder.has_pushNode _)
  dsimp only
  split
  · exact hfault _
  · exact Builder.extends_pushEdge _ _ _ _ (Builder.extends_pushEdge _ _ _ _ (Builder.extends_pushNode _ _ (hfault _)))

theorem Builder.Sound.mapActivity (h : b.Sound Γ owed) (hexp : b.Has expId) (activity : Activity) :
    (mapActivity Γ expId b activity).Sound Γ owed := by
  unfold Tumult.mapActivity
  split
  · exact h
  dsimp only
  have hnode := h.pushNode ⟨activity.faultId, .fault, activity.faultLabel, activity.faultAttrs⟩
  have hfault := hnode.pushEdge .injects (Builder.extends_pushNode _ _ hexp) (Or.inl (Builder.has_pushNode _))
  split
  · exact hfault
  next service _ =>
  have hservice := hfault.pushNode ⟨"svc:" ++ service, .service, service, []⟩
  have htargets := hservice.pushEdge .targets
    (Builder.extends_pushNode _ _ (Builder.extends_pushEdge _ _ _ _ (Builder.extends_pushNode _ _ hexp)))
    (Or.inl (Builder.has_pushNode _))
  refine htargets.pushEdge .observedOn ?_ (Or.inl (Builder.extends_pushEdge _ _ _ _ (Builder.has_pushNode _)))
  exact Builder.extends_pushEdge _ _ _ _ (Builder.extends_pushNode _ _
    (Builder.extends_pushEdge _ _ _ _ (Builder.has_pushNode _)))

theorem Builder.Sound.mapRequirement (h : b.Sound Γ owed) (hexp : b.Has expId) (completed : Bool) (framework : String)
    (requirement : RegulatoryRequirement) :
    (mapRequirement Γ expId completed b framework requirement).Sound Γ owed ∧
      b.Extends (mapRequirement Γ expId completed b framework requirement) := by
  unfold Tumult.mapRequirement
  split
  · exact ⟨h, Builder.Extends.refl b⟩
  next citation hcitation =>
  dsimp only
  have hmaps := h.pushEdgeWithAttrs .mapsToCompliance [("strength", .text citation.strength), ("framework", .text citation.framework),
    ("control_id", .text citation.controlId)] hexp
    (Or.inr (Or.inr ⟨Or.inl rfl, framework, requirement.id, citation, hcitation, rfl⟩))
  split
  · refine ⟨hmaps.pushEdgeWithAttrs _ _ (Builder.extends_pushEdgeWithAttrs _ _ _ _ _ hexp)
      (Or.inr (Or.inr ⟨Or.inr rfl, framework, requirement.id, citation, hcitation, rfl⟩)), ?_⟩
    exact (Builder.extends_pushEdgeWithAttrs _ _ _ _).trans (Builder.extends_pushEdgeWithAttrs _ _ _ _)
  · exact ⟨hmaps, Builder.extends_pushEdgeWithAttrs _ _ _ _⟩

theorem Builder.Sound.mapCompliance (h : b.Sound Γ owed) (hexp : b.Has expId) (mapping : RegulatoryMapping) (completed : Bool) :
    (mapCompliance Γ b expId mapping completed).Sound Γ owed ∧ b.Extends (mapCompliance Γ b expId mapping completed) :=
  Builder.foldl_sound _ (fun _ framework _ h hexp =>
    Builder.foldl_sound _ (fun _ requirement _ h hexp => h.mapRequirement hexp completed framework requirement) h hexp) h hexp

/-- A result of an action, without the definition. -/
theorem Builder.Sound.mapFromJournal (h : b.Sound Γ owed) (hexp : b.Has expId) : (mapFromJournal b expId journal).Sound Γ owed := by
  refine (Builder.foldl_sound _ (fun b result _ h hexp => ?_) h hexp).1
  split
  · exact ⟨h, Builder.Extends.refl b⟩
  · exact ⟨(h.pushNode _).pushEdge .injects (Builder.extends_pushNode _ _ hexp) (Or.inl (Builder.has_pushNode _)),
      (Builder.extends_pushNode _).trans (Builder.extends_pushEdge _ _ _)⟩

theorem extends_mapFromJournal : b.Extends (mapFromJournal b expId journal) := by
  unfold mapFromJournal
  generalize journal.methodResults = results
  induction results generalizing b with
  | nil => exact Builder.Extends.refl b
  | cons result rest ih =>
    rw [List.foldl_cons]
    refine Builder.Extends.trans ?_ ih
    split
    · exact Builder.Extends.refl b
    · exact (Builder.extends_pushNode _).trans (Builder.extends_pushEdge _ _ _)

/-- A result of an action leaves the node of its fault, without the definition. -/
theorem has_mapFromJournal {result : ActivityResult} (hresult : result ∈ journal.methodResults)
    (h : result.activityType = .action) : (mapFromJournal b expId journal).Has ("fault:" ++ result.name) := by
  unfold mapFromJournal
  refine Builder.foldl_has hresult (fun b result => ?_) fun b => ?_
  · split
    · exact Builder.Extends.refl b
    · exact (Builder.extends_pushNode _).trans (Builder.extends_pushEdge _ _ _)
  · rw [if_neg (by simp [h])]
    exact Builder.extends_pushEdge _ _ _ _ (Builder.has_pushNode _)

/-- An attribution of a deviation is owed by the faults of the run. -/
theorem Builder.Sound.mapDeviation {runId : String} (h : b.Sound Γ owed) (hrun : b.Has runId) (experiment : Option Experiment)
    (howed : ∀ id ∈ (deviationDetail journal experiment).causedByFaultIds, owed id) :
    (mapDeviation b runId journal experiment).Sound Γ owed ∧ b.Extends (mapDeviation b runId journal experiment) := by
  unfold Tumult.mapDeviation
  split
  · exact ⟨h, Builder.Extends.refl b⟩
  dsimp only
  have hexhibited := (h.pushNode ⟨"dev:" ++ journal.experimentId, .deviation, journal.status.toString,
    (deviationDetail journal experiment).attrs⟩).pushEdge .exhibited (Builder.extends_pushNode _ _ hrun)
    (Or.inl (Builder.has_pushNode _))
  have hcaused := Builder.foldl_sound (f := fun b faultId => b.pushEdge ("dev:" ++ journal.experimentId) .causedBy faultId)
    (deviationDetail journal experiment).causedByFaultIds
    (fun b id hid h hdev => ⟨h.pushEdge .causedBy hdev (Or.inr (howed id hid)), Builder.extends_pushEdge _ _ _⟩) hexhibited
    (Builder.extends_pushEdge _ _ _ _ (Builder.has_pushNode _))
  exact ⟨hcaused.1, (Builder.extends_pushNode _).trans ((Builder.extends_pushEdge _ _ _).trans hcaused.2)⟩

/-! ## The delta -/

/-- The passes over the definition, or over the results without one. -/
def mapFaults (Γ : MapCtx) (b : Builder) (expId : String) (journal : Journal) (experiment : Option Experiment) : Builder :=
  experiment.elim (mapFromJournal b expId journal) (mapFromExperiment Γ b expId)

theorem extends_mapFaults : b.Extends (mapFaults Γ b expId journal experiment) := by
  cases experiment with
  | none => exact extends_mapFromJournal
  | some definition =>
    change b.Extends (definition.method.foldl (mapActivity Γ expId) b)
    generalize definition.method = activities
    induction activities generalizing b with
    | nil => exact Builder.Extends.refl b
    | cons activity rest ih => exact (extends_mapActivity b activity).trans ih

theorem Builder.Sound.mapFaults (h : b.Sound Γ owed) (hexp : b.Has expId) (journal : Journal) (experiment : Option Experiment) :
    (mapFaults Γ b expId journal experiment).Sound Γ owed := by
  cases experiment with
  | none => exact h.mapFromJournal hexp
  | some definition =>
    exact (Builder.foldl_sound definition.method
      (fun b activity _ h hexp => ⟨h.mapActivity hexp activity, extends_mapActivity b activity⟩) h hexp).1

/-- The fault that an injected action is keyed under is a node of the passes. -/
theorem has_mapFaults {result : ActivityResult} {id : String} (hresult : result ∈ journal.methodResults)
    (haction : result.activityType = .action) (hid : faultIdForAction result.name experiment = some id) :
    (mapFaults Γ b expId journal experiment).Has id := by
  cases experiment with
  | none =>
    obtain rfl : "fault:" ++ result.name = id := by simpa [faultIdForAction] using hid
    exact has_mapFromJournal hresult haction
  | some definition =>
    obtain ⟨activity, hfind, rfl⟩ := Option.map_eq_some_iff.mp hid
    have hkind : activity.activityType = .action ∧ activity.name = result.name := by simpa using List.find?_some hfind
    exact Builder.foldl_has (List.mem_of_find?_eq_some hfind) extends_mapActivity fun b => has_mapActivity b hkind.1

/-- Every attribution of a deviation points at the fault of an action that has a result. -/
theorem causedBy_of_result {id : String} (h : id ∈ (deviationDetail journal experiment).causedByFaultIds) :
    ∃ result ∈ journal.methodResults, result.activityType = .action ∧ faultIdForAction result.name experiment = some id := by
  have hinjected : id ∈ injectedFaultIds journal experiment →
      ∃ result ∈ journal.methodResults, result.activityType = .action ∧ faultIdForAction result.name experiment = some id := by
    intro hid
    obtain ⟨result, hresult, hfault⟩ := List.mem_filterMap.mp (mem_sortDedup.mp hid)
    obtain ⟨hmem, haction⟩ := List.mem_filter.mp hresult
    exact ⟨result, hmem, by simpa using haction, hfault⟩
  rcases mem_causedByFaultIds.mp h with ⟨name, hname, hfault⟩ | ⟨-, -, hsole⟩
  · obtain ⟨result, hresult, rfl⟩ := List.mem_map.mp hname
    obtain ⟨hmem, hfailed⟩ := List.mem_filter.mp hresult
    simp only [Bool.and_eq_true, decide_eq_true_eq] at hfailed
    exact ⟨result, hmem, hfailed.1, hfault⟩
  · exact hinjected (by rw [hsole]; exact List.mem_singleton.mpr rfl)

/-- The experiment, the run and its deviation. -/
def mapRun (journal : Journal) (experiment : Option Experiment) : Builder :=
  let b : Builder := {}
  let b := b.pushNode ⟨"exp:" ++ journal.experimentTitle, .experiment, journal.experimentTitle, []⟩
  let b := b.pushNode ⟨"run:" ++ journal.experimentId, .journal, journal.status.toString,
    [("status", .text journal.status.toString), ("started_at_ns", .number journal.startedAtNs),
      ("duration_ms", .number journal.durationMs)]⟩
  let b := b.pushEdge ("exp:" ++ journal.experimentTitle) .yielded ("run:" ++ journal.experimentId)
  mapDeviation b ("run:" ++ journal.experimentId) journal experiment

/-- The delta is that of the run, then of its faults, then of its articles. -/
theorem journalToGraph_eq : journalToGraph Γ journal experiment =
    Builder.finish (((experiment.bind (·.regulatory)).or journal.regulatory).elim
      (mapFaults Γ (mapRun journal experiment) ("exp:" ++ journal.experimentTitle) journal experiment) fun mapping =>
        mapCompliance Γ (mapFaults Γ (mapRun journal experiment) ("exp:" ++ journal.experimentTitle) journal experiment)
          ("exp:" ++ journal.experimentTitle) mapping (decide (journal.status = .completed))) := by
  unfold journalToGraph
  generalize (experiment.bind (·.regulatory)).or journal.regulatory = mapping
  cases mapping <;> cases experiment <;> rfl

/-- Up to the deviation, only its attributions are owed. -/
theorem mapRun_sound (Γ : MapCtx) (journal : Journal) (experiment : Option Experiment) : (mapRun journal experiment).Sound Γ
    (fun id => id ∈ (deviationDetail journal experiment).causedByFaultIds) ∧
      (mapRun journal experiment).Has ("exp:" ++ journal.experimentTitle) := by
  have hempty : ({} : Builder).Sound Γ (fun id => id ∈ (deviationDetail journal experiment).causedByFaultIds) :=
    ⟨List.nodup_nil, List.nodup_nil, by simp, by simp⟩
  have hexp := hempty.pushNode ⟨"exp:" ++ journal.experimentTitle, .experiment, journal.experimentTitle, []⟩
  have hrun := hexp.pushNode ⟨"run:" ++ journal.experimentId, .journal, journal.status.toString,
    [("status", .text journal.status.toString), ("started_at_ns", .number journal.startedAtNs),
      ("duration_ms", .number journal.durationMs)]⟩
  have hyielded := hrun.pushEdge .yielded (Builder.extends_pushNode _ _ (Builder.has_pushNode _))
    (Or.inl (Builder.has_pushNode _))
  obtain ⟨hdeviation, hext⟩ := hyielded.mapDeviation
    (Builder.extends_pushEdge _ _ _ _ (Builder.has_pushNode _)) experiment fun _ hid => hid
  exact ⟨hdeviation, hext _ (Builder.extends_pushEdge _ _ _ _ (Builder.extends_pushNode _ _ (Builder.has_pushNode _)))⟩

/-- A delta without duplicates whose edges are between its nodes, articles excepted. -/
structure GraphDelta.Integral (Γ : MapCtx) (delta : GraphDelta) : Prop where
  nodes : (delta.nodes.map (·.id)).Nodup
  edges : (delta.edges.map fun e => (e.src, e.rel, e.dst)).Nodup
  src : ∀ e ∈ delta.edges, ∃ node ∈ delta.nodes, node.id = e.src
  dst : ∀ e ∈ delta.edges, (∃ node ∈ delta.nodes, node.id = e.dst) ∨ e.ToArticle Γ

/-- What the deviation owed has been pushed. -/
theorem Builder.Sound.finish (h : b.Sound Γ owed) (howed : ∀ id, owed id → b.Has id) : b.finish.Integral Γ := by
  refine ⟨h.nodes, h.edges, h.src, fun e he => ?_⟩
  rcases h.dst e he with hnode | howe | harticle
  · exact Or.inl hnode
  · exact Or.inl (howed _ howe)
  · exact Or.inr harticle

/-- The delta of every journal, with or without the definition: no node and no edge twice, and both endpoints of an edge are nodes,
except the article of an edge to an article. -/
theorem journalToGraph_integral (Γ : MapCtx) (journal : Journal) (experiment : Option Experiment) :
    (journalToGraph Γ journal experiment).Integral Γ := by
  obtain ⟨hrun, hexp⟩ := mapRun_sound Γ journal experiment
  have hfaults := hrun.mapFaults hexp journal experiment
  -- the faults pay what the deviation owes
  have hpaid : ∀ id ∈ (deviationDetail journal experiment).causedByFaultIds,
      (mapFaults Γ (mapRun journal experiment) ("exp:" ++ journal.experimentTitle) journal experiment).Has id := by
    intro id hid
    obtain ⟨result, hresult, haction, hfault⟩ := causedBy_of_result hid
    exact has_mapFaults hresult haction hfault
  rw [journalToGraph_eq]
  cases (experiment.bind (·.regulatory)).or journal.regulatory with
  | none => exact hfaults.finish hpaid
  | some mapping =>
    obtain ⟨hcompliance, hext⟩ := hfaults.mapCompliance (extends_mapFaults _ hexp) mapping (decide (journal.status = .completed))
    exact hcompliance.finish fun id hid => hext id (hpaid id hid)

end Tumult
