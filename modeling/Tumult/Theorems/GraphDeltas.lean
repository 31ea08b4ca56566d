import Tumult.Graph.Topology

/-!
# What a topology and the untested actions become in the graph

A document passes when its normalised names are apart and its dependencies are among them. The graph that it is turned into is closed:
every dependency is one edge, between two of the nodes. So is the graph of the coverage gaps, which has a gap for the untested actions
and no others.
-/

namespace Tumult

/-! ## Documents that pass -/

theorem firstDuplicate_of_nodup {seen names : List String} (h : names.Nodup) (hseen : ∀ name ∈ names, name ∉ seen) :
    firstDuplicate seen names = none := by
  induction names generalizing seen with
  | nil => rfl
  | cons name names ih =>
    obtain ⟨hname, hnames⟩ := List.nodup_cons.mp h
    rw [firstDuplicate, if_neg (hseen name List.mem_cons_self)]
    refine ih hnames fun other hother hin => ?_
    rcases List.mem_cons.mp hin with rfl | hin
    · exact hname hother
    · exact hseen other (List.mem_cons_of_mem _ hother) hin

theorem firstUnknown_eq_none_iff {names : List String} {services : List TopologyService} :
    firstUnknown names services = none ↔ ∀ service ∈ services, ∀ dependency ∈ service.dependsOn, dependency ∈ names := by
  simp [firstUnknown]

/-- A document passes exactly when it has a service, no two of its services have one name, and every dependency is a service of it. -/
theorem validateTopology_ok_iff {normalizeService : String → String} {doc doc' : TopologyDoc} :
    validateTopology normalizeService doc = .ok doc' ↔
      doc.services ≠ [] ∧ doc'.services = doc.services.map (·.normalized normalizeService) ∧ (doc'.services.map (·.name)).Nodup ∧
        ∀ service ∈ doc'.services, ∀ dependency ∈ service.dependsOn, dependency ∈ doc'.services.map (·.name) := by
  constructor
  · intro h
    have hunique := validateTopology_unique h
    unfold validateTopology at h
    split at h
    · nomatch h
    · next hne =>
      dsimp only at h
      split at h
      · nomatch h
      · split at h
        · nomatch h
        · next hknown =>
          obtain rfl := Except.ok.inj h
          exact ⟨hne, rfl, hunique, firstUnknown_eq_none_iff.mp hknown⟩
  · rintro ⟨hne, hservices, hunique, hknown⟩
    obtain ⟨services⟩ := doc'
    obtain rfl := hservices
    unfold validateTopology
    rw [if_neg hne]
    dsimp only
    rw [firstDuplicate_of_nodup hunique fun _ _ => List.not_mem_nil, firstUnknown_eq_none_iff.mpr hknown]

/-! ## Edges of one relation -/

/-- The edges of a builder join some pairs, each once. -/
structure Builder.Joins (b : Builder) (rel : EdgeRel) (pairs : List (String × String)) : Prop where
  apart : (b.edges.map fun e => (e.src, e.dst)).Nodup
  mem_iff : ∀ e, e ∈ b.edges ↔ ∃ p ∈ pairs, e = ⟨p.1, rel, p.2, []⟩

section

variable {b : Builder} {rel : EdgeRel} {pairs : List (String × String)}

theorem Builder.joins_nil (rel : EdgeRel) : ({} : Builder).Joins rel [] := ⟨List.nodup_nil, fun e => by simp⟩

theorem Builder.Joins.of_edges {b' : Builder} (h : b.Joins rel pairs) (hedges : b'.edges = b.edges) : b'.Joins rel pairs :=
  ⟨hedges ▸ h.apart, hedges ▸ h.mem_iff⟩

/-- One more pair is joined, if it was not joined before. -/
theorem Builder.Joins.pushEdge (h : b.Joins rel pairs) (src dst : String) : (b.pushEdge src rel dst).Joins rel (pairs ++ [(src, dst)]) := by
  have hsame {e : Edge} (he : e ∈ b.edges) (hsrc : e.src = src) (hdst : e.dst = dst) : e = ⟨src, rel, dst, []⟩ := by
    obtain ⟨p, -, rfl⟩ := (h.mem_iff e).mp he
    rw [← hsrc, ← hdst]
  unfold Builder.pushEdge Builder.pushEdgeWithAttrs
  split
  · next hany =>
    obtain ⟨e, he, hkey⟩ := List.any_eq_true.mp hany
    obtain ⟨⟨hsrc, -⟩, hdst⟩ : (e.src = src ∧ e.rel = rel) ∧ e.dst = dst := by simpa using hkey
    refine ⟨h.apart, fun e' => ?_⟩
    rw [h.mem_iff]
    constructor
    · rintro ⟨p, hp, rfl⟩
      exact ⟨p, List.mem_append_left _ hp, rfl⟩
    · rintro ⟨p, hp, rfl⟩
      rcases List.mem_append.mp hp with hp | hp
      · exact ⟨p, hp, rfl⟩
      · obtain rfl := List.mem_singleton.mp hp
        exact (h.mem_iff _).mp (hsame he hsrc hdst ▸ he)
  · next hnone =>
    refine ⟨?_, fun e' => ?_⟩
    · rw [List.map_append, List.nodup_append']
      refine ⟨h.apart, List.nodup_singleton _, fun key hkey hlast => ?_⟩
      obtain rfl := List.mem_singleton.mp hlast
      obtain ⟨e, he, heq⟩ := List.mem_map.mp hkey
      obtain ⟨hsrc, hdst⟩ := Prod.mk.inj heq
      refine hnone (List.any_eq_true.mpr ⟨e, he, ?_⟩)
      rw [hsame he hsrc hdst]
      simp
    · rw [List.mem_append, h.mem_iff, List.mem_singleton]
      constructor
      · rintro (⟨p, hp, rfl⟩ | rfl)
        · exact ⟨p, List.mem_append_left _ hp, rfl⟩
        · exact ⟨(src, dst), List.mem_append_right _ (List.mem_singleton_self _), rfl⟩
      · rintro ⟨p, hp, rfl⟩
        rcases List.mem_append.mp hp with hp | hp
        · exact .inl ⟨p, hp, rfl⟩
        · obtain rfl := List.mem_singleton.mp hp
          exact .inr rfl

/-- Whatever joins some pairs for each item of a list joins those of all of them (induction on the list). -/
theorem Builder.Joins.foldl {α : Type} {f : Builder → α → Builder} {added : α → List (String × String)}
    (hf : ∀ b pairs a, b.Joins rel pairs → (f b a).Joins rel (pairs ++ added a)) (h : b.Joins rel pairs) (as : List α) :
    (as.foldl f b).Joins rel (pairs ++ as.flatMap added) := by
  induction as generalizing b pairs with
  | nil => exact (List.append_nil pairs).symm ▸ h
  | cons a as ih =>
    rw [List.flatMap_cons, ← List.append_assoc]
    exact ih (hf b pairs a h)

end

/-! ## The declared topology -/

/-- The pairs that a service joins: itself and each of its dependencies. -/
def TopologyService.pairs (service : TopologyService) : List (String × String) :=
  service.dependsOn.flatMap fun dependency => [("svc:" ++ service.name, "svc:" ++ dependency)]

theorem Builder.Joins.declareService {b : Builder} {pairs : List (String × String)} (h : b.Joins .dependsOn pairs)
    (service : TopologyService) : (Tumult.declareService b service).Joins .dependsOn (pairs ++ service.pairs) := by
  have hnode : Builder.Joins { b with nodes := b.nodes ++ [service.node] } .dependsOn pairs := h.of_edges rfl
  exact Builder.Joins.foldl (fun _ _ dependency h => h.pushEdge ("svc:" ++ service.name) ("svc:" ++ dependency)) hnode service.dependsOn

/-- A document that passes is turned into a closed graph: its nodes are those of its services, with identifiers that are apart; its
edges are those of its dependencies, each once; and every edge lies between two of the nodes. -/
theorem topologyDelta_closed {normalizeService : String → String} {doc doc' : TopologyDoc}
    (h : validateTopology normalizeService doc = .ok doc') :
    (topologyDelta doc').nodes = doc'.services.map (·.node) ∧ ((topologyDelta doc').nodes.map (·.id)).Nodup ∧
      ((topologyDelta doc').edges.map fun e => (e.src, e.dst)).Nodup ∧
      (∀ e, e ∈ (topologyDelta doc').edges ↔ ∃ service ∈ doc'.services, ∃ dependency ∈ service.dependsOn,
        e = ⟨"svc:" ++ service.name, .dependsOn, "svc:" ++ dependency, []⟩) ∧
      ∀ e ∈ (topologyDelta doc').edges,
        e.src ∈ (topologyDelta doc').nodes.map (·.id) ∧ e.dst ∈ (topologyDelta doc').nodes.map (·.id) := by
  obtain ⟨-, -, hunique, hknown⟩ := validateTopology_ok_iff.mp h
  have hjoins : (doc'.services.foldl declareService {}).Joins .dependsOn (doc'.services.flatMap TopologyService.pairs) :=
    Builder.Joins.foldl (fun _ _ service h => h.declareService service) (Builder.joins_nil .dependsOn) doc'.services
  have hedges : ∀ e, e ∈ (topologyDelta doc').edges ↔ ∃ service ∈ doc'.services, ∃ dependency ∈ service.dependsOn,
      e = ⟨"svc:" ++ service.name, .dependsOn, "svc:" ++ dependency, []⟩ := by
    intro e
    refine (hjoins.mem_iff e).trans ⟨?_, ?_⟩
    · rintro ⟨p, hp, rfl⟩
      obtain ⟨service, hservice, hp⟩ := List.mem_flatMap.mp hp
      obtain ⟨dependency, hdependency, hp⟩ := List.mem_flatMap.mp hp
      obtain rfl := List.mem_singleton.mp hp
      exact ⟨service, hservice, dependency, hdependency, rfl⟩
    · rintro ⟨service, hservice, dependency, hdependency, rfl⟩
      exact ⟨("svc:" ++ service.name, "svc:" ++ dependency), List.mem_flatMap.mpr ⟨service, hservice,
        List.mem_flatMap.mpr ⟨dependency, hdependency, List.mem_singleton_self _⟩⟩, rfl⟩
  have hnode {name : String} (hname : name ∈ doc'.services.map (·.name)) : "svc:" ++ name ∈ (topologyDelta doc').nodes.map (·.id) := by
    obtain ⟨service, hservice, rfl⟩ := List.mem_map.mp hname
    rw [topologyDelta_nodes, List.map_map]
    exact List.mem_map.mpr ⟨service, hservice, rfl⟩
  refine ⟨topologyDelta_nodes doc', topologyDelta_unique hunique, hjoins.apart, hedges, fun e he => ?_⟩
  obtain ⟨service, hservice, dependency, hdependency, rfl⟩ := (hedges e).mp he
  exact ⟨hnode (List.mem_map_of_mem hservice), hnode (hknown service hservice dependency hdependency)⟩

/-- A service that depends on another one under two spellings. -/
def spelledTopology : TopologyDoc := ⟨[⟨"api", ["DB", "db"], none, none⟩, ⟨"DB", [], some "ops", none⟩]⟩

/-- The same document under the names that are read. -/
def readTopology : TopologyDoc := ⟨[⟨"api", ["db", "db"], none, none⟩, ⟨"db", [], some "ops", none⟩]⟩

theorem topologyDelta_closed_spelled :
    ((topologyDelta readTopology).edges.map fun e => (e.src, e.dst)).Nodup ∧ (topologyDelta readTopology).edges.length = 1 :=
  ⟨(@topologyDelta_closed (fun name => if name = "DB" then "db" else name) spelledTopology readTopology rfl).2.2.1, by decide⟩

/-! ## The coverage gaps -/

/-- The identifiers of the gap of an action and of its domain. -/
def AvailableAction.pair (action : AvailableAction) : String × String :=
  ("gap:" ++ action.plugin ++ "::" ++ action.action, "domain:" ++ action.plugin)

theorem mem_ids_pushNode {b : Builder} {node : Node} {id : String} :
    id ∈ (b.pushNode node).nodes.map (·.id) ↔ id ∈ b.nodes.map (·.id) ∨ id = node.id := by
  unfold Builder.pushNode
  split
  · next hany =>
    obtain ⟨old, hold, hid⟩ := List.any_eq_true.mp hany
    refine ⟨.inl, ?_⟩
    rintro (hmem | rfl)
    · exact hmem
    · exact List.mem_map.mpr ⟨old, hold, of_decide_eq_true hid⟩
  · rw [List.map_append, List.mem_append, List.map_singleton, List.mem_singleton]

theorem Builder.Joins.pushGap {b : Builder} {pairs : List (String × String)} (h : b.Joins .gapIn pairs) (action : AvailableAction) :
    (Tumult.pushGap b action).Joins .gapIn (pairs ++ [action.pair]) :=
  (h.of_edges ((Builder.pushNode_edges _).trans (Builder.pushNode_edges _))).pushEdge action.pair.1 action.pair.2

/-- The nodes of some actions are their gaps and domains (induction on the actions). -/
theorem mem_ids_pushGaps {b : Builder} {id : String} (actions : List AvailableAction) :
    id ∈ (actions.foldl pushGap b).nodes.map (·.id) ↔
      id ∈ b.nodes.map (·.id) ∨ ∃ action ∈ actions, id = action.pair.1 ∨ id = action.pair.2 := by
  induction actions generalizing b with
  | nil => simp
  | cons action actions ih =>
    have hpush : id ∈ (pushGap b action).nodes.map (·.id) ↔ id ∈ b.nodes.map (·.id) ∨ id = action.pair.1 ∨ id = action.pair.2 := by
      unfold pushGap
      dsimp only
      rw [pushEdge_nodes, mem_ids_pushNode, mem_ids_pushNode, or_assoc, or_comm (a := id = "domain:" ++ action.plugin)]
      rfl
    simp only [List.foldl_cons, ih, hpush, List.mem_cons, exists_eq_or_imp, or_assoc]

/-- The graph of the coverage gaps is closed, and says which actions are untested: its nodes are the gaps and the domains of the
available actions that are not tested, with identifiers that are apart; its edges lead each gap to its domain, once. -/
theorem coverageGapDelta_closed (available : List AvailableAction) (testedActionNames : List String) :
    ((coverageGapDelta available testedActionNames).nodes.map (·.id)).Nodup ∧
    (∀ id, id ∈ (coverageGapDelta available testedActionNames).nodes.map (·.id) ↔
      ∃ action ∈ available, action.action ∉ testedActionNames ∧ (id = action.pair.1 ∨ id = action.pair.2)) ∧
    ((coverageGapDelta available testedActionNames).edges.map fun e => (e.src, e.dst)).Nodup ∧
    (∀ e, e ∈ (coverageGapDelta available testedActionNames).edges ↔
      ∃ action ∈ available, action.action ∉ testedActionNames ∧ e = ⟨action.pair.1, .gapIn, action.pair.2, []⟩) ∧
    ∀ e ∈ (coverageGapDelta available testedActionNames).edges,
      e.src ∈ (coverageGapDelta available testedActionNames).nodes.map (·.id) ∧
        e.dst ∈ (coverageGapDelta available testedActionNames).nodes.map (·.id) := by
  have hjoins : ((available.filter (·.action ∉ testedActionNames)).foldl pushGap {}).Joins .gapIn
      ((available.filter (·.action ∉ testedActionNames)).flatMap fun action => [action.pair]) :=
    Builder.Joins.foldl (fun _ _ action h => h.pushGap action) (Builder.joins_nil .gapIn) _
  have hnodes : ∀ id, id ∈ (coverageGapDelta available testedActionNames).nodes.map (·.id) ↔
      ∃ action ∈ available, action.action ∉ testedActionNames ∧ (id = action.pair.1 ∨ id = action.pair.2) := by
    intro id
    refine (mem_ids_pushGaps _).trans ?_
    simp only [List.map_nil, List.not_mem_nil, false_or, List.mem_filter, decide_eq_true_eq, and_assoc]
  have hedges : ∀ e, e ∈ (coverageGapDelta available testedActionNames).edges ↔
      ∃ action ∈ available, action.action ∉ testedActionNames ∧ e = ⟨action.pair.1, .gapIn, action.pair.2, []⟩ := by
    intro e
    refine (hjoins.mem_iff e).trans ⟨?_, ?_⟩
    · rintro ⟨p, hp, rfl⟩
      obtain ⟨action, haction, hp⟩ := List.mem_flatMap.mp hp
      obtain rfl := List.mem_singleton.mp hp
      obtain ⟨havailable, huntested⟩ := List.mem_filter.mp haction
      exact ⟨action, havailable, of_decide_eq_true huntested, rfl⟩
    · rintro ⟨action, havailable, huntested, rfl⟩
      exact ⟨action.pair, List.mem_flatMap.mpr ⟨action, List.mem_filter.mpr ⟨havailable, decide_eq_true huntested⟩,
        List.mem_singleton_self _⟩, rfl⟩
  refine ⟨coverageGapDelta_unique available testedActionNames, hnodes, hjoins.apart, hedges, fun e he => ?_⟩
  obtain ⟨action, havailable, huntested, rfl⟩ := (hedges e).mp he
  exact ⟨(hnodes _).mpr ⟨action, havailable, huntested, .inl rfl⟩, (hnodes _).mpr ⟨action, havailable, huntested, .inr rfl⟩⟩

/-- The actions of two plugins. -/
def sampleActions : List AvailableAction :=
  [⟨"tumult-net", "inject_latency"⟩, ⟨"tumult-net", "drop_packets"⟩, ⟨"tumult-ssh", "execute"⟩]

theorem coverageGapDelta_closed_sample :
    ((coverageGapDelta sampleActions ["drop_packets"]).nodes.map (·.id)).Nodup ∧
      (coverageGapDelta sampleActions ["drop_packets"]).nodes.map (·.id) =
        ["domain:tumult-net", "gap:tumult-net::inject_latency", "domain:tumult-ssh", "gap:tumult-ssh::execute"] :=
  ⟨(coverageGapDelta_closed sampleActions ["drop_packets"]).1, by decide⟩

end Tumult
