import Tumult.Graph.Model

/-!
# Sub-graphs that no run contributes

The declared topology and the coverage gaps: what a document of services, or a catalogue of actions with those that were tested,
becomes in the graph. Their edges are kept under run identifiers of their own.
-/

namespace Tumult

/-- The run identifier under which edges of the declared topology are stored. -/
def TOPOLOGY_RUN_ID : String := "__topology__"

/-- The run identifier under which edges of coverage gaps are stored. -/
def COVERAGE_GAP_RUN_ID : String := "__coverage_gaps__"

/-! ## The declared topology -/

/-- One declared service, with the services it depends on. -/
structure TopologyService where
  name : String
  dependsOn : List String := []
  owner : Option String := none
  tier : Option String := none
  deriving DecidableEq, Repr

/-- A parsed topology document. -/
structure TopologyDoc where
  services : List TopologyService
  deriving DecidableEq, Repr

inductive TopologyError where
  | unknownDependency (service dependency : String)
  | duplicate (name : String)
  | empty
  deriving DecidableEq, Repr

/-- The first name that stands twice. -/
def firstDuplicate : List String → List String → Option String
  | _, [] => none
  | seen, name :: names => if name ∈ seen then some name else firstDuplicate (name :: seen) names

/-- The first dependency that is not declared, in the order of the services. -/
def firstUnknown (names : List String) (services : List TopologyService) : Option (String × String) :=
  services.findSome? fun service => (service.dependsOn.find? (· ∉ names)).map fun dependency => (service.name, dependency)

def TopologyService.normalized (normalizeService : String → String) (service : TopologyService) : TopologyService :=
  { service with name := normalizeService service.name, dependsOn := service.dependsOn.map normalizeService }

/-- What a document that is read is checked for, under names that are normalised first. -/
def validateTopology (normalizeService : String → String) (doc : TopologyDoc) : Except TopologyError TopologyDoc :=
  if doc.services = [] then .error .empty
  else
    let services := doc.services.map (·.normalized normalizeService)
    match firstDuplicate [] (services.map (·.name)) with
    | some name => .error (.duplicate name)
    | none =>
      match firstUnknown (services.map (·.name)) services with
      | some (service, dependency) => .error (.unknownDependency service dependency)
      | none => .ok ⟨services⟩

/-- The node of a declared service. -/
def TopologyService.node (service : TopologyService) : Node where
  id := "svc:" ++ service.name
  kind := .service
  label := service.name
  attrs := ("declared", .bool true) :: ((service.owner.toList.map fun owner => ("owner", Attr.text owner)) ++
    service.tier.toList.map fun tier => ("tier", Attr.text tier))

/-- One service of a document. -/
def declareService (b : Builder) (service : TopologyService) : Builder :=
  service.dependsOn.foldl (fun b dep => b.pushEdge ("svc:" ++ service.name) .dependsOn ("svc:" ++ dep))
    { b with nodes := b.nodes ++ [service.node] }

/-- Turn a document into its nodes and edges. -/
def topologyDelta (doc : TopologyDoc) : GraphDelta := (doc.services.foldl declareService {}).finish

theorem pushEdge_nodes (b : Builder) (src : String) (rel : EdgeRel) (dst : String) : (b.pushEdge src rel dst).nodes = b.nodes := by
  unfold Builder.pushEdge Builder.pushEdgeWithAttrs
  split <;> rfl

theorem declareService_nodes (b : Builder) (service : TopologyService) :
    (declareService b service).nodes = b.nodes ++ [service.node] := by
  have hpush (deps : List String) (b : Builder) :
      (deps.foldl (fun b dep => b.pushEdge ("svc:" ++ service.name) .dependsOn ("svc:" ++ dep)) b).nodes = b.nodes := by
    induction deps generalizing b with
    | nil => rfl
    | cons dep deps ih => rw [List.foldl_cons, ih, pushEdge_nodes]
  exact hpush _ _

/-- A document's nodes are those of its services, in order. -/
theorem topologyDelta_nodes (doc : TopologyDoc) : (topologyDelta doc).nodes = doc.services.map (·.node) := by
  have hfold (services : List TopologyService) (b : Builder) :
      (services.foldl declareService b).nodes = b.nodes ++ services.map (·.node) := by
    induction services generalizing b with
    | nil => simp
    | cons service services ih => rw [List.foldl_cons, ih, declareService_nodes]; simp
  exact hfold _ _

theorem firstDuplicate_eq_none {seen names : List String} (h : firstDuplicate seen names = none) :
    names.Nodup ∧ ∀ name ∈ names, name ∉ seen := by
  induction names generalizing seen with
  | nil => simp
  | cons name names ih =>
    unfold firstDuplicate at h
    split at h
    · nomatch h
    · next hname =>
      obtain ⟨hnodup, hseen⟩ := ih h
      have hnew : name ∉ names := fun hmem => hseen name hmem List.mem_cons_self
      refine ⟨List.nodup_cons.mpr ⟨hnew, hnodup⟩, fun name' hname' => ?_⟩
      rcases List.mem_cons.mp hname' with rfl | hmem
      · exact hname
      · exact fun hin => hseen name' hmem (List.mem_cons_of_mem _ hin)

/-- No two services of a document that passes share a name. -/
theorem validateTopology_unique {normalizeService : String → String} {doc doc' : TopologyDoc}
    (h : validateTopology normalizeService doc = .ok doc') : (doc'.services.map (·.name)).Nodup := by
  unfold validateTopology at h
  split at h
  · nomatch h
  · dsimp only at h
    split at h
    · nomatch h
    · next hnone =>
      split at h
      · nomatch h
      · obtain rfl := Except.ok.inj h
        exact (firstDuplicate_eq_none hnone).1

/-- Nor do two of its nodes share an identifier. -/
theorem topologyDelta_unique {doc : TopologyDoc} (h : (doc.services.map (·.name)).Nodup) :
    ((topologyDelta doc).nodes.map (·.id)).Nodup := by
  rw [topologyDelta_nodes, List.map_map]
  have hids : (Node.id ∘ TopologyService.node) = (("svc:" ++ ·) ∘ TopologyService.name) := rfl
  rw [hids, ← List.map_map]
  exact h.map fun a b hab => (String.append_right_inj "svc:").mp hab

/-! ## Coverage gaps -/

/-- A fault primitive that a plugin advertises. -/
structure AvailableAction where
  plugin : String
  action : String
  deriving DecidableEq, Repr

/-- One untested action: its domain, its gap, and the edge between them. -/
def pushGap (b : Builder) (action : AvailableAction) : Builder :=
  let gapId := "gap:" ++ action.plugin ++ "::" ++ action.action
  let domainId := "domain:" ++ action.plugin
  let b := b.pushNode ⟨domainId, .faultDomain, action.plugin, [("plugin", .text action.plugin)]⟩
  let b := b.pushNode ⟨gapId, .coverageGap, action.plugin ++ "::" ++ action.action,
    [("plugin", .text action.plugin), ("action", .text action.action)]⟩
  b.pushEdge gapId .gapIn domainId

/-- The gaps that the tested actions leave. -/
def coverageGapDelta (available : List AvailableAction) (testedActionNames : List String) : GraphDelta :=
  ((available.filter (·.action ∉ testedActionNames)).foldl pushGap {}).finish

theorem pushNode_unique {b : Builder} (h : (b.nodes.map (·.id)).Nodup) (node : Node) :
    ((b.pushNode node).nodes.map (·.id)).Nodup := by
  unfold Builder.pushNode
  split
  · exact h
  · next hnew =>
    rw [List.map_append]
    refine h.append (List.nodup_singleton _) ?_
    rw [List.map_singleton, List.disjoint_singleton]
    intro hmem
    obtain ⟨old, hold, hid⟩ := List.mem_map.mp hmem
    exact hnew (List.any_eq_true.mpr ⟨old, hold, decide_eq_true hid⟩)

/-- No two nodes of the gaps share an identifier. -/
theorem coverageGapDelta_unique (available : List AvailableAction) (testedActionNames : List String) :
    ((coverageGapDelta available testedActionNames).nodes.map (·.id)).Nodup := by
  have hfold (actions : List AvailableAction) (b : Builder) (h : (b.nodes.map (·.id)).Nodup) :
      ((actions.foldl pushGap b).nodes.map (·.id)).Nodup := by
    induction actions generalizing b with
    | nil => exact h
    | cons action actions ih =>
      refine ih _ ?_
      unfold pushGap
      dsimp only
      rw [pushEdge_nodes]
      exact pushNode_unique (pushNode_unique h _) _
  exact hfold _ _ List.nodup_nil

end Tumult
