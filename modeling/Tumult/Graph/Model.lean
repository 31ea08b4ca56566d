import Tumult.Core.Types

/-!
# The graph's nodes and edges

A run contributes a delta: its nodes, each identifier once, and its edges, each triple of source, relation and destination once.
-/

namespace Tumult

/-- The kinds of nodes. -/
inductive NodeKind where
  | experiment
  | fault
  | service
  | journal
  | deviation
  | complianceArticle
  | coverageGap
  | faultDomain
  | recommendation
  deriving DecidableEq, Repr

/-- The relations of the edges. -/
inductive EdgeRel where
  | targets
  | injects
  | yielded
  | observedOn
  | exhibited
  | evidences
  | mapsToCompliance
  | gapIn
  | dependsOn
  | causedBy
  | enacted
  deriving DecidableEq, Repr

/-- The canonical token stored in the `rel` column. -/
def EdgeRel.asStr : EdgeRel → String
  | .targets => "targets"
  | .injects => "injects"
  | .yielded => "yielded"
  | .observedOn => "observed_on"
  | .exhibited => "exhibited"
  | .evidences => "evidences"
  | .mapsToCompliance => "maps_to_compliance"
  | .gapIn => "gap_in"
  | .dependsOn => "depends_on"
  | .causedBy => "caused_by"
  | .enacted => "enacted"

/-- A structured attribute. -/
inductive Attr where
  | null
  | bool (value : Bool)
  | text (value : String)
  | number (value : Int)
  | list (values : List Attr)
  | record (fields : List (String × Attr))

/-- The field of a record. -/
def Attr.get? (name : String) : Attr → Option Attr
  | .record fields => (fields.find? (·.1 = name)).map (·.2)
  | _ => none

def Attr.asStr? : Attr → Option String
  | .text value => some value
  | _ => none

/-- The items of a list; nothing else has any. -/
def Attr.items : Attr → List Attr
  | .list values => values
  | _ => []

/-- The named attributes of a node or an edge. -/
abbrev Attrs : Type := List (String × Attr)

/-- A node, keyed by a stable identifier. -/
structure Node where
  id : String
  kind : NodeKind
  label : String
  attrs : Attrs

/-- A directed edge produced by a single run. -/
structure Edge where
  src : String
  rel : EdgeRel
  dst : String
  attrs : Attrs

/-- What a run contributes to the graph. -/
structure GraphDelta where
  nodes : List Node
  edges : List Edge

/-- Accumulates nodes and edges without duplicates. The sets of what was seen are the keys of what was pushed. -/
structure Builder where
  nodes : List Node := []
  edges : List Edge := []

namespace Builder

variable (b : Builder)

def pushNode (node : Node) : Builder :=
  if b.nodes.any (·.id = node.id) then b else { b with nodes := b.nodes ++ [node] }

def pushEdgeWithAttrs (src : String) (rel : EdgeRel) (dst : String) (attrs : Attrs) : Builder :=
  if b.edges.any (fun e => e.src = src && e.rel = rel && e.dst = dst) then b
  else { b with edges := b.edges ++ [⟨src, rel, dst, attrs⟩] }

def pushEdge (src : String) (rel : EdgeRel) (dst : String) : Builder := b.pushEdgeWithAttrs src rel dst []

def finish : GraphDelta := ⟨b.nodes, b.edges⟩

/-- The destinations of the builder's edges of a relation. -/
def targets (rel : EdgeRel) : List String := (b.edges.filter (·.rel = rel)).map (·.dst)

variable {b}

@[simp] theorem pushNode_edges (node : Node) : (b.pushNode node).edges = b.edges := by
  unfold pushNode
  split <;> rfl

@[simp] theorem targets_pushNode (node : Node) (rel : EdgeRel) : (b.pushNode node).targets rel = b.targets rel := by
  simp [targets]

/-- An edge of another relation leaves no trace. -/
theorem targets_pushEdgeWithAttrs_of_ne {src dst : String} {rel rel' : EdgeRel} {attrs : Attrs} (h : rel' ≠ rel) :
    (b.pushEdgeWithAttrs src rel' dst attrs).targets rel = b.targets rel := by
  unfold pushEdgeWithAttrs
  split
  · rfl
  · simp [targets, h]

theorem targets_pushEdge_of_ne {src dst : String} {rel rel' : EdgeRel} (h : rel' ≠ rel) :
    (b.pushEdge src rel' dst).targets rel = b.targets rel := targets_pushEdgeWithAttrs_of_ne h

/-- A pushed edge is there, whether it was pushed before or not. -/
theorem mem_targets_pushEdge {src dst id : String} {rel : EdgeRel} :
    id ∈ (b.pushEdge src rel dst).targets rel ↔ id ∈ b.targets rel ∨ id = dst := by
  unfold pushEdge pushEdgeWithAttrs
  split
  · next h =>
    obtain ⟨e, he, hkey⟩ := List.any_eq_true.mp h
    obtain ⟨⟨-, hrel⟩, hdst⟩ : (e.src = src ∧ e.rel = rel) ∧ e.dst = dst := by simpa using hkey
    refine ⟨.inl, ?_⟩
    rintro (hid | rfl)
    · exact hid
    · exact List.mem_map.mpr ⟨e, List.mem_filter.mpr ⟨he, by simpa using hrel⟩, hdst⟩
  · simp [targets]

theorem mem_targets_pushEdges {src id : String} {rel : EdgeRel} (dsts : List String) :
    id ∈ (dsts.foldl (fun b dst => b.pushEdge src rel dst) b).targets rel ↔ id ∈ b.targets rel ∨ id ∈ dsts := by
  induction dsts generalizing b with
  | nil => simp
  | cons dst dsts ih => rw [List.foldl_cons, ih, mem_targets_pushEdge, List.mem_cons, or_assoc]

/-- Pushing what leaves no trace, for each item of a list. -/
theorem targets_foldl {α : Type} {f : Builder → α → Builder} {rel : EdgeRel} (as : List α)
    (h : ∀ b, ∀ a ∈ as, (f b a).targets rel = b.targets rel) : (as.foldl f b).targets rel = b.targets rel := by
  induction as generalizing b with
  | nil => rfl
  | cons a as ih =>
    rw [List.foldl_cons, ih (fun b a' ha' => h b a' (List.mem_cons_of_mem _ ha')), h b a List.mem_cons_self]

theorem mem_targets_finish {id : String} {rel : EdgeRel} :
    (∃ e ∈ b.finish.edges, e.rel = rel ∧ e.dst = id) ↔ id ∈ b.targets rel := by
  simp [finish, targets, and_assoc]

end Builder

end Tumult
