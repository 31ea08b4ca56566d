import Tumult.Core.Text
import Tumult.Lib.Wildcard

/-!
# Org hierarchy rollups

A tree of teams, units and domains under an implicit company root, built from the nodes of a file in their order; the patterns that
assign experiments to its nodes; and the rollup of one node from the full list of leaves. The loops that follow parents are given as
many steps as there are nodes. Weights are exact rationals.
-/

namespace Tumult.Compliance

/-- Name of the synthetic node holding unmapped experiments. -/
def UNASSIGNED : String := "(unassigned)"

/-- Why an org file is refused; the texts of the file system and of the YAML parser are left out. -/
inductive OrgError where
  | io
  | yaml
  | invalid (message : String)
  deriving DecidableEq, Repr

/-! ## The file -/

structure NodeSpec where
  name : String
  kind : String
  parent : Option String
  deriving DecidableEq, Repr

structure AssignmentSpec where
  team : String
  targets : List String
  criticality : List (String × String)
  deriving DecidableEq, Repr

structure DefaultsSpec where
  weight : ℚ
  staleDays : Nat
  deriving DecidableEq, Repr

structure OrgFile where
  nodes : List NodeSpec
  assignments : List AssignmentSpec
  defaults : DefaultsSpec
  deriving DecidableEq, Repr

/-! ## Patterns -/

/-- Criticality weight: `critical` = 3, `high` = 2, default 1. -/
def criticalityWeight : String → Nat
  | "critical" => 3
  | "high" => 2
  | _ => 1

/-- `str::strip_prefix`, on characters. -/
def stripPrefix (seg rest : List Char) : Option (List Char) := if seg <+: rest then some (rest.drop seg.length) else none

/-- The loop over the segments: the first one is stripped when the start is anchored, every other one is looked for. -/
def matchSegments : Bool → List (List Char) → List Char → Option (List Char)
  | _, [], rest => some rest
  | true, seg :: segs, rest => (stripPrefix seg rest).bind (matchSegments false segs)
  | false, seg :: segs, rest => (Wildcard.find seg rest).bind fun pos => matchSegments false segs (rest.drop (pos + seg.length))

/-- Minimal glob: `*` matches any sequence of characters, everything else is literal. -/
def globMatch (pattern name : String) : Bool :=
  let anchoredStart := pattern.toList.head? ≠ some '*'
  let anchoredEnd := pattern.toList.getLast? ≠ some '*'
  let segments := (pattern.toList.splitOn '*').filter (· ≠ [])
  if segments.isEmpty then true
  else
    match matchSegments anchoredStart segments name.toList with
    | none => false
    | some _ => if anchoredEnd then decide (segments.getLastD [] <:+ name.toList) else true

/-! ## The tree -/

/-- One node in the resolved tree. -/
structure Node where
  name : String
  kind : String
  parent : Option Nat
  children : List Nat
  deriving DecidableEq, Repr

/-- A compiled assignment: patterns and criticality by name for one node. -/
structure Assignment where
  node : Nat
  targets : List String
  criticality : List (String × String)
  deriving DecidableEq, Repr

structure OrgTree where
  nodes : List Node
  root : Nat
  unassigned : Nat
  byName : List (String × Nat)
  assignments : List Assignment
  defaultWeight : ℚ
  staleDays : Nat
  deriving DecidableEq, Repr

namespace OrgTree

/-- The trivial tree: implicit root and `(unassigned)`, no assignments. -/
def empty : OrgTree where
  nodes := [⟨"", "company", none, [1]⟩, ⟨UNASSIGNED, "unassigned", some 0, []⟩]
  root := 0
  unassigned := 1
  byName := [(UNASSIGNED, 1)]
  assignments := []
  defaultWeight := 1
  staleDays := 30

section

variable (t : OrgTree)

/-- The fields of a node; there is none at an index out of range. -/
def nameOf (id : Nat) : String := (t.nodes[id]?).elim "" (·.name)

def kindOf (id : Nat) : String := (t.nodes[id]?).elim "" (·.kind)

def parentOf (id : Nat) : Option Nat := (t.nodes[id]?).bind (·.parent)

def children (id : Nat) : List Nat := (t.nodes[id]?).elim [] (·.children)

/-- A node is inserted below its parent, which is resolved by its name. -/
def insertNode (spec : NodeSpec) : Except OrgError OrgTree := do
  let parent ← match spec.parent with
    | none => pure t.root
    | some p =>
      match t.byName.lookup p with
      | some id => pure id
      | none => throw (.invalid s!"node '{spec.name}' has unknown parent '{p}'")
  let id := t.nodes.length
  let node : Node := ⟨spec.name, spec.kind, some parent, []⟩
  pure { t with
    nodes := (t.nodes ++ [node]).modify parent fun n => { n with children := n.children ++ [id] }
    byName := (spec.name, id) :: t.byName }

/-- The walk from a node over its parents: the node that is reached twice, if there is one. More steps than there are nodes reach
one twice. -/
def walk : Nat → List Nat → Option Nat → Option Nat
  | 0, _, cur => cur
  | _ + 1, _, none => none
  | fuel + 1, visited, some n => if n ∈ visited then some n else walk fuel (n :: visited) (t.parentOf n)

/-- Walking parents from any node must reach the root. -/
def checkCycles : Except OrgError Unit :=
  (List.range t.nodes.length).forM fun id =>
    match t.walk (t.nodes.length + 1) [] (some id) with
    | some n => throw (.invalid s!"cycle detected involving node '{t.nameOf n}'")
    | none => pure ()

def compileAssignment (spec : AssignmentSpec) : Except OrgError OrgTree :=
  match t.byName.lookup spec.team with
  | some node => pure { t with assignments := t.assignments ++ [⟨node, spec.targets, spec.criticality⟩] }
  | none => throw (.invalid s!"assignment targets unknown team '{spec.team}'")

end

/-- Uniqueness and name validity. -/
def checkNames : List String → List NodeSpec → Except OrgError Unit
  | _, [] => pure ()
  | seen, spec :: specs =>
    if (Text.trim spec.name).isEmpty ∨ '/' ∈ spec.name.toList ∨ spec.name = UNASSIGNED ∨ spec.name ∈ seen then
      throw (.invalid s!"duplicate or invalid node name '{spec.name}'")
    else checkNames (spec.name :: seen) specs

def build (file : OrgFile) : Except OrgError OrgTree := do
  checkNames [] file.nodes
  let t ← file.nodes.foldlM insertNode { empty with defaultWeight := file.defaults.weight, staleDays := file.defaults.staleDays }
  t.checkCycles
  file.assignments.foldlM compileAssignment t

/-! ## Paths -/

section

variable (t : OrgTree)

/-- The child of a node with a name. -/
def childNamed (cur : Nat) (segment : List Char) : Option Nat := (t.children cur).find? fun c => (t.nameOf c).toList = segment

/-- Resolve a slash path to a node. -/
def resolve (path : String) : Option Nat :=
  let trimmed := Text.trimEndMatches (· = '/') (path.toList.dropWhile (· = '/'))
  if trimmed = [] then some t.root else (trimmed.splitOn '/').foldlM t.childNamed t.root

/-- The names on the way from a node up to the root, without the root's. -/
def partsFrom : Nat → Nat → List String
  | 0, _ => []
  | fuel + 1, id =>
    match t.parentOf id with
    | none => []
    | some parent => t.nameOf id :: partsFrom fuel parent

/-- The slash path of a node. -/
def pathOf (id : Nat) : String := "/".intercalate (t.partsFrom t.nodes.length id).reverse

/-- Whether a node is another one or one of its ancestors. -/
def inSubtreeFrom (ancestor : Nat) : Nat → Nat → Bool
  | 0, _ => false
  | fuel + 1, id =>
    if id = ancestor then true
    else
      match t.parentOf id with
      | some p => inSubtreeFrom ancestor fuel p
      | none => false

def inSubtree (ancestor id : Nat) : Bool := t.inSubtreeFrom ancestor t.nodes.length id

/-! ## The rollup -/

/-- Where an experiment belongs, and its effective criticality weight: by the first assignment that matches. -/
def assign (experimentName : String) : Nat × ℚ :=
  match t.assignments.find? fun a => a.targets.any (globMatch · experimentName) with
  | some a =>
    let level := ((a.criticality.lookup experimentName).map criticalityWeight).getD 1
    (a.node, t.defaultWeight * level)
  | none => (t.unassigned, t.defaultWeight)

end

end OrgTree

/-- One experiment presented to the rollup; without a score it only counts toward what is expected. -/
structure ScoredLeaf where
  name : String
  score : Option Nat
  deriving DecidableEq, Repr

/-- What the rollup of a node accumulates. -/
structure Totals where
  sum : ℚ
  weights : ℚ
  totalWeight : ℚ
  scored : Nat
  expected : Nat
  weakest : Option (Nat × String)
  deriving DecidableEq, Repr

/-- Band for a score: above 70 good, from 50 fair, below poor. -/
def band (score : ℚ) : String := if score > 70 then "good" else if score ≥ 50 then "fair" else "poor"

/-- The rollup of a node, without its children. -/
structure NodeScore where
  path : String
  name : String
  kind : String
  score : ℚ
  band : String
  coverage : ℚ
  scored : Nat
  expected : Nat
  weakest : Option String
  weight : ℚ
  deriving DecidableEq, Repr

/-- The rollup of a node, with that of its direct children, weakest first. -/
structure OrgNodeScore extends NodeScore where
  children : List NodeScore
  deriving DecidableEq, Repr

namespace OrgTree

variable (t : OrgTree)

/-- A leaf is counted when it belongs into the subtree. -/
def tally (id : Nat) (acc : Totals) (leaf : ScoredLeaf) : Totals :=
  let (node, weight) := t.assign leaf.name
  if t.inSubtree id node then
    let acc := { acc with expected := acc.expected + 1, totalWeight := acc.totalWeight + weight }
    match leaf.score with
    | none => acc
    | some score =>
      { acc with
        scored := acc.scored + 1
        sum := acc.sum + weight * score
        weights := acc.weights + weight
        weakest := if acc.weakest.all (score < ·.1) then some (score, leaf.name) else acc.weakest }
  else acc

def totals (id : Nat) (leaves : List ScoredLeaf) : Totals := leaves.foldl (t.tally id) ⟨0, 0, 0, 0, 0, none⟩

/-- The rollup of a node without its children. -/
def aggregateRow (leaves : List ScoredLeaf) (id : Nat) : NodeScore :=
  let acc := t.totals id leaves
  let score := if acc.weights > 0 then acc.sum / acc.weights else 0
  { path := t.pathOf id
    name := if id = t.root then "(company)" else t.nameOf id
    kind := t.kindOf id
    score := score
    band := band score
    coverage := if acc.expected = 0 then 0 else acc.scored / acc.expected
    scored := acc.scored
    expected := acc.expected
    weakest := acc.weakest.map (·.2)
    weight := acc.totalWeight }

/-- The rollup of a node and one level of its children. -/
def aggregate (id : Nat) (leaves : List ScoredLeaf) : OrgNodeScore :=
  { t.aggregateRow leaves id with
    children := ((t.children id).map (t.aggregateRow leaves)).mergeSort fun a b => a.score ≤ b.score }

/-- Aggregate one node from the full leaf list. -/
def computeNode (path : String) (leaves : List ScoredLeaf) : Option OrgNodeScore := (t.resolve path).map (t.aggregate · leaves)

end OrgTree

end Tumult.Compliance
