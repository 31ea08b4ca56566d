import Tumult.Graph.Lineage
import Tumult.Lib.Recursive

/-!
# The ego sub-graph of a node

The queries around one node, with placeholders that are bound by position, and the function that binds them. The recursive part
counts its levels in a column of type `INTEGER`, whose addition fails beyond its range.
-/

namespace Tumult.Ego

structure NodeSummary where
  id : String
  kind : String
  label : String
  deriving DecidableEq, Repr

/-- The graph tables. The id is the primary key of the nodes. -/
structure GraphStore where
  nodes : List NodeSummary
  edges : List EdgeRecord
  ids_nodup : (nodes.map (·.id)).Nodup

structure EgoTuple where
  src : String
  rel : String
  dst : String
  deriving DecidableEq, Repr

structure EgoGraph where
  center : String
  nodes : List NodeSummary
  edges : List EgoTuple
  deriving DecidableEq, Repr

inductive DbError where
  /-- A parameter is missing, is left over, or has another type. -/
  | parameter
  /-- An addition of integers overflows. -/
  | overflow
  deriving DecidableEq, Repr

/-! ## Placeholders -/

inductive SqlValue where
  | text (s : String)
  | bigint (i : Int)
  deriving DecidableEq, Repr

/-- A statement takes its parameters in the order of the placeholders in its text. -/
abbrev Bound (α : Type) : Type := StateT (List SqlValue) (Except DbError) α

def textParam : Bound String := fun
  | .text s :: rest => .ok (s, rest)
  | _ => .error .parameter

def bigintParam : Bound Int := fun
  | .bigint i :: rest => .ok (i, rest)
  | _ => .error .parameter

/-- A placeholder that is there only with a relation. -/
def relParam (withRel : Bool) : Bound (Option String) := if withRel then some <$> textParam else pure none

/-- Execute a statement with all of its parameters. -/
def bindParams {α : Type} (statement : Bound α) (params : List SqlValue) : Except DbError α :=
  match statement params with
  | .ok (a, []) => .ok a
  | .ok (_, _ :: _) => .error .parameter
  | .error e => .error e

/-! ## Queries -/

/-- The reachability part of a query, with its parameters. -/
structure Reach where
  center : String
  rel : Option String
  depth : Int
  deriving DecidableEq, Repr

/-- `WITH RECURSIVE reach(node, d)`: the centre; the relation, if there is one; the depth. -/
def reachCte (withRel : Bool) : Bound Reach := do
  let center ← textParam
  let rel ← relParam withRel
  let depth ← bigintParam
  pure ⟨center, rel, depth⟩

/-- `e.rel = ?`, if there is a relation. -/
def relFilter (rel : Option String) (e : EdgeRecord) : Bool := rel.all fun rel => e.rel = rel

/-- The largest `INTEGER`, the type of `0`. -/
def INTEGER_MAX : Int := 2147483647

/-- The recursive member: the other ends of the edges at the nodes of a level. -/
def Reach.round (r : Reach) (edges : List EdgeRecord) (working : List (String × Int)) : Except DbError (List (String × Int)) :=
  let found := working.flatMap fun row =>
    (edges.filter fun e => (e.src = row.1 || e.dst = row.1) && relFilter r.rel e && row.2 < r.depth).map fun e =>
      (if e.src = row.1 then e.dst else e.src, row.2 + 1)
  if found.all fun row => row.2 ≤ INTEGER_MAX then .ok found else .error .overflow

/-- The nodes with their levels. The number of rounds is bounded here, and not in the database. -/
def Reach.rows (fuel : Nat) (r : Reach) (edges : List EdgeRecord) : ExceptT DbError Option (List (String × Int)) :=
  Recursive.evaluate (r.round edges) fuel [(r.center, 0)] [(r.center, 0)]

/-- `id IN (SELECT node FROM reach)` -/
def reached (rows : List (String × Int)) (id : String) : Bool := rows.any fun row => row.1 = id

def egoNodes (withRel : Bool) : Bound Reach := reachCte withRel

/-- The relation is bound once more, after the reachability part. -/
def egoEdges (withRel : Bool) : Bound (Reach × Option String) := do
  let reach ← reachCte withRel
  let rel ← relParam withRel
  pure (reach, rel)

/-- The nodes of the neighbourhood, by id. -/
def queryNodes (fuel : Nat) (st : GraphStore) (reach : Reach) : ExceptT DbError Option (List NodeSummary) := do
  let rows ← reach.rows fuel st.edges
  pure ((st.nodes.filter fun n => reached rows n.id).mergeSort fun a b => a.id ≤ b.id)

/-- The distinct edges among the nodes of the neighbourhood, in order. -/
def queryEdges (fuel : Nat) (st : GraphStore) (reach : Reach) (rel : Option String) : ExceptT DbError Option (List EgoTuple) := do
  let rows ← reach.rows fuel st.edges
  let among := st.edges.filter fun e => reached rows e.src && reached rows e.dst && relFilter rel e
  pure ((among.map fun e => (⟨e.src, e.rel, e.dst⟩ : EgoTuple)).dedup.mergeSort fun a b => [a.src, a.rel, a.dst] ≤ [b.src, b.rel, b.dst])

/-! ## The neighbourhood -/

def nodeExists (st : GraphStore) (id : String) : Bool := 0 < st.nodes.countP fun n => n.id = id

/-- Return the ego sub-graph of a node; none if there is no such node. -/
def graphNeighbors (fuel : Nat) (st : GraphStore) (nodeId : String) (rel : Option String) (depth : Int64) :
    ExceptT DbError Option (Option EgoGraph) := do
  if !nodeExists st nodeId then
    return none
  let depth := max depth.toInt 1
  let reach ← bindParams (egoNodes rel.isSome)
    (rel.elim [.text nodeId, .bigint depth] fun rel => [.text nodeId, .text rel, .bigint depth])
  let nodes ← queryNodes fuel st reach
  let (reach, filter) ← bindParams (egoEdges rel.isSome)
    (rel.elim [.text nodeId, .bigint depth] fun rel => [.text nodeId, .text rel, .bigint depth, .text rel])
  let edges ← queryEdges fuel st reach filter
  return some ⟨nodeId, nodes, edges⟩

end Tumult.Ego
