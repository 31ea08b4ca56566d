import Tumult.Query.Cypher

/-!
# The expansion budget

Before a query is run, the work of its relationship patterns is estimated from the size of the snapshot: the scan of the query's
text for patterns, the hop multiplier of a bracketed one, the tiers of the estimate, and the budget it is held against. Counts are
`u64` values with saturating arithmetic.
-/

namespace Tumult

/-- `u64::MAX`. -/
def u64Max : Nat := 18446744073709551615

def saturatingMul (a b : Nat) : Nat := min (a * b) u64Max

def saturatingAdd (a b : Nat) : Nat := min (a + b) u64Max

/-! ## The patterns of a query -/

/-- A relationship pattern: an anonymous dashed one, or a bracketed one with what its bracket holds outside quotes. -/
inductive RelationshipPattern where
  | anonymous
  | bracket (content : List Char)
  deriving DecidableEq, Repr

/-- What a bracket holds outside quotes, up to its end, and what follows it. -/
def bracketContent : Option Char → List Char → List Char → List Char × List Char
  | _, content, [] => (content, [])
  | some q, content, c :: rest =>
    if c = '\\' ∧ q ≠ '`' then
      -- the escaped character does not end the string
      match rest with
      | [] => (content, [])
      | _ :: rest => bracketContent (some q) content rest
    else if c = q then bracketContent none content rest
    else bracketContent (some q) content rest
  | none, content, c :: rest =>
    if isQuote c then bracketContent (some c) content rest
    else if c = ']' then (content, rest)
    else bracketContent none (content ++ [c]) rest

theorem bracketContent_length (quote : Option Char) (content cs : List Char) :
    (bracketContent quote content cs).2.length ≤ cs.length := by
  fun_induction bracketContent quote content cs <;> simp only [List.length_cons, List.length_nil] at * <;> omega

/-- A dash that closes a bracketed pattern belongs to it. -/
def skipDash : List Char → List Char
  | '-' :: rest => rest
  | rest => rest

theorem skipDash_length (cs : List Char) : (skipDash cs).length ≤ cs.length := by
  unfold skipDash
  split <;> simp

/-- The relationship patterns from a character on, with the open quote. -/
def patternsFrom : Option Char → List Char → List RelationshipPattern
  | _, [] => []
  | some q, c :: rest =>
    if c = '\\' ∧ q ≠ '`' then
      match rest with
      | [] => []
      | _ :: rest => patternsFrom (some q) rest
    else if c = q then patternsFrom none rest
    else patternsFrom (some q) rest
  | none, c :: rest =>
    if isQuote c then patternsFrom (some c) rest
    else if c = '-' then
      match rest with
      | '[' :: rest =>
        .bracket (bracketContent none [] rest).1 :: patternsFrom none (skipDash (bracketContent none [] rest).2)
      | '-' :: rest => .anonymous :: patternsFrom none rest
      | '(' :: rest => .anonymous :: patternsFrom none ('(' :: rest)
      -- arithmetic minus or comparison
      | rest => patternsFrom none rest
    else patternsFrom none rest
  termination_by _ cs => cs.length
  decreasing_by
    all_goals simp only [List.length_cons]
    all_goals first | omega | skip
    have hskip := skipDash_length (bracketContent none [] rest).2
    have hcontent := bracketContent_length none [] rest
    omega

def relationshipPatterns (query : String) : List RelationshipPattern := patternsFrom none query.toList

/-! ## The hop multiplier -/

/-- Hop count assumed for an unbounded variable-length pattern. -/
def UNBOUNDED_HOP_ASSUMPTION : Nat := 5

/-- The number that some decimal digits write. -/
def decimalValue (digits : List Char) : Nat := digits.foldl (fun n c => 10 * n + (c.toNat - '0'.toNat)) 0

/-- `str::parse` of some decimal digits to a `u64`. -/
def parseU64 (digits : List Char) : Option Nat := if decimalValue digits ≤ u64Max then some (decimalValue digits) else none

def leadingDigits (s : List Char) : Option Nat :=
  if s.takeWhile Char.isDigit = [] then none else parseU64 (s.takeWhile Char.isDigit)

/-- `str::split_once("..")`. -/
def splitOnceDots : List Char → Option (List Char × List Char)
  | '.' :: '.' :: rest => some ([], rest)
  | c :: rest => (splitOnceDots rest).map fun p => (c :: p.1, p.2)
  | [] => none

/-- What follows the first star. -/
def afterStar : List Char → Option (List Char)
  | [] => none
  | c :: rest => if c = '*' then some rest else afterStar rest

/-- The assumption for a pattern without an upper bound, never less than its stated minimum. -/
def assumedHops (minSpec : List Char) : Nat :=
  (leadingDigits minSpec).elim UNBOUNDED_HOP_ASSUMPTION (max · UNBOUNDED_HOP_ASSUMPTION)

def hopMultiplier (bracket : List Char) : Nat :=
  match afterStar bracket with
  | none => 1
  | some spec =>
    match splitOnceDots spec with
    | some (minSpec, maxSpec) => (leadingDigits maxSpec).getD (assumedHops minSpec)
    | none => (leadingDigits spec).getD UNBOUNDED_HOP_ASSUMPTION

def RelationshipPattern.hops : RelationshipPattern → Nat
  | .anonymous => 1
  | .bracket content => hopMultiplier content

/-- The hop multiplier of every relationship pattern of a query. -/
def expansionHops (query : String) : List Nat := (relationshipPatterns query).map RelationshipPattern.hops

/-! ## The estimate -/

structure SnapshotNode where
  id : String
  kind : String
  label : String
  deriving DecidableEq, Repr

structure SnapshotEdge where
  src : String
  dst : String
  rel : String
  runId : String
  ts : Int
  deriving DecidableEq, Repr

structure GraphSnapshot where
  nodes : List SnapshotNode := []
  edges : List SnapshotEdge := []
  deriving DecidableEq, Repr

/-- A length as a `u64`. -/
def GraphSnapshot.nodeCount (snapshot : GraphSnapshot) : Nat := min snapshot.nodes.length u64Max

def GraphSnapshot.edgeCount (snapshot : GraphSnapshot) : Nat := min snapshot.edges.length u64Max

def GraphSnapshot.avgDegree (snapshot : GraphSnapshot) : Nat :=
  max (if snapshot.nodeCount = 0 then 1 else saturatingMul snapshot.edgeCount 2 / snapshot.nodeCount) 1

/-- One tier: the frontier grows by the degree and the hops, and the steps by the frontier. -/
def expansionTier (avgDegree : Nat) (acc : Nat × Nat) (hops : Nat) : Nat × Nat :=
  (saturatingMul (saturatingMul acc.1 avgDegree) hops, saturatingAdd acc.2 (saturatingMul (saturatingMul acc.1 avgDegree) hops))

def estimateExpansionSteps (snapshot : GraphSnapshot) (query : String) : Nat :=
  ((expansionHops query).foldl (expansionTier snapshot.avgDegree) (max snapshot.nodeCount 1, 0)).2

/-- Maximum estimated expansion steps one query may perform. -/
def MAX_EXPANSION_STEPS : Nat := 1000000

/-- Reject a query whose estimated expansion work exceeds the budget. -/
def enforceEvaluationBudget (snapshot : GraphSnapshot) (query : String) : Except CypherError Unit :=
  if estimateExpansionSteps snapshot query > MAX_EXPANSION_STEPS then
    .error (.budgetExceeded (estimateExpansionSteps snapshot query) MAX_EXPANSION_STEPS)
  else .ok ()

end Tumult
