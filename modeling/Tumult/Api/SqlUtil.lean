import Mathlib

/-!
# Quoting for SQL

The literals, patterns and predicates that the query handlers put user strings in. How Rust's debug format shows a string is taken
from outside.
-/

namespace Tumult.SqlUtil

/-- `str::replace` of a character. -/
def replaceChar (c : Char) (replacement : List Char) (s : String) : String :=
  String.ofList (s.toList.flatMap fun d => if d = c then replacement else [d])

/-- Quote a user-supplied string as a SQL string literal. -/
def sqlString (s : String) : String := "'" ++ replaceChar '\'' ['\'', '\''] s ++ "'"

/-- The special characters of a pattern escaped, and then the quotes doubled. -/
def escapeLike (s : String) : String :=
  replaceChar '\'' ['\'', '\''] (replaceChar '_' ['\\', '_'] (replaceChar '%' ['\\', '%'] (replaceChar '\\' ['\\', '\\'] s)))

/-- Quote a user-supplied substring for `ILIKE … ESCAPE '\'`. -/
def sqlContains (s : String) : String := "'%" ++ escapeLike s ++ "%'"

/-- Quote a user-supplied string as an `ILIKE` pattern with no wildcards. -/
def sqlIeq (s : String) : String := "'" ++ escapeLike s ++ "'"

/-- A predicate restricting reads to a principal's environment scopes; none when the set is empty. -/
def envScopeWhere (col : String) (scopes : List String) : Option String :=
  if scopes = [] then none else some (col ++ " IN (" ++ ", ".intercalate (scopes.map sqlString) ++ ")")

/-- Parse a click-to-filter `k=v` parameter; the key must not be empty. -/
def attrKv (s : String) : Option (String × String) :=
  match s.toList.dropWhile (· ≠ '=') with
  | [] => none
  | _ :: v =>
    let k := s.toList.takeWhile (· ≠ '=')
    if k = [] then none else some (String.ofList k, String.ofList v)

variable (debug : String → String)

/-- The predicate of one parameter, if the parameter is there and not empty. -/
def attrWhere (param : String) (predicate : String → String → String) (raw : Option String) : Except String (List String) :=
  match raw.filter (· ≠ "") with
  | none => .ok []
  | some raw =>
    match attrKv raw with
    | none => .error ("invalid " ++ param ++ " " ++ debug raw ++ "; expected k=v")
    | some (k, v) => .ok [predicate k v]

/-- The rows where the key has exactly the value in either map. -/
def attrPredicate (a b k v : String) : String :=
  "(" ++ a ++ "[" ++ sqlString k ++ "] = " ++ sqlString v ++ " OR " ++ b ++ "[" ++ sqlString k ++ "] = " ++ sqlString v ++ ")"

/-- The other rows, those that lack the key among them. -/
def attrNotPredicate (a b k v : String) : String :=
  "NOT (COALESCE(" ++ a ++ "[" ++ sqlString k ++ "] = " ++ sqlString v ++ ", false) OR COALESCE(" ++ b ++ "[" ++ sqlString k ++
    "] = " ++ sqlString v ++ ", false))"

/-- Click-to-filter predicates on the attribute maps. -/
def attrWheres (attr attrNot : Option String) (keyCols : String × String) : Except String (List String) := do
  let (a, b) := keyCols
  let kept ← attrWhere debug "attr" (attrPredicate a b) attr
  let excluded ← attrWhere debug "attr_not" (attrNotPredicate a b) attrNot
  pure (kept ++ excluded)

end Tumult.SqlUtil
