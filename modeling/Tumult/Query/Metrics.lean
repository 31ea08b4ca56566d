import Tumult.Lib.SqlLex

/-!
# Metric definitions

A metric names a source table, a measure and dimensions, and is compiled to one `SELECT`. Every name is checked before it is put
into the text, and the literals of conditions are escaped.
-/

namespace Tumult.Metrics

/-- `f64` as text, with what is documented of it: a finite number is shown in decimals without an exponent, a negative one as a sign
before its absolute value, and the text is read back as the number. -/
structure FloatText (F : Type) where
  display : F → String
  parse : String → Option F
  isFinite : F → Bool
  isNegative : F → Bool
  abs : F → F
  neg : F → F
  display_decimal : ∀ x, isFinite x = true → isNegative x = false → SqlLex.Decimal (display x).toList
  parse_display : ∀ x, isFinite x = true → isNegative x = false → parse (display x) = some x
  display_negative : ∀ x, isFinite x = true → isNegative x = true → display x = "-" ++ display (abs x)
  isFinite_abs : ∀ x, isFinite x = true → isFinite (abs x) = true
  isNegative_abs : ∀ x, isFinite x = true → isNegative (abs x) = false
  neg_abs : ∀ x, isNegative x = true → neg (abs x) = x

inductive MetricsError where
  | invalidIdentifier (text : String)
  | invalidLiteral (text : String)
  deriving DecidableEq, Repr

section

variable {F : Type}

/-- A literal of an equality condition. -/
inductive Literal (F : Type) where
  | bool (b : Bool)
  | num (n : F)
  | str (s : String)
  deriving DecidableEq

/-- `column = literal` -/
structure Condition (F : Type) where
  column : String
  equals : Literal F

/-- One side of a rate: a column to aggregate, under conditions; `*` counts rows. -/
structure Term (F : Type) where
  column : String
  condition : Option (Condition F)
  conditions : List (Condition F)

inductive Measure (F : Type) where
  | count
  | sum (column : String)
  | avg (column : String)
  | countDistinct (column : String)
  | rate (num den : Term F)

structure MetricDef (F : Type) where
  name : String
  sourceTable : String
  measure : Measure F
  dimensions : List String
  timeCol : String
  condition : Option (Condition F)

/-- Not empty, and of `[a-z0-9_.]` only. -/
def validIdent (s : String) : Bool := !s.toList.isEmpty && s.toList.all fun c => c.isLower || c.isDigit || c = '_' || c = '.'

def checkIdent (s : String) : Except MetricsError Unit := if validIdent s then pure () else throw (.invalidIdentifier s)

/-- `s.replace('\'', "''")` -/
def escapeQuotes (s : String) : String := String.ofList (s.toList.flatMap fun c => if c = '\'' then ['\'', '\''] else [c])

variable (N : FloatText F)

def renderLiteral : Literal F → Except MetricsError String
  | .bool b => pure (if b then "TRUE" else "FALSE")
  | .num n => pure (N.display n)
  | .str s => if '\x00' ∈ s.toList then throw (.invalidLiteral s) else pure ("'" ++ escapeQuotes s ++ "'")

def renderCondition (cond : Condition F) : Except MetricsError String := do
  checkIdent cond.column
  let literal ← renderLiteral N cond.equals
  pure (cond.column ++ " = " ++ literal)

def renderTerm (term : Term F) : Except MetricsError String := do
  let conds ← (term.condition.toList ++ term.conditions).mapM (renderCondition N)
  let condition := if conds = [] then none else some (" AND ".intercalate conds)
  if term.column = "*" then
    match condition with
    | some cond => pure ("COUNT(*) FILTER (WHERE " ++ cond ++ ")")
    | none => pure "COUNT(*)"
  else do
    checkIdent term.column
    match condition with
    | some cond => pure ("SUM(CASE WHEN " ++ cond ++ " THEN CAST(" ++ term.column ++ " AS DOUBLE) ELSE 0 END)")
    | none => pure ("SUM(CAST(" ++ term.column ++ " AS DOUBLE))")

def renderMeasure : Measure F → Except MetricsError String
  | .count => pure "COUNT(*)"
  | .sum column => do
    checkIdent column
    pure ("SUM(" ++ column ++ ")")
  | .avg column => do
    checkIdent column
    pure ("AVG(" ++ column ++ ")")
  | .countDistinct column => do
    checkIdent column
    pure ("COUNT(DISTINCT " ++ column ++ ")")
  | .rate num den => do
    let num ← renderTerm N num
    let den ← renderTerm N den
    pure (num ++ " / NULLIF(" ++ den ++ ", 0)")

/-- Validate every name of a definition. -/
def validate (metric : MetricDef F) : Except MetricsError Unit := do
  checkIdent metric.name
  checkIdent metric.sourceTable
  checkIdent metric.timeCol
  metric.dimensions.forM checkIdent
  let _ ← renderMeasure N metric.measure
  let _ ← metric.condition.toList.mapM (renderCondition N)
  pure ()

/-- The conditions on the rows: the metric's own, and the range of its time. -/
def renderWheres (metric : MetricDef F) (timeRange : Option (Int × Int)) : Except MetricsError (List String) := do
  let conds ← metric.condition.toList.mapM (renderCondition N)
  match timeRange with
  | some (start, stop) => pure (conds ++ [metric.timeCol ++ " >= " ++ toString start, metric.timeCol ++ " < " ++ toString stop])
  | none => pure conds

def whereSql (wheres : List String) : String := if wheres = [] then "" else "\nWHERE " ++ "\n  AND ".intercalate wheres

/-- Compile a definition into SQL, with the dimensions of the caller. -/
def toSql (metric : MetricDef F) (groupBy : List String) (timeRange : Option (Int × Int)) : Except MetricsError String := do
  validate N metric
  groupBy.forM checkIdent
  let dims := metric.dimensions ++ groupBy
  let measureSql ← renderMeasure N metric.measure
  let selectDims := if dims = [] then "" else ", ".intercalate dims ++ ", "
  let wheres ← renderWheres N metric timeRange
  let groupSql := if dims = [] then "" else "\nGROUP BY " ++ ", ".intercalate dims ++ "\nORDER BY " ++ ", ".intercalate dims
  pure ("SELECT " ++ selectDims ++ measureSql ++ " AS value\nFROM " ++ metric.sourceTable ++ whereSql wheres ++ groupSql)

/-- Compile a definition into a series of buckets of the time, with the dimensions of the caller only. -/
def toSqlBucketed (metric : MetricDef F) (bucketNs : Int) (groupBy : List String) (timeRange : Option (Int × Int)) :
    Except MetricsError String := do
  validate N metric
  if bucketNs ≤ 0 then throw (.invalidIdentifier ("bucket_ns must be positive, got " ++ toString bucketNs))
  groupBy.forM checkIdent
  let measureSql ← renderMeasure N metric.measure
  let selectDims := if groupBy = [] then "" else ", " ++ ", ".intercalate groupBy
  let wheres ← renderWheres N metric timeRange
  let groupSql :=
    if groupBy = [] then "\nGROUP BY bucket_s\nORDER BY bucket_s"
    else "\nGROUP BY bucket_s, " ++ ", ".intercalate groupBy ++ "\nORDER BY bucket_s, " ++ ", ".intercalate groupBy
  pure ("SELECT (" ++ metric.timeCol ++ " // " ++ toString bucketNs ++ ") * " ++ toString bucketNs ++
    " // 1000000000 AS bucket_s" ++ selectDims ++ ", " ++ measureSql ++ " AS value\nFROM " ++ metric.sourceTable ++
    whereSql wheres ++ groupSql)

end

end Tumult.Metrics
