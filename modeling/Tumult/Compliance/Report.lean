import Tumult.Core.Text

/-!
# Reports

The content of a report, which is the same for all renderers. The numbers of charts and widths are of a type of floating-point
numbers whose operations and texts are taken from outside.
-/

namespace Tumult.Compliance

/-- The floating-point numbers of charts. -/
structure Floats (F : Type) where
  lit : ℚ → F
  infinity : F
  negInfinity : F
  pi : F
  add : F → F → F
  sub : F → F → F
  mul : F → F → F
  div : F → F → F
  neg : F → F
  max : F → F → F
  min : F → F → F
  abs : F → F
  fract : F → F
  cos : F → F
  sin : F → F
  sum : List F → F
  lt : F → F → Bool
  le : F → F → Bool
  eq : F → F → Bool
  asI64 : F → Int
  /-- `{}` -/
  display : F → String
  /-- `{:.digits}` -/
  fixed : Nat → F → String

/-- Report template identifiers. -/
inductive TemplateKind where
  | executiveDigest
  | gameDay
  | evidencePack
  deriving DecidableEq, Repr

/-- Document control. -/
structure DocMeta where
  docId : String
  title : String
  template : TemplateKind
  version : String
  classification : String
  generatedAtNs : Int64
  dataAsOfNs : Int64
  period : Option (Int64 × Int64)
  framework : Option String
  experimentId : Option String

/-- A cell is plain text, or a status that is shown as a glyph and its label. -/
inductive Cell where
  | text (s : String)
  | status (s : String)
  deriving DecidableEq, Repr

/-- The glyph of a status and its color. -/
def Cell.glyph (status : String) : String × String :=
  let s := Text.toAsciiLowercase status
  if s ∈ ["completed", "passed", "ok", "low", "good", "met"] then ("●", "#009E73")
  else if s ∈ ["deviated", "stale", "medium", "warning", "fair"] then ("▲", "#E69F00")
  else if s ∈ ["failed", "error", "high", "critical", "poor", "not met"] then ("×", "#D55E00")
  else ("○", "#6B7280")

inductive ChartSpec (F : Type) where
  | bars (rows : List (String × F))
  | donut (slices : List (String × F))
  | lines (series : List (String × List (F × F)))

/-- One content block of a report. -/
inductive Block (F : Type) where
  | h1 (text : String)
  | h2 (text : String)
  | h3 (text : String)
  | paragraph (text : String)
  /-- Label, value and an optional line under it. -/
  | kpis (kpis : List (String × String × Option String))
  | keyValues (kvs : List (String × Cell))
  | table (headers : List String) (rows : List (List Cell)) (numericCols : List Nat) (widths : Option (List F))
  | bullets (items : List String)
  | chart (spec : ChartSpec F)
  | pageBreak
  | footnote (text : String)
  /-- Role and name, which is empty for a blank line. -/
  | signoff (roles : List (String × String))

structure ReportDoc (F : Type) where
  docMeta : DocMeta
  blocks : List (Block F)

example : Cell.glyph "Completed" = ("●", "#009E73") := by decide

end Tumult.Compliance
