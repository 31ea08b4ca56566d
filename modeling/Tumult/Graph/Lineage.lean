import Tumult.Lib.OrdMap
import Tumult.Graph.Model

/-!
# Compliance lineage

The matrix of controls and services, computed from the edges of all runs: for each experiment that maps a control and targets a
service in one run, the latest such run counts, and a cell is the worst of its experiments.
-/

namespace Tumult

/-- The status of one control on one service. -/
inductive ControlServiceStatus where
  | evidenced
  | broken
  | untested
  deriving DecidableEq, Repr

/-- Why a control is broken on a service. -/
structure BreakCause where
  deviationId : String
  faultId : Option String
  guardName : Option String
  failingActions : List String
  runId : String
  deriving DecidableEq, Repr

/-- A control and a service, with the verdict. -/
structure LineageCell where
  articleId : String
  serviceId : String
  status : ControlServiceStatus
  evidenceStrength : Option String
  cause : Option BreakCause
  experiments : List String
  deriving DecidableEq, Repr

/-- An edge as it is stored: with the run that gave it and its time. -/
structure EdgeRecord where
  src : String
  rel : String
  dst : String
  runId : String
  ts : Int
  attrs : String
  deriving DecidableEq, Repr

/-- A node, as far as the lineage reads it. -/
structure NodeSummary where
  id : String
  deriving DecidableEq, Repr

/-- Everything the lineage is computed from. How the text of an edge's attributes parses is taken from outside. -/
structure LineageInput where
  edges : List EdgeRecord
  services : List NodeSummary
  articles : List NodeSummary
  deviationAttrs : String → Option Attr
  parseAttrs : String → Option Attr

/-- The edges of a run that are relevant. -/
structure RunEdges where
  ts : Int := 0
  maps : List (String × String) := []
  targets : List (String × String) := []
  evidences : OrdMap (String ×ₗ String) String := .empty
  deviations : List String := []

/-- Take in one edge of a run. -/
def RunEdges.add (edge : EdgeRecord) (run : RunEdges) : RunEdges :=
  let run := { run with ts := max run.ts edge.ts }
  if edge.rel = "maps_to_compliance" then { run with maps := run.maps ++ [(edge.src, edge.dst)] }
  else if edge.rel = "targets" then { run with targets := run.targets ++ [(edge.src, edge.dst)] }
  else if edge.rel = "evidences" then { run with evidences := run.evidences.alter (toLex (edge.src, edge.dst)) fun _ => edge.attrs }
  else if edge.rel = "exhibited" then { run with deviations := run.deviations ++ [edge.dst] }
  else run

/-- Group the relevant edges by run. -/
def indexRuns (edges : List EdgeRecord) : OrdMap String RunEdges :=
  edges.foldl (fun runs edge => runs.alter edge.runId fun run => (run.getD {}).add edge) .empty

/-- The least fault each deviation is attributed to. -/
def indexCausedBy (edges : List EdgeRecord) : OrdMap String Stringᵒᵈ :=
  (edges.filter (·.rel = "caused_by")).foldl (fun causes edge => causes.insertMax edge.src (OrderDual.toDual edge.dst)) .empty

/-- The strength on an `evidences` edge. -/
def strengthOf (parse : String → Option Attr) (attrs : String) : Option String :=
  ((parse attrs).bind (·.get? "strength")).bind (·.asStr?)

/-- An article is in the requested scope: the framework in any case, the control exactly. -/
def articleInScope (articleId : String) (framework control : Option String) : Bool :=
  let pre := "compliance:".toList
  let rest := articleId.toList.drop pre.length
  let fw := rest.takeWhile (· ≠ '/')
  let ctrl := rest.drop (fw.length + 1)
  pre.isPrefixOf articleId.toList && rest.contains '/' &&
    framework.all (fun want => fw.map Char.toLower = want.toList.map Char.toLower) &&
    control.all (fun want => ctrl = want.toList)

/-- A run, in the order of runs: by its time, then by its identifier. -/
abbrev RunKey : Type := Int ×ₗ String

/-- The latest run of each experiment, article and service. -/
def latestRuns (runs : OrdMap String RunEdges) (framework control : Option String) :
    OrdMap (String ×ₗ String ×ₗ String) RunKey :=
  runs.entries.foldl (fun latest (runId, run) =>
    run.maps.foldl (fun latest (exp, article) =>
      if !articleInScope article framework control then latest
      else run.targets.foldl (fun latest (targetExp, service) =>
        if targetExp ≠ exp then latest
        else latest.insertMax (toLex (exp, toLex (article, service))) (toLex (run.ts, runId))) latest) latest) .empty

/-- An experiment and its latest run. -/
abbrev CellEntry : Type := String × RunKey

/-- The entries of each covered article and service. -/
def groupCells (latest : OrdMap (String ×ₗ String ×ₗ String) RunKey) : OrdMap (String ×ₗ String) (List CellEntry) :=
  latest.entries.foldl (fun cells (key, run) =>
    let (exp, pair) := ofLex key
    cells.alter pair fun entries => entries.getD [] ++ [(exp, run)]) .empty

/-- The last of the items with the greatest key. -/
def maxByKey {α κ : Type} [LinearOrder κ] (key : α → κ) (items : List α) : Option α :=
  items.foldl (fun best item =>
    match best with
    | some b => if key b ≤ key item then some item else some b
    | none => some item) none

/-- The cause of a break; a run with neither evidence nor deviation is broken too. -/
def buildCause (deviation : Option String) (runId : String) (causedBy : OrdMap String Stringᵒᵈ)
    (deviationAttrs : String → Option Attr) : BreakCause :=
  let deviationId := deviation.getD ""
  let attrs := deviationAttrs deviationId
  { deviationId := deviationId
    faultId := (causedBy.get? deviationId).map OrderDual.ofDual
    guardName := ((attrs.bind (·.get? "halt")).bind (·.get? "guard_name")).bind (·.asStr?)
    failingActions := ((attrs.bind (·.get? "failing_actions")).map (·.items.filterMap (·.asStr?))).getD []
    runId := runId }

/-- The strength of the evidence an entry's run has for an article, if it has any. -/
def evidenceOf (runs : OrdMap String RunEdges) (parse : String → Option Attr) (article : String) (entry : CellEntry) :
    Option (Option String) :=
  ((runs.get? (ofLex entry.2).2).bind fun run => run.evidences.get? (toLex (entry.1, article))).map (strengthOf parse)

/-- A covered cell: broken when one experiment's latest run has no evidence. -/
def resolveCell (input : LineageInput) (runs : OrdMap String RunEdges) (causedBy : OrdMap String Stringᵒᵈ) (article service : String)
    (entries : List CellEntry) : LineageCell :=
  let broken := (entries.filter fun entry => (evidenceOf runs input.parseAttrs article entry).isNone).map (·.2)
  let evidenced := entries.filterMap fun entry => (evidenceOf runs input.parseAttrs article entry).map (entry.2, ·)
  let experiments := ((entries.map (·.1)).insertionSort (· ≤ ·)).dedup
  match broken.max? with
  | some run =>
    let runId := (ofLex run).2
    let deviation := (runs.get? runId).bind (·.deviations.min?)
    { articleId := article
      serviceId := service
      status := .broken
      evidenceStrength := none
      cause := some (buildCause deviation runId causedBy input.deviationAttrs)
      experiments := experiments }
  | none =>
    { articleId := article
      serviceId := service
      status := .evidenced
      evidenceStrength := (maxByKey (·.1) evidenced).bind (·.2)
      cause := none
      experiments := experiments }

/-- A cell no run covers. -/
def untestedCell (article service : String) : LineageCell where
  articleId := article
  serviceId := service
  status := .untested
  evidenceStrength := none
  cause := none
  experiments := []

/-- The article and the service of a cell, in the order of the output. -/
def LineageCell.key (cell : LineageCell) : String ×ₗ String := toLex (cell.articleId, cell.serviceId)

/-- Compute the lineage matrix. -/
def computeLineage (input : LineageInput) (framework control : Option String) : List LineageCell :=
  let runs := indexRuns input.edges
  let causedBy := indexCausedBy input.edges
  let cells := groupCells (latestRuns runs framework control)
  let resolved := cells.entries.map fun (pair, entries) =>
    resolveCell input runs causedBy (ofLex pair).1 (ofLex pair).2 entries
  let untested := (input.articles.filter (articleInScope ·.id framework control)).flatMap fun article =>
    (input.services.filter fun service => (cells.get? (toLex (article.id, service.id))).isNone).map fun service =>
      untestedCell article.id service.id
  (resolved ++ untested).insertionSort (·.key ≤ ·.key)

end Tumult
