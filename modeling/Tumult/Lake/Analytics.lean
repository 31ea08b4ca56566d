import Tumult.Lib.Db
import Tumult.Graph.Map

/-!
# The analytics store: ingestion, retention, export and import

A journal is ingested inside one transaction: the header row of its experiment, its activity rows, its load row, and its part of the
graph. An agentic run is ingested by statements outside any transaction. Both skip what is already there by its header row. Rows
hold the columns that the conversion fills from the part of a journal that is modelled.
-/

namespace Tumult

open Db (Tx Env executeAll)

/-! ## Rows -/

structure ExperimentRow where
  experimentId : String
  title : String
  status : String
  startedAtNs : Int
  endedAtNs : Int
  durationMs : Nat
  methodStepCount : Nat
  rollbackCount : Nat
  hypothesisBeforeMet : Option Bool
  hypothesisAfterMet : Option Bool
  estimateAccuracy : Option F64
  resilienceScore : Option F64
  deriving DecidableEq, Repr

structure ActivityRow where
  experimentId : String
  name : String
  activityType : ActivityType
  status : ActivityStatus
  startedAtNs : Int
  durationMs : Nat
  output : Option String
  error : Option String
  phase : String
  deriving DecidableEq, Repr

structure LoadRow where
  experimentId : String
  vus : Int
  totalRequests : Nat
  thresholdsMet : Bool
  deriving DecidableEq, Repr

structure GraphEdgeRow where
  src : String
  rel : EdgeRel
  dst : String
  runId : String
  ts : Int
  attrs : Attrs

structure AgenticContractAnalytics where
  contractType : String
  scenario : String
  passed : Bool
  reason : Option String
  severity : F64
  deriving DecidableEq, Repr

structure AgenticFaultAnalytics where
  faultType : String
  scenario : String
  applied : Bool
  deriving DecidableEq, Repr

structure AgenticRunAnalytics where
  runId : String
  experimentId : String
  targetType : String
  scenario : String
  resilienceScore : F64
  traceId : Option String
  replayId : Option String
  contracts : List AgenticContractAnalytics
  faults : List AgenticFaultAnalytics
  deriving DecidableEq, Repr

structure AgenticRunRow where
  runId : String
  experimentId : String
  targetType : String
  scenario : String
  resilienceScore : F64
  traceId : Option String
  replayId : Option String
  deriving DecidableEq, Repr

/-- A dependent row of an agentic run. -/
structure OfRun (α : Type) where
  runId : String
  row : α
  deriving DecidableEq, Repr

structure ReplayOutcome where
  replayId : String
  scenario : String
  passed : Bool
  deriving DecidableEq, Repr

/-- The analytics tables. -/
structure AnalyticsDb where
  experiments : List ExperimentRow := []
  activityResults : List ActivityRow := []
  loadResults : List LoadRow := []
  graphNodes : List Node := []
  graphEdges : List GraphEdgeRow := []
  agenticRuns : List AgenticRunRow := []
  agenticContractOutcomes : List (OfRun AgenticContractAnalytics) := []
  agenticFaultApplications : List (OfRun AgenticFaultAnalytics) := []
  agenticReplayOutcomes : List (OfRun ReplayOutcome) := []

/-- Why an operation failed: a statement was refused, a key of the table rejected it, or the arguments make no sense. -/
inductive AnalyticsError where
  | db
  | constraint
  | internal (message : String)
  deriving DecidableEq, Repr

/-! ## Conversion -/

def journalToExperimentRow (journal : Journal) : ExperimentRow where
  experimentId := journal.experimentId
  title := journal.experimentTitle
  status := journal.status.toString
  startedAtNs := journal.startedAtNs
  endedAtNs := journal.endedAtNs
  durationMs := journal.durationMs
  methodStepCount := journal.methodResults.length
  rollbackCount := journal.rollbackResults.length
  hypothesisBeforeMet := journal.steadyStateBefore.map (·.met)
  hypothesisAfterMet := journal.steadyStateAfter.map (·.met)
  estimateAccuracy := journal.analysis.bind (·.estimateAccuracy)
  resilienceScore := journal.analysis.bind (·.resilienceScore)

/-- One row a result of a phase. -/
def activityRows (experimentId phase : String) (results : List ActivityResult) : List ActivityRow :=
  results.map fun r => ⟨experimentId, r.name, r.activityType, r.status, r.startedAtNs, r.durationMs, r.output, r.error, phase⟩

def journalToActivityRows (journal : Journal) : List ActivityRow :=
  activityRows journal.experimentId "hypothesis_before" ((journal.steadyStateBefore.map (·.probeResults)).getD []) ++
    activityRows journal.experimentId "method" journal.methodResults ++
    activityRows journal.experimentId "hypothesis_after" ((journal.steadyStateAfter.map (·.probeResults)).getD []) ++
    activityRows journal.experimentId "rollback" journal.rollbackResults

/-- The users of a load are cast to 32 bits with a sign. -/
def journalToLoadRow (experimentId : String) (load : LoadResult) : LoadRow :=
  ⟨experimentId, (load.vus : Int).bmod (2 ^ 32), load.totalRequests, load.thresholdsMet⟩

/-! ## Ingestion of a journal -/

/-- What ingestion takes from outside: the mapping of the graph, and `json_merge_patch`. -/
structure IngestCtx where
  map : MapCtx
  jsonMergePatch : Attrs → Attrs → Attrs

/-- A statement on the tables, or its rejection. -/
abbrev AnalyticsStatement : Type := AnalyticsDb → Option AnalyticsDb

/-- An append to `experiments`, whose identifiers are unique. -/
def insertExperiments (rows : List ExperimentRow) : AnalyticsStatement := fun db =>
  if (rows.map (·.experimentId)).Nodup ∧ ∀ row ∈ rows, ∀ old ∈ db.experiments, old.experimentId ≠ row.experimentId then
    some { db with experiments := db.experiments ++ rows }
  else none

def insertActivities (rows : List ActivityRow) : AnalyticsStatement := fun db =>
  some { db with activityResults := db.activityResults ++ rows }

def insertLoads (rows : List LoadRow) : AnalyticsStatement := fun db => some { db with loadResults := db.loadResults ++ rows }

/-- `INSERT … ON CONFLICT`: kind and label are replaced, the attributes are merged. -/
def mergeNode (Γ : IngestCtx) (nodes : List Node) (node : Node) : List Node :=
  if nodes.any (·.id = node.id) then
    nodes.map fun old => if old.id = node.id then { node with attrs := Γ.jsonMergePatch old.attrs node.attrs } else old
  else nodes ++ [node]

def upsertNodeMergeAttrs (Γ : IngestCtx) (node : Node) : AnalyticsStatement := fun db =>
  some { db with graphNodes := mergeNode Γ db.graphNodes node }

def deleteEdgesForRun (runId : String) : AnalyticsStatement := fun db =>
  some { db with graphEdges := db.graphEdges.filter (·.runId ≠ runId) }

def insertEdge (edge : GraphEdgeRow) : AnalyticsStatement := fun db => some { db with graphEdges := db.graphEdges ++ [edge] }

/-- The edges of a run as rows. -/
def edgeRows (journal : Journal) (edges : List Edge) : List GraphEdgeRow :=
  edges.map fun edge => ⟨edge.src, edge.rel, edge.dst, journal.experimentId, journal.startedAtNs, edge.attrs⟩

section

variable (Γ : IngestCtx)

/-- Upsert the nodes that a run contributes, and replace its edges. -/
def populateGraph (journal : Journal) (experiment : Option Experiment) : List AnalyticsStatement :=
  let delta := journalToGraph Γ.map journal experiment
  delta.nodes.map (upsertNodeMergeAttrs Γ) ++
    (deleteEdgesForRun journal.experimentId :: (edgeRows journal delta.edges).map insertEdge)

/-- The inserts of a journal, run inside the caller's transaction. -/
def ingestJournalInner (journal : Journal) (experiment : Option Experiment) : List AnalyticsStatement :=
  insertExperiments [journalToExperimentRow journal] ::
    ((if journalToActivityRows journal = [] then [] else [insertActivities (journalToActivityRows journal)]) ++
      (journal.loadResult.toList.map fun load => insertLoads [journalToLoadRow journal.experimentId load]) ++
      populateGraph Γ journal experiment)

end

/-- Whether an experiment is there. -/
def AnalyticsDb.hasExperiment (db : AnalyticsDb) (experimentId : String) : Bool :=
  db.experiments.any (·.experimentId = experimentId)

/-- Whether an agentic run is there. -/
def AnalyticsDb.hasAgenticRun (db : AnalyticsDb) (runId : String) : Bool := db.agenticRuns.any (·.runId = runId)

section

variable (Γ : Env) (ctx : IngestCtx)

/-- Ingest a journal; an experiment that is already there is skipped. -/
def ingestJournalWithExperiment (journal : Journal) (experiment : Option Experiment) : Tx AnalyticsError AnalyticsDb Bool := do
  let present ← Db.query Γ .db (·.hasExperiment journal.experimentId)
  if present then pure false
  else
    Db.withTx Γ .db (executeAll Γ .db .constraint (ingestJournalInner ctx journal experiment))
    pure true

def ingestJournal (journal : Journal) : Tx AnalyticsError AnalyticsDb Bool := ingestJournalWithExperiment Γ ctx journal none

/-- Ingest journals in order, skipping duplicates; the count of those that are new. -/
def ingestJournals : List Journal → Tx AnalyticsError AnalyticsDb Nat
  | [] => pure 0
  | journal :: journals => do
    let ingested ← ingestJournal Γ ctx journal
    let count ← ingestJournals journals
    pure (if ingested then count + 1 else count)

/-! ## Ingestion of an agentic run -/

def insertAgenticRun (row : AgenticRunRow) : AnalyticsStatement := fun db =>
  if db.hasAgenticRun row.runId then none else some { db with agenticRuns := db.agenticRuns ++ [row] }

def insertContract (row : OfRun AgenticContractAnalytics) : AnalyticsStatement := fun db =>
  some { db with agenticContractOutcomes := db.agenticContractOutcomes ++ [row] }

def insertFault (row : OfRun AgenticFaultAnalytics) : AnalyticsStatement := fun db =>
  some { db with agenticFaultApplications := db.agenticFaultApplications ++ [row] }

def insertReplay (row : OfRun ReplayOutcome) : AnalyticsStatement := fun db =>
  some { db with agenticReplayOutcomes := db.agenticReplayOutcomes ++ [row] }

def AgenticRunAnalytics.header (run : AgenticRunAnalytics) : AgenticRunRow :=
  ⟨run.runId, run.experimentId, run.targetType, run.scenario, run.resilienceScore, run.traceId, run.replayId⟩

/-- The outcome of the replay, for a run that has one. -/
def AgenticRunAnalytics.replays (run : AgenticRunAnalytics) : List ReplayOutcome :=
  run.replayId.toList.map fun replayId => ⟨replayId, run.scenario, run.contracts.all (·.passed)⟩

/-- The inserts behind the header row. -/
def AgenticRunAnalytics.dependents (run : AgenticRunAnalytics) : List AnalyticsStatement :=
  (run.contracts.map fun contract => insertContract ⟨run.runId, contract⟩) ++
    (run.faults.map fun fault => insertFault ⟨run.runId, fault⟩) ++
    (run.replays.map fun replay => insertReplay ⟨run.runId, replay⟩)

/-- Ingest one agentic run. -/
def ingestAgenticRun (run : AgenticRunAnalytics) : Tx AnalyticsError AnalyticsDb Bool := do
  let present ← Db.query Γ .db (·.hasAgenticRun run.runId)
  if present then pure false
  else
    executeAll Γ .db .constraint (insertAgenticRun run.header :: run.dependents)
    pure true

/-! ## Maintenance -/

/-- The start before which an experiment is purged; days whose nanoseconds do not fit are an error. -/
def purgeCutoff (nowNs : Int) (days : Nat) : Except AnalyticsError Int :=
  let retentionNs : Int := 86400000000000 * days
  if retentionNs < 2 ^ 63 then .ok (max (nowNs - retentionNs) (-(2 ^ 63)))
  else .error (.internal s!"retention period of {days} days overflows i64 nanoseconds")

/-- The experiments that started before a time. -/
def AnalyticsDb.startedBefore (db : AnalyticsDb) (cutoffNs : Int) : List ExperimentRow :=
  db.experiments.filter (·.startedAtNs < cutoffNs)

/-- Purge the experiments older than some days, and their activities; the count of those removed. -/
def purgeOlderThanDays (days : Nat) : Tx AnalyticsError AnalyticsDb Nat := do
  let nowNs ← Db.now Γ
  let cutoffNs ← Db.ofExcept (purgeCutoff nowNs days)
  Db.execute Γ .db .constraint fun db => some { db with
    activityResults := db.activityResults.filter fun row =>
      !(db.startedBefore cutoffNs).any (·.experimentId = row.experimentId) }
  Db.statement Γ .db fun db =>
    ((db.startedBefore cutoffNs).length, { db with experiments := db.experiments.filter fun row => !(row.startedAtNs < cutoffNs) })

/-- What an export writes: the rows of both tables. -/
structure ExportedTables where
  experiments : List ExperimentRow
  activityResults : List ActivityRow

def exportTables : Tx AnalyticsError AnalyticsDb ExportedTables := do
  let experiments ← Db.query Γ .db (·.experiments)
  let activityResults ← Db.query Γ .db (·.activityResults)
  pure ⟨experiments, activityResults⟩

/-- Import what was exported, in one transaction. -/
def importTables (tables : ExportedTables) : Tx AnalyticsError AnalyticsDb Unit :=
  Db.withTx Γ .db (executeAll Γ .db .constraint [insertExperiments tables.experiments, insertActivities tables.activityResults])

end

end Tumult
