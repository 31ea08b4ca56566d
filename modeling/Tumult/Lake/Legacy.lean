import Tumult.Lake.Analytics
import Tumult.Lake.Schema
import Tumult.Lib.Merge

/-!
# Importing a legacy store

Rows of a store from before the schemas were unified are merged into this one, table by table, each by one statement that inserts
the rows whose natural key is not there. Of the constraints of the tables, those that an insert is held against are modelled: the
columns that cannot be null, the defaults, and the primary and unique keys.
-/

namespace Tumult.Schema

open Db (Tx Env)
open Tables (Table)

/-- A target table and the natural key used to skip rows already present. -/
structure LegacyTable where
  table : String
  key : List String
  deriving DecidableEq, Repr

def LEGACY_TABLES : List LegacyTable := [
  ⟨"experiments", ["experiment_id"]⟩,
  ⟨"activity_results", ["experiment_id", "name", "started_at_ns"]⟩,
  ⟨"load_results", ["experiment_id", "tool", "started_at_ns"]⟩,
  ⟨"agentic_runs", ["run_id"]⟩,
  ⟨"agentic_contract_outcomes", ["run_id", "contract_type", "scenario"]⟩,
  ⟨"agentic_fault_applications", ["run_id", "fault_type", "scenario"]⟩,
  ⟨"agentic_replay_outcomes", ["run_id", "replay_id"]⟩,
  ⟨"graph_nodes", ["id"]⟩,
  ⟨"graph_edges", ["src", "rel", "dst", "run_id", "ts"]⟩,
  ⟨"autopilot_decisions", ["id"]⟩,
  ⟨"autopilot_events", ["decision_id", "at_ns", "kind"]⟩,
  ⟨"autopilot_change_events", ["service_id", "at_ns", "source"]⟩,
  ⟨"spans", ["trace_id", "span_id"]⟩,
  ⟨"logs", ["ts_ns", "trace_id", "span_id", "body"]⟩,
  ⟨"metric_sums", ["ts_ns", "metric_name"]⟩,
  ⟨"metric_gauges", ["ts_ns", "metric_name"]⟩,
  ⟨"metric_histograms", ["ts_ns", "metric_name"]⟩,
  ⟨"manual_experiments", ["id"]⟩,
  ⟨"manual_experiment_audit", ["id"]⟩,
  ⟨"evidence_attachments", ["id"]⟩,
  ⟨"import_batches", ["id"]⟩]

theorem legacyTables_nodup : (LEGACY_TABLES.map (·.table)).Nodup := by decide +kernel

theorem legacyTables_keyed : ∀ e ∈ LEGACY_TABLES, e.key ≠ [] := by decide

/-- The schema has every natural key. -/
theorem schema_hasKeys : ∀ e ∈ LEGACY_TABLES, (Tables.Ddl.created declarations e.table).isSome ∧
    ∀ k ∈ e.key, k ∈ Tables.Ddl.declared declarations e.table := by
  decide +kernel

/-! ## The constraints -/

/-- The columns of a table that are declared `NOT NULL`, or are its primary key. -/
def notNull : String → List String
  | "experiments" => ["experiment_id", "title", "status", "started_at_ns", "ended_at_ns", "duration_ms", "method_step_count",
      "rollback_count"]
  | "activity_results" => ["experiment_id", "name", "activity_type", "status", "started_at_ns", "duration_ms", "phase"]
  | "load_results" => ["experiment_id", "tool", "started_at_ns", "ended_at_ns", "duration_s", "vus", "throughput_rps",
      "latency_p50_ms", "latency_p95_ms", "latency_p99_ms", "error_rate", "total_requests", "thresholds_met"]
  | "agentic_runs" => ["run_id", "experiment_id", "target_type", "scenario", "resilience_score"]
  | "agentic_contract_outcomes" => ["run_id", "scenario", "contract_type", "passed", "severity"]
  | "agentic_fault_applications" => ["run_id", "scenario", "fault_type", "applied"]
  | "agentic_replay_outcomes" => ["run_id", "replay_id", "scenario", "passed"]
  | "graph_nodes" => ["id", "kind", "label"]
  | "graph_edges" => ["src", "rel", "dst", "run_id", "ts"]
  | "autopilot_decisions" => ["id", "decided_at_ns", "trigger", "service_id", "plugin", "action", "article_id", "score", "reasons",
      "confidence", "validator", "verdict", "gate_rules", "gate_detail", "policy_hash"]
  | "autopilot_events" => ["decision_id", "at_ns", "kind", "detail"]
  | "autopilot_change_events" => ["service_id", "at_ns", "source"]
  | "spans" => ["ts_ns", "trace_id", "span_id", "span_name", "span_kind", "duration_ns", "status_code", "status_message",
      "service_name"]
  | "logs" => ["ts_ns", "severity_text", "body", "service_name"]
  | "metric_sums" => ["ts_ns", "metric_name", "value"]
  | "metric_gauges" => ["ts_ns", "metric_name", "value"]
  | "metric_histograms" => ["ts_ns", "metric_name", "count", "sum"]
  | "manual_experiments" => ["id", "experiment_name", "exercise_type", "executed_at_ns", "hypothesis", "method", "outcome_status",
      "origin", "entered_by", "entered_at_ns", "attestation", "status", "content_hash"]
  | "manual_experiment_audit" => ["id", "experiment_id", "changed_by", "changed_at_ns", "action", "new_hash"]
  | "evidence_attachments" => ["id", "experiment_id", "kind", "uri", "added_by", "added_at_ns"]
  | "import_batches" => ["id", "source", "imported_at_ns", "rows"]
  | _ => []

/-- The primary key of a table, or the columns of its unique index. -/
def uniqueKey : String → Option (List String)
  | "experiments" => some ["experiment_id"]
  | "agentic_runs" => some ["run_id"]
  | "graph_nodes" => some ["id"]
  | "autopilot_decisions" => some ["id"]
  | "manual_experiment_audit" => some ["id"]
  | "evidence_attachments" => some ["id"]
  | _ => none

/-- The default of a column, which is `NULL` where none is declared. -/
def columnDefault : String → String → Value
  | "manual_experiments", "origin" => .varchar "manual"
  | "manual_experiments", "status" => .varchar "draft"
  | _, _ => .null

/-- Whether an insert that makes one table of another breaks none of its constraints. -/
def accepts (table : String) (T T' : Table Value) : Bool :=
  ((T'.rows.drop T.rows.length).all fun row => (notNull table).all fun c => T'.value? row c ≠ some .null) &&
    ((uniqueKey table).all fun key => decide ((T'.rows.map fun row => key.map (T'.value? row)).Nodup))

/-! ## The import -/

/-- Column names of a table in declaration order; none when it is absent. -/
def tableColumns (db : Store) (table : String) : List String := (db.columns table).getD []

/-- Insert the rows of an attached table whose key is not there: the count of those inserted, or the rejection of a constraint. -/
def insertMissing (source : Store) (e : LegacyTable) (cols : List String) (db : Store) : Option (Nat × Store) := do
  let T ← db e.table
  let S ← source e.table
  let T' := T.merge S (columnDefault e.table) cols e.key
  if accepts e.table T T' then some ((T.missing S e.key).length, Function.update db e.table (some T')) else none

section

variable (Γ : Env)

/-- A statement that counts the rows it changed. -/
def executeCount (f : Store → Option (Nat × Store)) : Tx AnalyticsError Store Nat := do
  let count ← Db.statement Γ .db fun db => ((f db).map (·.1), ((f db).map (·.2)).getD db)
  match count with
  | some n => pure n
  | none => Db.throw .constraint

/-- Merge one table; one that is absent or misses part of its key is skipped. -/
def mergeLegacyTable (source : Store) (e : LegacyTable) : Tx AnalyticsError Store (Option (String × Nat)) := do
  let srcCols ← Db.query Γ .db fun _ => tableColumns source e.table
  if srcCols = [] then pure none
  else
    let dstCols ← Db.query Γ .db fun db => tableColumns db e.table
    let cols := dstCols.filter (· ∈ srcCols)
    -- a source missing part of the natural key cannot be deduped safely
    if e.key.any (· ∉ cols) then pure none
    else
      let inserted ← executeCount Γ (insertMissing source e cols)
      pure (some (e.table, inserted))

def mergeTables (source : Store) : List LegacyTable → Tx AnalyticsError Store (List (String × Nat))
  | [] => pure []
  | e :: es => do
    let merged ← mergeLegacyTable Γ source e
    let report ← mergeTables source es
    pure (merged.toList ++ report)

/-- Merge each known table from the attached catalog. -/
def mergeLegacyTables (source : Store) : Tx AnalyticsError Store (List (String × Nat)) := do
  let _ ← Db.query Γ .db fun _ => ()
  mergeTables Γ source LEGACY_TABLES

/-- A statement whose result is ignored, after a program whatever it returned. -/
def thenDetach {α : Type} (x : Tx AnalyticsError Store α) : Tx AnalyticsError Store α := fun s => ((x s).1, (x s).2.next)

/-- Merge every known table of the store at a path into this one. -/
def importLegacy (path : String) (source : Option Store) : Tx AnalyticsError Store (List (String × Nat)) :=
  match source with
  | none => Db.throw (.internal s!"legacy store not found: {path}")
  | some source => do
    let _ ← Db.query Γ .db fun _ => ()
    thenDetach (mergeLegacyTables Γ source)

end

end Tumult.Schema
