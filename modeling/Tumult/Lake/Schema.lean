import Tumult.Lib.Tables
import Tumult.Graph.Map

/-!
# The schema and its migration

Every open of a store for writing migrates it. The additive statements run first, each on its own; then the version that is recorded
decides on two rebuilds, each a transaction, and on the row of the backfill identity; then come the graph tables, the rollup view
and the compliance articles; the version is recorded last. Column types, defaults and keys of the statements are left out: no
statement of the migration reads them.
-/

namespace Tumult

open Tables (Ddl Table Database rebuild)
open Db (Tx Env executeAll)

namespace Schema

/-- A value of a row. -/
inductive Value where
  | null
  | boolean (b : Bool)
  | bigint (n : Int)
  | double (bits : UInt64)
  | varchar (s : String)
  | list (items : List String)
  | map (entries : List (String × String))
  | json (text : String)
  deriving DecidableEq, Repr

/-- A store, as the migration sees it. -/
abbrev Store : Type := Database Value

def currentSchemaVersion : Int := 15

/-! ## The declared tables -/

/-- The telemetry tables, the columns promoted on histograms, and the version store. -/
def telemetry : List Ddl := [
  .createTable "spans" [
    "ts_ns", "trace_id", "span_id", "parent_span_id", "span_name", "span_kind", "duration_ns", "status_code", "status_message",
    "service_name", "service_version", "experiment_id", "experiment_name", "outcome_status", "fault_type", "fault_subtype",
    "fault_severity", "blast_radius", "target_system", "target_technology", "target_environment", "plugin_name",
    "hypothesis_met", "recovery_time_s", "span_attrs", "resource_attrs", "events"],
  .derived "idx_spans_ts_ns",
  .derived "idx_spans_experiment_id",
  .derived "idx_spans_trace_id",
  .createTable "logs" ["ts_ns", "severity_text", "body", "trace_id", "span_id", "service_name", "log_attrs", "resource_attrs"],
  .derived "idx_logs_ts_ns",
  .createTable "metric_sums" [
    "ts_ns", "metric_name", "value", "experiment_name", "outcome_status", "plugin_name", "attrs", "resource_attrs"],
  .derived "idx_metric_sums_name_ts",
  .createTable "metric_gauges" [
    "ts_ns", "metric_name", "value", "experiment_name", "outcome_status", "plugin_name", "attrs", "resource_attrs"],
  .derived "idx_metric_gauges_name_ts",
  .createTable "metric_histograms" [
    "ts_ns", "metric_name", "count", "sum", "min", "max", "bucket_counts", "explicit_bounds", "attrs", "resource_attrs",
    "experiment_name", "outcome_status", "plugin_name"],
  .addColumn "metric_histograms" "experiment_name",
  .addColumn "metric_histograms" "outcome_status",
  .addColumn "metric_histograms" "plugin_name",
  .derived "idx_metric_histograms_name_ts",
  .createTable "import_batches" ["id", "source", "imported_at_ns", "rows", "label"],
  .createTable "schema_meta" ["key", "value"]]

/-- The manual-evidence tables. -/
def manual : List Ddl := [
  .createTable "manual_experiments" [
    "id", "experiment_name", "exercise_type", "executed_at_ns", "hypothesis", "method", "outcome_status", "hypothesis_met",
    "findings", "action_items", "target_system", "target_environment", "blast_radius", "recovery_time_s", "duration_s",
    "origin", "entered_by", "entered_at_ns", "attestation", "status", "reviewed_by", "reviewed_at_ns", "review_note",
    "renewal_due_ns", "framework_refs", "batch_id", "content_hash"],
  .createTable "manual_experiment_audit" [
    "id", "experiment_id", "changed_by", "changed_at_ns", "action", "diff", "prev_hash", "new_hash"],
  .derived "idx_manual_audit_experiment",
  .createTable "evidence_attachments" ["id", "experiment_id", "kind", "uri", "label", "file_hash", "added_by", "added_at_ns"],
  .derived "idx_evidence_attachments_experiment"]

/-- Journal detail, the agentic tables and the autopilot decision store. -/
def analytics : List Ddl := [
  .createTable "experiments" [
    "experiment_id", "title", "status", "started_at_ns", "ended_at_ns", "duration_ms", "method_step_count", "rollback_count",
    "hypothesis_before_met", "hypothesis_after_met", "estimate_accuracy", "resilience_score"],
  .derived "idx_experiments_id",
  .createTable "activity_results" [
    "experiment_id", "name", "activity_type", "status", "started_at_ns", "duration_ms", "output", "error", "phase"],
  .derived "idx_activities_experiment_id",
  .createTable "load_results" [
    "experiment_id", "tool", "started_at_ns", "ended_at_ns", "duration_s", "vus", "throughput_rps", "latency_p50_ms",
    "latency_p95_ms", "latency_p99_ms", "error_rate", "total_requests", "thresholds_met"],
  .derived "idx_load_experiment_id",
  .createTable "agentic_runs" [
    "run_id", "experiment_id", "target_type", "scenario", "resilience_score", "trace_id", "replay_id"],
  .derived "idx_agentic_runs_experiment_id",
  .createTable "agentic_contract_outcomes" ["run_id", "scenario", "contract_type", "passed", "reason", "severity"],
  .derived "idx_agentic_contracts_run_id",
  .createTable "agentic_fault_applications" ["run_id", "scenario", "fault_type", "applied"],
  .derived "idx_agentic_faults_run_id",
  .createTable "agentic_replay_outcomes" ["run_id", "replay_id", "scenario", "passed"],
  .derived "idx_agentic_replay_run_id",
  .createTable "autopilot_decisions" [
    "id", "decided_at_ns", "trigger", "service_id", "tier", "plugin", "action", "article_id", "score", "reasons", "confidence",
    "playbook", "validator", "verdict", "gate_rules", "gate_detail", "policy_hash", "autonomy_score"],
  .createTable "autopilot_events" ["decision_id", "at_ns", "kind", "detail"],
  .derived "autopilot_events_by_decision",
  .createTable "autopilot_change_events" ["service_id", "at_ns", "source", "detail"]]

/-- The run tables, with the actor and the hash chain of the run audit, and the approval tables. -/
def runs : List Ddl := [
  .createTable "run_registry" ["id", "name", "definition_toon", "content_hash", "registered_at_ns", "registered_by"],
  .createTable "runs" [
    "id", "registry_id", "state", "params_json", "experiment_id", "rollback_status", "error", "queued_at_ns", "started_at_ns",
    "ended_at_ns"],
  .createTable "run_audit" ["run_id", "at_ns", "event", "detail"],
  .addColumn "run_audit" "actor",
  .createTable "approval_requests" [
    "run_id", "tier", "pin_hash", "env", "target", "quorum_required", "requested_by", "requested_at_ns", "expires_at_ns",
    "consumed_at_ns", "break_glass", "break_glass_by", "break_glass_justification"],
  .createTable "approval_decisions" ["run_id", "approver", "decision", "note", "decided_at_ns"],
  .addColumn "run_audit" "prev_hash",
  .addColumn "run_audit" "new_hash",
  .createTable "run_recovery_plans" ["run_id", "plan_json"],
  .createTable "run_execution_pins" ["run_id", "execution_hash"]]

/-- The auth tables, with the optional expiry of a token. -/
def auth : List Ddl := [
  .createTable "users" ["id", "username", "password_hash", "role", "must_change", "disabled", "created_at_ns"],
  .createTable "sessions" ["id_hash", "user_id", "created_at_ns", "expires_at_ns"],
  .createTable "tokens" ["id", "user_id", "name", "token_hash", "created_at_ns", "last_used_at_ns", "revoked"],
  .addColumn "tokens" "expires_at_ns",
  .createTable "user_env_scopes" ["user_id", "environment"]]

/-- Recurring runs, outbound notifications, and the campaign columns. -/
def tableStakes : List Ddl := [
  .createTable "run_schedules" [
    "id", "name", "registry_id", "interval_s", "vars_json", "env", "target", "enabled", "next_run_at_ns", "last_run_at_ns",
    "last_run_id", "created_by", "created_at_ns"],
  .createTable "webhooks" ["id", "name", "url", "secret", "events", "enabled", "created_by", "created_at_ns"],
  .createTable "webhook_cursors" ["webhook_id", "last_at_ns"],
  .createTable "webhook_dead_letters" [
    "webhook_id", "run_id", "at_ns", "event", "detail", "actor", "error", "attempts", "dead_at_ns"],
  .addColumn "run_registry" "kind",
  .addColumn "runs" "gameday_id"]

/-- The graph tables, the attributes of their edges, and the rollup view. -/
def graphTables : List Ddl := [
  .createTable "graph_nodes" ["id", "kind", "label", "attrs"],
  .createTable "graph_edges" ["src", "rel", "dst", "run_id", "ts", "attrs"],
  .derived "idx_graph_edges_src",
  .derived "idx_graph_edges_dst",
  .derived "idx_graph_edges_run",
  .derived "idx_graph_nodes_kind",
  .addColumn "graph_edges" "attrs",
  .derived "experiment_runs"]

/-- The full DDL, in the order in which it is executed. -/
def createTables : List Ddl := telemetry ++ manual ++ analytics ++ runs ++ auth ++ tableStakes

/-- Everything a migration declares. -/
def declarations : List Ddl := createTables ++ graphTables

/-! ## The compliance articles -/

inductive ComplianceFramework where
  | dora
  | nis2
  | pciDss
  | iso22301
  | iso27001
  | soc2
  | baselIii
  deriving DecidableEq, Repr

def ComplianceFramework.asReportStr : ComplianceFramework → String
  | .dora => "DORA"
  | .nis2 => "NIS2"
  | .pciDss => "PCI-DSS"
  | .iso22301 => "ISO-22301"
  | .iso27001 => "ISO-27001"
  | .soc2 => "SOC2"
  | .baselIii => "Basel-III"

inductive EvidenceType where
  | resilienceTesting
  | recoveryValidation
  | continuityExercise
  | effectivenessAssessment
  | monitoring
  | incidentResponseTesting
  deriving DecidableEq, Repr

def EvidenceType.asStr : EvidenceType → String
  | .resilienceTesting => "resilience testing"
  | .recoveryValidation => "recovery validation"
  | .continuityExercise => "continuity exercise"
  | .effectivenessAssessment => "effectiveness assessment"
  | .monitoring => "monitoring"
  | .incidentResponseTesting => "incident-response testing"

inductive EvidenceStrength where
  | direct
  | supporting
  | indirect
  deriving DecidableEq, Repr

def EvidenceStrength.asStr : EvidenceStrength → String
  | .direct => "direct"
  | .supporting => "supporting"
  | .indirect => "indirect"

/-- One row of the compliance mapping registry, as far as a node holds it. -/
structure Citation where
  framework : ComplianceFramework
  controlId : String
  title : String
  evidenceType : EvidenceType
  strength : EvidenceStrength
  sourceUrl : String
  lastVerified : String

def citations : List Citation := [
  ⟨.dora, "Art. 24", "General requirements for the performance of digital operational resilience testing",
    .resilienceTesting, .supporting, "https://eur-lex.europa.eu/eli/reg/2022/2554/oj", "2026-07-04"⟩,
  ⟨.dora, "Art. 25", "Testing of ICT tools and systems",
    .resilienceTesting, .direct, "https://eur-lex.europa.eu/eli/reg/2022/2554/oj", "2026-07-04"⟩,
  ⟨.dora, "Art. 26", "Advanced testing of ICT tools, systems and processes based on TLPT",
    .resilienceTesting, .indirect, "https://eur-lex.europa.eu/eli/reg/2022/2554/oj", "2026-07-04"⟩,
  ⟨.dora, "Art. 11", "Response and recovery",
    .recoveryValidation, .direct, "https://eur-lex.europa.eu/eli/reg/2022/2554/oj", "2026-07-04"⟩,
  ⟨.nis2, "Art. 21(2)(c)", "Business continuity, backup management, disaster recovery and crisis management",
    .recoveryValidation, .direct, "https://eur-lex.europa.eu/eli/dir/2022/2555/oj", "2026-07-04"⟩,
  ⟨.nis2, "Art. 21(2)(b)", "Incident handling",
    .incidentResponseTesting, .supporting, "https://eur-lex.europa.eu/eli/dir/2022/2555/oj", "2026-07-04"⟩,
  ⟨.nis2, "Art. 21(2)(f)", "Policies to assess the effectiveness of cybersecurity risk-management measures",
    .effectivenessAssessment, .supporting, "https://eur-lex.europa.eu/eli/dir/2022/2555/oj", "2026-07-04"⟩,
  ⟨.pciDss, "Req. 12.10.2", "Incident response plan reviewed and tested at least once every 12 months",
    .incidentResponseTesting, .supporting, "https://www.pcisecuritystandards.org/document_library/", "2026-07-04"⟩,
  ⟨.iso22301, "Clause 8.5", "Exercise programme (exercising and testing)",
    .continuityExercise, .direct, "https://www.iso.org/standard/75106.html", "2026-07-04"⟩,
  ⟨.iso27001, "A.5.30", "ICT readiness for business continuity",
    .recoveryValidation, .direct, "https://www.iso.org/standard/27001", "2026-07-04"⟩,
  ⟨.iso27001, "A.5.29", "Information security during disruption",
    .resilienceTesting, .supporting, "https://www.iso.org/standard/27001", "2026-07-04"⟩,
  ⟨.soc2, "CC7.5", "Recovery from identified security incidents",
    .recoveryValidation, .direct, "https://www.aicpa-cima.com/topic/audit-assurance/audit-and-assurance-greater-than-soc-2",
    "2026-07-04"⟩,
  ⟨.soc2, "CC7.4", "Responds to identified security incidents",
    .incidentResponseTesting, .supporting,
    "https://www.aicpa-cima.com/topic/audit-assurance/audit-and-assurance-greater-than-soc-2", "2026-07-04"⟩,
  ⟨.soc2, "CC7.2", "Monitors system components for anomalies",
    .monitoring, .supporting, "https://www.aicpa-cima.com/topic/audit-assurance/audit-and-assurance-greater-than-soc-2",
    "2026-07-04"⟩,
  ⟨.baselIii, "OpRes Principle 4", "Business continuity planning and testing (BCBS Principles for Operational Resilience, 2021)",
    .continuityExercise, .direct, "https://www.bis.org/bcbs/publ/d516.htm", "2026-07-04"⟩,
  ⟨.baselIii, "BCBS 239 Principle 6", "Adaptability (Principles for effective risk data aggregation and risk reporting)",
    .effectivenessAssessment, .indirect, "https://www.bis.org/publ/bcbs239.htm", "2026-07-04"⟩]

/-- The node of an article, as a row is written. -/
structure ArticleNode where
  id : String
  kind : String
  label : String
  attrs : String
  deriving DecidableEq, Repr

/-- The attributes as JSON text; a JSON object lists its keys in order, and no text of the registry needs an escape. -/
def Citation.attrs (c : Citation) : String :=
  let field (name value : String) := "\"" ++ name ++ "\":\"" ++ value ++ "\""
  "\x7b" ++ ",".intercalate [
    field "control_id" c.controlId, field "evidence_type" c.evidenceType.asStr, field "framework" c.framework.asReportStr,
    field "last_verified" c.lastVerified, field "source_url" c.sourceUrl, field "strength" c.strength.asStr,
    field "title" c.title] ++ "\x7d"

def articleNode (citation : Citation) : ArticleNode where
  id := complianceArticleId citation.framework.asReportStr citation.controlId
  kind := "compliance_article"
  label := citation.framework.asReportStr ++ " " ++ citation.controlId
  attrs := citation.attrs

/-- Every compliance article node, one per registry citation. -/
def complianceArticleNodes : List ArticleNode := citations.map articleNode

/-! ## The statements -/

/-- A statement on the store, or its error. -/
abbrev Statement : Type := Store → Option Store

/-- `INSERT INTO table VALUES …`. -/
def insertRow (table : String) (row : List Value) : Statement := fun db => do
  let T ← db table
  if h : row.length = T.columns.length then some (Function.update db table (some (T.insert row h))) else none

/-- The columns of the run tables before anything was added to them. -/
def runsV5 : List String := [
  "id", "registry_id", "state", "params_json", "experiment_id", "rollback_status", "error", "queued_at_ns", "started_at_ns",
  "ended_at_ns"]

def runRegistryV5 : List String := ["id", "name", "definition_toon", "content_hash", "registered_at_ns", "registered_by"]

def manualExperimentsV8 : List String := [
  "id", "experiment_name", "exercise_type", "executed_at_ns", "hypothesis", "method", "outcome_status", "hypothesis_met",
  "findings", "action_items", "target_system", "target_environment", "blast_radius", "recovery_time_s", "duration_s",
  "origin", "entered_by", "entered_at_ns", "attestation", "status", "reviewed_by", "reviewed_at_ns", "review_note",
  "renewal_due_ns", "framework_refs", "batch_id", "content_hash"]

/-- v4 to v5, one transaction: both run tables are copied, with their columns named. -/
def migrateV5RunTablesIndexFree : Statement := fun db => do
  let db ← rebuild .null "runs" "runs_v5" runsV5 (some runsV5) db
  rebuild .null "run_registry" "run_registry_v5" runRegistryV5 (some runRegistryV5) db

/-- v2 to v7, to v8, one transaction: the manual experiments are copied with `SELECT *`. -/
def migrateV8ManualExperimentsIndexFree : Statement :=
  rebuild .null "manual_experiments" "manual_experiments_v8" manualExperimentsV8 none

/-- The backfill identity. -/
def legacyUser : List Value :=
  [.varchar "legacy", .varchar "legacy", .varchar "!", .varchar "viewer", .boolean false, .boolean true, .bigint 0]

def insertLegacyUser : Statement := insertRow "users" legacyUser

def ArticleNode.row (node : ArticleNode) : List Value := [.varchar node.id, .varchar node.kind, .varchar node.label, .json node.attrs]

/-- The value of a row in the first column, which is the key of the keyed tables. -/
def key (row : List Value) : Value := row.headD .null

/-- Insert a node; on a conflict of its identifier the row that is there is given the other three columns. -/
def upsertNode (node : ArticleNode) : Statement := fun db => do
  let T ← db "graph_nodes"
  if h : T.columns = ["id", "kind", "label", "attrs"] then
    if T.rows.any (fun row => key row = .varchar node.id) then
      some (Function.update db "graph_nodes" (some (T.mapRows (fun row => if key row = .varchar node.id then node.row else row) (by
        intro row hrow
        split
        · rw [T.width row hrow, h]
          rfl
        · rfl))))
    else insertRow "graph_nodes" node.row db
  else none

def Value.bigint? : Value → Option Int
  | .bigint n => some n
  | _ => none

/-- `SELECT value FROM schema_meta WHERE key = 'version'`. -/
def storedVersion (db : Store) : Option Int := do
  let T ← db "schema_meta"
  let row ← T.rows.find? fun row => key row = .varchar "version"
  let value ← row[1]?
  value.bigint?

def insertVersion : Statement := insertRow "schema_meta" [.varchar "version", .bigint currentSchemaVersion]

/-- `UPDATE schema_meta SET value = … WHERE key = 'version'`. -/
def updateVersion : Statement := fun db => do
  let T ← db "schema_meta"
  some (Function.update db "schema_meta" (some (T.mapRows
    (fun row => if key row = .varchar "version" then row.set 1 (.bigint currentSchemaVersion) else row)
    (fun row _ => by split <;> simp))))

/-! ## The migration -/

/-- Why a migration stopped: the process was interrupted before a statement, or the database rejected one. -/
inductive MigrationError where
  | interrupted
  | rejected
  deriving DecidableEq, Repr

/-- The rebuilds that the recorded version asks for. -/
def rebuilds (stored : Option Int) : List Statement :=
  (if stored = some 4 then [migrateV5RunTablesIndexFree] else []) ++
    (if stored.any (fun v => 2 ≤ v ∧ v < 8) then [migrateV8ManualExperimentsIndexFree] else [])

/-- The row that the recorded version asks for. -/
def seeds (stored : Option Int) : List Statement := if stored.any (· < 6) then [insertLegacyUser] else []

/-- What records the version. -/
def recordVersion : Option Int → List Statement
  | none => [insertVersion]
  | some stored => if stored < currentSchemaVersion then [updateVersion] else []

section

variable (Γ : Env)

def executeBatch (statements : List Statement) : Tx MigrationError Store Unit :=
  executeAll Γ .interrupted .rejected statements

/-- Shared schema migration. -/
def migrate : Tx MigrationError Store Unit := do
  executeBatch Γ (createTables.map (Ddl.run .null))
  let stored ← Db.query Γ .interrupted storedVersion
  executeBatch Γ (rebuilds stored)
  executeBatch Γ (seeds stored)
  executeBatch Γ (graphTables.map (Ddl.run .null))
  executeBatch Γ (complianceArticleNodes.map upsertNode)
  let version ← Db.query Γ .interrupted storedVersion
  executeBatch Γ (recordVersion version)

end

/-- An open that is not interrupted, and the store it leaves. -/
def openStore (db : Store) : Except MigrationError Unit × Store :=
  let r := migrate Db.calm ⟨db, 0⟩
  (r.1, r.2.store)

/-- The store that an open leaves which is interrupted before its statement of that number. -/
def interruptedOpen (db : Store) (n : Nat) : Store := (migrate (Db.crashAt n) ⟨db, 0⟩).2.store

/-- A store in which nothing was created yet. -/
def noTables : Store := fun _ => none

/-- A freshly created store. -/
def freshStore : Store := (openStore noTables).2

/-! ## What is declared -/

/-- Tables that a migration reads or writes rows of, with the columns they are created with. -/
def plainTables : List (String × List String) :=
  [("schema_meta", ["key", "value"]),
    ("users", ["id", "username", "password_hash", "role", "must_change", "disabled", "created_at_ns"]),
    ("graph_nodes", ["id", "kind", "label", "attrs"]), ("manual_experiments", manualExperimentsV8)]

/-- The table that a statement creates. -/
def created : Ddl → Option String
  | .createTable table _ => some table
  | _ => none

/-- What the lists above owe a migration. -/
structure WellDeclared : Prop where
  createTables_ordered : Ddl.Ordered createTables []
  graphTables_ordered : Ddl.Ordered graphTables []
  sound : ∀ d ∈ declarations, d.Sound declarations
  articles_distinct : (complianceArticleNodes.map (·.id)).Nodup
  /-- Nothing is added to the plain tables. -/
  plain : ∀ e ∈ plainTables, Ddl.created declarations e.1 = some e.2 ∧ Ddl.added declarations e.1 = []
  /-- The tables that a rebuild copies into are not declared. -/
  copies : ∀ name ∈ ["runs_v5", "run_registry_v5", "manual_experiments_v8"], Ddl.created declarations name = none
  /-- The tables that a migration expects to be there are created. -/
  expected : ∀ name ∈ ["schema_meta", "users", "manual_experiments", "runs", "run_registry"], (Ddl.created createTables name).isSome
  graphNodes : (Ddl.created graphTables "graph_nodes").isSome
  graph_runs : Ddl.added graphTables "runs" = []
  fits_runsV5 : Tables.Fits declarations "runs" runsV5
  fits_runRegistryV5 : Tables.Fits declarations "run_registry" runRegistryV5
  fits_schemaMeta : Tables.Fits declarations "schema_meta" ["key", "value"]
  /-- A table keeps a column that it is created with. -/
  required : ∀ table ∈ declarations.filterMap created, (Ddl.required declarations table).isEmpty = false

/-- They are checked at once, since each check waits for everything before it. -/
theorem wellDeclared : WellDeclared := by
  constructor
  case fits_runsV5 => constructor <;> decide +kernel
  case fits_runRegistryV5 => constructor <;> decide +kernel
  case fits_schemaMeta => constructor <;> decide +kernel
  all_goals decide +kernel

end Schema

end Tumult
