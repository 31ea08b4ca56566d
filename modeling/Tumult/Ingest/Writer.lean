import Tumult.Lib.Db
import Tumult.Core.Types

/-!
# The single writer of the ingest daemon

Every ingest path sends its batch through one channel to one task, which applies the batches in turn on the store's only writer and
acknowledges each with what the store said. Spans and logs are one transaction; a metrics batch is one transaction for each kind of
data point. A batch that fails with a fatal error makes the task rebuild its connection. Texts of store errors are numbered by the
tick they are reported at. Back-off times and log lines are left out.
-/

namespace Tumult

open Db (Tx Env withTx executeAll)

/-! ## Rows -/

structure SpanRow where
  tsNs : Int
  traceId : String
  spanId : String
  parentSpanId : Option String := none
  spanName : String
  spanKind : String := ""
  durationNs : Int := 0
  statusCode : String := ""
  statusMessage : String := ""
  serviceName : String := ""
  serviceVersion : Option String := none
  experimentId : Option String := none
  experimentName : Option String := none
  outcomeStatus : Option String := none
  faultType : Option String := none
  faultSubtype : Option String := none
  faultSeverity : Option String := none
  blastRadius : Option String := none
  targetSystem : Option String := none
  targetTechnology : Option String := none
  targetEnvironment : Option String := none
  pluginName : Option String := none
  hypothesisMet : Option Bool := none
  recoveryTimeS : Option F64 := none
  spanAttrs : List (String × String) := []
  resourceAttrs : List (String × String) := []
  events : String := ""
  deriving DecidableEq, Repr

structure LogRow where
  tsNs : Int
  severityText : String
  body : String
  traceId : Option String := none
  spanId : Option String := none
  serviceName : String := ""
  logAttrs : List (String × String) := []
  resourceAttrs : List (String × String) := []
  deriving DecidableEq, Repr

structure MetricSumRow where
  tsNs : Int
  metricName : String
  value : F64
  experimentName : Option String := none
  outcomeStatus : Option String := none
  pluginName : Option String := none
  attrs : List (String × String) := []
  resourceAttrs : List (String × String) := []
  deriving DecidableEq, Repr

/-- Same shape as a sum. -/
structure MetricGaugeRow extends MetricSumRow
  deriving DecidableEq, Repr

structure MetricHistogramRow where
  tsNs : Int
  metricName : String
  count : Nat
  sum : F64
  min : Option F64 := none
  max : Option F64 := none
  bucketCounts : List Int := []
  explicitBounds : List F64 := []
  experimentName : Option String := none
  outcomeStatus : Option String := none
  pluginName : Option String := none
  attrs : List (String × String) := []
  resourceAttrs : List (String × String) := []
  deriving DecidableEq, Repr

structure MetricRows where
  sums : List MetricSumRow := []
  gauges : List MetricGaugeRow := []
  histograms : List MetricHistogramRow := []
  deriving DecidableEq, Repr

/-- The telemetry tables. -/
structure TelemetryDb where
  spans : List SpanRow := []
  logs : List LogRow := []
  metricSums : List MetricSumRow := []
  metricGauges : List MetricGaugeRow := []
  metricHistograms : List MetricHistogramRow := []
  deriving DecidableEq, Repr

/-! ## The inserts -/

/-- An empty events string is not valid JSON; it is stored as an empty array. -/
def SpanRow.normalized (r : SpanRow) : SpanRow := { r with events := if r.events = "" then "[]" else r.events }

/-- Insert a batch of rows in one transaction: one prepared statement, executed once a row. -/
def insertRows (Γ : Env) {ρ : Type} (insert : ρ → TelemetryDb → TelemetryDb) (rows : List ρ) : Tx Unit TelemetryDb Unit :=
  withTx Γ () (executeAll Γ () () (some :: rows.map fun r db => some (insert r db)))

def insertSpans (Γ : Env) : List SpanRow → Tx Unit TelemetryDb Unit :=
  insertRows Γ fun r db => { db with spans := db.spans ++ [r.normalized] }

def insertLogs (Γ : Env) : List LogRow → Tx Unit TelemetryDb Unit :=
  insertRows Γ fun r db => { db with logs := db.logs ++ [r] }

def insertMetricSums (Γ : Env) : List MetricSumRow → Tx Unit TelemetryDb Unit :=
  insertRows Γ fun r db => { db with metricSums := db.metricSums ++ [r] }

def insertMetricGauges (Γ : Env) : List MetricGaugeRow → Tx Unit TelemetryDb Unit :=
  insertRows Γ fun r db => { db with metricGauges := db.metricGauges ++ [r] }

def insertMetricHistograms (Γ : Env) : List MetricHistogramRow → Tx Unit TelemetryDb Unit :=
  insertRows Γ fun r db => { db with metricHistograms := db.metricHistograms ++ [r] }

/-! ## The writer task -/

/-- One batch to persist: telemetry, or an arbitrary write. -/
inductive Batch where
  | spans (rows : List SpanRow)
  | logs (rows : List LogRow)
  | metrics (rows : MetricRows)
  | exec (f : Tx Unit TelemetryDb Unit)

def apply (Γ : Env) : Batch → Tx Unit TelemetryDb Unit
  | .spans rows => insertSpans Γ rows
  | .logs rows => insertLogs Γ rows
  | .metrics rows => do
    insertMetricSums Γ rows.sums
    insertMetricGauges Γ rows.gauges
    insertMetricHistograms Γ rows.histograms
  | .exec f => f

/-- Whether a persist error means that the connection is dead. -/
def shouldReconnect (error : String) : Bool := decide ("FATAL".toList <:+: error.toList)

/-- Rebuild the writer, with bounded retries. -/
def reconnect (Γ : Env) : Nat → Tx Unit TelemetryDb Unit
  | 0 => Db.throw ()
  | attempts + 1 => fun s =>
    if Γ.fails s.tick then reconnect Γ attempts s.next else (.ok (), s.next)

/-- A batch the task has taken from the channel: the session it found, what it acknowledged, and the session it left. -/
structure Served where
  before : Db.Session TelemetryDb
  batch : Batch
  ack : Except String Unit
  after : Db.Session TelemetryDb

/-- Apply one batch; `dbPath` is whether the task knows the path to reconnect to. -/
def serve (Γ : Env) (texts : Nat → String) (dbPath : Bool) (batch : Batch) (s : Db.Session TelemetryDb) : Served :=
  match apply Γ batch s with
  | (.ok (), s') => ⟨s, batch, .ok (), s'⟩
  | (.error (), s') =>
    let error := texts s'.tick
    ⟨s, batch, .error error, if dbPath && shouldReconnect error then Db.after (reconnect Γ 3) s' else s'⟩

/-- The task's receive loop, over the batches in the order the channel delivers them. -/
def runLoop (Γ : Env) (texts : Nat → String) (dbPath : Bool) : List Batch → Db.Session TelemetryDb → List Served
  | [], _ => []
  | batch :: queue, s =>
    let served := serve Γ texts dbPath batch s
    served :: runLoop Γ texts dbPath queue served.after

end Tumult
