import Tumult.Otlp.Common

/-!
# Export requests as rows

The conversion of a trace request into span rows, and of a metrics request into the rows of sums, gauges and histograms.
-/

namespace Tumult.Otlp

variable (Γ : OtlpCtx)

/-- `i64::try_from(n).unwrap_or(i64::MAX)` -/
def clampI64 (n : Nat) : Int := if n < 2 ^ 63 then n else 2 ^ 63 - 1

/-! ## Traces -/

structure SpanEvent where
  timeUnixNano : Nat
  name : String
  attributes : List KeyValue

structure SpanStatus where
  code : Int
  message : String

structure Span where
  traceId : List UInt8
  spanId : List UInt8
  parentSpanId : List UInt8
  name : String
  kind : Int
  startTimeUnixNano : Nat
  endTimeUnixNano : Nat
  attributes : List KeyValue
  events : List SpanEvent
  status : Option SpanStatus

structure ResourceSpans where
  resource : Option (List KeyValue)
  scopeSpans : List (List Span)

structure SpanRow where
  tsNs : Int
  traceId : String
  spanId : String
  parentSpanId : Option String
  spanName : String
  spanKind : String
  durationNs : Int
  statusCode : String
  statusMessage : String
  serviceName : String
  serviceVersion : Option String
  experimentId : Option String
  experimentName : Option String
  outcomeStatus : Option String
  faultType : Option String
  faultSubtype : Option String
  faultSeverity : Option String
  blastRadius : Option String
  targetSystem : Option String
  targetTechnology : Option String
  targetEnvironment : Option String
  pluginName : Option String
  hypothesisMet : Option Bool
  recoveryTimeS : Option F64
  spanAttrs : List (String × String)
  resourceAttrs : List (String × String)
  events : String

def PROMOTED_SPAN_KEYS : List String :=
  [keys.EXPERIMENT_ID, keys.EXPERIMENT_NAME, keys.EXPERIMENT_TITLE, keys.OUTCOME_STATUS, keys.OUTCOME_HYPOTHESIS_MET,
    keys.OUTCOME_RECOVERY_TIME_S, keys.FAULT_TYPE, keys.FAULT_SUBTYPE, keys.FAULT_SEVERITY, keys.FAULT_BLAST_RADIUS,
    keys.FAULT_PLUGIN, keys.PLUGIN_NAME, keys.TARGET_SYSTEM, keys.TARGET_TECHNOLOGY, keys.TARGET_ENVIRONMENT]

def spanKindStr (kind : Int) : String :=
  if kind = 1 then "Internal" else if kind = 2 then "Server" else if kind = 3 then "Client" else if kind = 4 then "Producer"
  else if kind = 5 then "Consumer" else "Unspecified"

def statusCodeStr (code : Int) : String := if code = 1 then "Ok" else if code = 2 then "Error" else "Unset"

/-- One event as a JSON object, whose fields stand in the order of a JSON map. -/
def eventText (e : SpanEvent) : String :=
  "\x7b" ++ ",".intercalate ((Γ.mapEntries
    [("time_unix_nano", toString e.timeUnixNano), ("name", String.ofList (JsonText.quote e.name)),
      ("attributes", objectText Γ (renderEntries Γ (e.attributes.map fun kv => (kv.key, kv.value))))]).map fun field =>
    String.ofList (JsonText.quote field.1) ++ ":" ++ field.2) ++ "\x7d"

/-- The events as a JSON array. -/
def eventsJson (span : Span) : String := "[" ++ ",".intercalate (span.events.map (eventText Γ)) ++ "]"

/-- One span as a row. The attributes of the span win over those of the resource. -/
def spanToRow (span : Span) (resource : ResourceCtx) : SpanRow :=
  let attrs := span.attributes
  { tsNs := clampI64 span.startTimeUnixNano
    traceId := hexEncode span.traceId
    spanId := hexEncode span.spanId
    parentSpanId := hexId span.parentSpanId
    spanName := span.name
    spanKind := spanKindStr span.kind
    durationNs := clampI64 (span.endTimeUnixNano - span.startTimeUnixNano)
    statusCode := span.status.elim "Unset" fun s => statusCodeStr s.code
    statusMessage := span.status.elim "" fun s => s.message
    serviceName := resource.serviceName
    serviceVersion := resource.serviceVersion
    experimentId := (attrString Γ attrs keys.EXPERIMENT_ID).or resource.experimentId
    experimentName :=
      ((attrString Γ attrs keys.EXPERIMENT_NAME).or (attrString Γ attrs keys.EXPERIMENT_TITLE)).or resource.experimentName
    outcomeStatus := attrString Γ attrs keys.OUTCOME_STATUS
    faultType := attrString Γ attrs keys.FAULT_TYPE
    faultSubtype := attrString Γ attrs keys.FAULT_SUBTYPE
    faultSeverity := attrString Γ attrs keys.FAULT_SEVERITY
    blastRadius := attrString Γ attrs keys.FAULT_BLAST_RADIUS
    targetSystem := attrString Γ attrs keys.TARGET_SYSTEM
    targetTechnology := attrString Γ attrs keys.TARGET_TECHNOLOGY
    targetEnvironment := attrString Γ attrs keys.TARGET_ENVIRONMENT
    pluginName := (attrString Γ attrs keys.FAULT_PLUGIN).or (attrString Γ attrs keys.PLUGIN_NAME)
    hypothesisMet := attrBool attrs keys.OUTCOME_HYPOTHESIS_MET
    recoveryTimeS := attrDouble attrs keys.OUTCOME_RECOVERY_TIME_S
    spanAttrs := unpromotedAttrs Γ attrs PROMOTED_SPAN_KEYS
    resourceAttrs := resource.resourceAttrs
    events := eventsJson Γ span }

/-- Convert a trace export request into rows. -/
def traceRequestToSpans (request : List ResourceSpans) : List SpanRow :=
  request.foldl (fun out resourceSpans =>
    resourceSpans.scopeSpans.foldl (fun out spans =>
      spans.foldl (fun out span => out ++ [spanToRow Γ span (ResourceCtx.fromResource Γ resourceSpans.resource)]) out) out) []

/-! ## Metrics -/

inductive NumberValue where
  | asDouble (d : F64)
  | asInt (i : Int)

structure NumberDataPoint where
  attributes : List KeyValue
  timeUnixNano : Nat
  value : Option NumberValue

structure HistogramDataPoint where
  attributes : List KeyValue
  timeUnixNano : Nat
  count : Nat
  sum : Option F64
  min : Option F64
  max : Option F64
  bucketCounts : List Nat
  explicitBounds : List F64

/-- The length of a vector. -/
abbrev VecLen : Type := { n : Nat // n < 2 ^ 63 }

/-- The data of a metric; of the kinds that are not stored only the number of points is read. -/
inductive MetricData where
  | sum (points : List NumberDataPoint)
  | gauge (points : List NumberDataPoint)
  | histogram (points : List HistogramDataPoint)
  | exponentialHistogram (points : VecLen)
  | summary (points : VecLen)

structure Metric where
  name : String
  data : Option MetricData

structure ResourceMetrics where
  resource : Option (List KeyValue)
  scopeMetrics : List (List Metric)

def PROMOTED_METRIC_KEYS : List String := [keys.EXPERIMENT_NAME, keys.OUTCOME_STATUS, keys.FAULT_PLUGIN, keys.PLUGIN_NAME]

structure PromotedDims where
  experimentName : Option String
  outcomeStatus : Option String
  pluginName : Option String
  attrs : List (String × String)

def promotedDims (attrs : List KeyValue) : PromotedDims where
  experimentName := attrString Γ attrs keys.EXPERIMENT_NAME
  outcomeStatus := attrString Γ attrs keys.OUTCOME_STATUS
  pluginName := (attrString Γ attrs keys.FAULT_PLUGIN).or (attrString Γ attrs keys.PLUGIN_NAME)
  attrs := unpromotedAttrs Γ attrs PROMOTED_METRIC_KEYS

/-- What the rows of all metrics have. -/
structure MetricRow where
  tsNs : Int
  metricName : String
  dims : PromotedDims
  resourceAttrs : List (String × String)

/-- A row of a sum or a gauge. -/
structure MetricNumberRow extends MetricRow where
  value : F64

structure MetricHistogramRow extends MetricRow where
  count : Nat
  sum : F64
  min : Option F64
  max : Option F64
  bucketCounts : List Int
  explicitBounds : List F64

structure MetricRows where
  sums : List MetricNumberRow := []
  gauges : List MetricNumberRow := []
  histograms : List MetricHistogramRow := []
  rejectedDataPoints : Int := 0

def numberValue : Option NumberValue → F64
  | some (.asDouble d) => d
  | some (.asInt i) => .finite (i64AsF64 i)
  | none => .finite 0

def numberRow (resource : ResourceCtx) (metric : Metric) (dp : NumberDataPoint) : MetricNumberRow where
  tsNs := clampI64 dp.timeUnixNano
  metricName := metric.name
  value := numberValue dp.value
  dims := promotedDims Γ dp.attributes
  resourceAttrs := resource.resourceAttrs

def histogramRow (resource : ResourceCtx) (metric : Metric) (dp : HistogramDataPoint) : MetricHistogramRow where
  tsNs := clampI64 dp.timeUnixNano
  metricName := metric.name
  count := dp.count
  sum := dp.sum.getD (.finite 0)
  min := dp.min
  max := dp.max
  bucketCounts := dp.bucketCounts.map clampI64
  explicitBounds := dp.explicitBounds
  dims := promotedDims Γ dp.attributes
  resourceAttrs := resource.resourceAttrs

/-- The points of one metric. The points of a request are in memory together, so their number does not overflow. -/
def addMetric (resource : ResourceCtx) (out : MetricRows) (metric : Metric) : MetricRows :=
  match metric.data with
  | some (.sum points) => { out with sums := out.sums ++ points.map (numberRow Γ resource metric) }
  | some (.gauge points) => { out with gauges := out.gauges ++ points.map (numberRow Γ resource metric) }
  | some (.histogram points) => { out with histograms := out.histograms ++ points.map (histogramRow Γ resource metric) }
  | some (.exponentialHistogram points) | some (.summary points) =>
    { out with rejectedDataPoints := out.rejectedDataPoints + clampI64 points.val }
  | none => out

/-- Convert a metrics export request into rows. Exponential histograms and summaries are not stored. -/
def metricsRequestToRows (request : List ResourceMetrics) : MetricRows :=
  request.foldl (fun out resourceMetrics =>
    resourceMetrics.scopeMetrics.foldl (fun out metrics =>
      metrics.foldl (addMetric Γ (ResourceCtx.fromResource Γ resourceMetrics.resource)) out) out) {}

end Tumult.Otlp
