import Tumult.Otlp.Convert

/-!
# What the conversion of OTLP requests keeps

An attribute that has a value is kept when a promoted column of its key carries the value, or the list of the row has its text. A
key that is promoted is left out of the list whatever happens to its column, so an attribute is lost where the column is taken by
another attribute, where the column has another type, and where the row has no such column.
-/

namespace Tumult.Otlp

variable {Γ : OtlpCtx} {attrs resource : List KeyValue}

/-! ## What is kept -/

/-- What a column holds. -/
inductive Cell where
  | text (s : String)
  | bool (b : Bool)
  | number (d : F64)

/-- The column carries the value: its text, or the value itself. -/
def Cell.Carries (Γ : OtlpCtx) : Cell → AnyValue → Prop
  | .text s, v => s = anyValueToString Γ v
  | .bool b, v => v = .boolValue b
  | .number d, v => v = .doubleValue d ∨ ∃ i : Int, v = .intValue i ∧ d = .finite i

/-- The attributes that have a value, under their keys. -/
def Valued (attrs : List KeyValue) (key : String) (v : AnyValue) : Prop := ⟨key, some v⟩ ∈ attrs ∧ v ≠ .absent

/-- The value of every attribute is in a column of its key, or its text is in a list of the row. -/
def Kept (Γ : OtlpCtx) {C : Type} (columnKeys : C → List String) (column : C → Option Cell) (list : List (String × String))
    (attrs : List KeyValue) : Prop :=
  ∀ key v, Valued attrs key v →
    (∃ c, key ∈ columnKeys c ∧ ∃ cell, column c = some cell ∧ cell.Carries Γ v) ∨ (key, anyValueToString Γ v) ∈ list

/-- The columns of a span row that attributes are promoted to. -/
inductive SpanColumn where
  | experimentId | experimentName | outcomeStatus | hypothesisMet | recoveryTimeS | faultType | faultSubtype | faultSeverity
  | blastRadius | pluginName | targetSystem | targetTechnology | targetEnvironment | serviceName | serviceVersion
  deriving DecidableEq

/-- The keys that a column is for. -/
def SpanColumn.keys : SpanColumn → List String
  | .experimentId => [keys.EXPERIMENT_ID]
  | .experimentName => [keys.EXPERIMENT_NAME, keys.EXPERIMENT_TITLE]
  | .outcomeStatus => [keys.OUTCOME_STATUS]
  | .hypothesisMet => [keys.OUTCOME_HYPOTHESIS_MET]
  | .recoveryTimeS => [keys.OUTCOME_RECOVERY_TIME_S]
  | .faultType => [keys.FAULT_TYPE]
  | .faultSubtype => [keys.FAULT_SUBTYPE]
  | .faultSeverity => [keys.FAULT_SEVERITY]
  | .blastRadius => [keys.FAULT_BLAST_RADIUS]
  | .pluginName => [keys.FAULT_PLUGIN, keys.PLUGIN_NAME]
  | .targetSystem => [keys.TARGET_SYSTEM]
  | .targetTechnology => [keys.TARGET_TECHNOLOGY]
  | .targetEnvironment => [keys.TARGET_ENVIRONMENT]
  | .serviceName => [keys.SERVICE_NAME]
  | .serviceVersion => [keys.SERVICE_VERSION]

def SpanRow.column (row : SpanRow) : SpanColumn → Option Cell
  | .experimentId => row.experimentId.map .text
  | .experimentName => row.experimentName.map .text
  | .outcomeStatus => row.outcomeStatus.map .text
  | .hypothesisMet => row.hypothesisMet.map .bool
  | .recoveryTimeS => row.recoveryTimeS.map .number
  | .faultType => row.faultType.map .text
  | .faultSubtype => row.faultSubtype.map .text
  | .faultSeverity => row.faultSeverity.map .text
  | .blastRadius => row.blastRadius.map .text
  | .pluginName => row.pluginName.map .text
  | .targetSystem => row.targetSystem.map .text
  | .targetTechnology => row.targetTechnology.map .text
  | .targetEnvironment => row.targetEnvironment.map .text
  | .serviceName => some (.text row.serviceName)
  | .serviceVersion => row.serviceVersion.map .text

/-- The row of a span keeps its attributes and those of its resource. -/
structure SpanKept (Γ : OtlpCtx) (resource : Option (List KeyValue)) (span : Span) (row : SpanRow) : Prop where
  identity : row.traceId = hexEncode span.traceId ∧ row.spanId = hexEncode span.spanId ∧ row.spanName = span.name
  own : Kept Γ SpanColumn.keys row.column row.spanAttrs span.attributes
  resource : Kept Γ SpanColumn.keys row.column row.resourceAttrs (resource.getD [])

/-- The columns of a metric row that attributes are promoted to. -/
inductive MetricColumn where
  | experimentName | outcomeStatus | pluginName
  deriving DecidableEq

def MetricColumn.keys : MetricColumn → List String
  | .experimentName => [keys.EXPERIMENT_NAME]
  | .outcomeStatus => [keys.OUTCOME_STATUS]
  | .pluginName => [keys.FAULT_PLUGIN, keys.PLUGIN_NAME]

def MetricRow.column (row : MetricRow) : MetricColumn → Option Cell
  | .experimentName => row.dims.experimentName.map .text
  | .outcomeStatus => row.dims.outcomeStatus.map .text
  | .pluginName => row.dims.pluginName.map .text

/-- The row of a data point keeps its attributes and those of its resource. -/
structure PointKept (Γ : OtlpCtx) (resource : Option (List KeyValue)) (metric : Metric) (timeUnixNano : Nat) (attrs : List KeyValue)
    (row : MetricRow) : Prop where
  identity : row.metricName = metric.name ∧ row.tsNs = clampI64 timeUnixNano
  own : Kept Γ MetricColumn.keys row.column row.dims.attrs attrs
  resource : Kept Γ MetricColumn.keys row.column row.resourceAttrs (resource.getD [])

/-! ## What fits -/

/-- Of the attributes that share a column, in the order in which they take it: each that has a value has the text of the first. -/
def Agree (Γ : OtlpCtx) (sources : List (List KeyValue × String)) : Prop :=
  ∀ first, sources.findSome? (fun s => attrStr s.1 s.2) = some first → ∀ s ∈ sources, ∀ v, attrStr s.1 s.2 = some v → v ≠ .absent →
    anyValueToString Γ first = anyValueToString Γ v

/-- The attributes of a span and its resource fit the columns. -/
structure SpanFits (Γ : OtlpCtx) (attrs resource : List KeyValue) : Prop where
  experimentId : Agree Γ [(attrs, keys.EXPERIMENT_ID), (resource, keys.EXPERIMENT_ID)]
  experimentName : Agree Γ [(attrs, keys.EXPERIMENT_NAME), (attrs, keys.EXPERIMENT_TITLE), (resource, keys.EXPERIMENT_NAME),
    (resource, keys.EXPERIMENT_TITLE)]
  pluginName : Agree Γ [(attrs, keys.FAULT_PLUGIN), (attrs, keys.PLUGIN_NAME)]
  hypothesisMet : ∀ v, Valued attrs keys.OUTCOME_HYPOTHESIS_MET v → ∃ b, v = .boolValue b
  /-- A recovery time is a number that `f64` represents. -/
  recoveryTimeS : ∀ v, Valued attrs keys.OUTCOME_RECOVERY_TIME_S v →
    (∃ d, v = .doubleValue d) ∨ ∃ i, v = .intValue i ∧ i64AsF64 i = i

/-- The promoted keys of a resource that no column of a metric row is for. -/
def unstoredKeys : List String := [keys.SERVICE_NAME, keys.SERVICE_VERSION, keys.EXPERIMENT_ID, keys.EXPERIMENT_TITLE]

/-- The attributes of a data point and its resource fit the columns, of which there are none for a resource. -/
structure PointFits (Γ : OtlpCtx) (attrs resource : List KeyValue) : Prop where
  pluginName : Agree Γ [(attrs, keys.FAULT_PLUGIN), (attrs, keys.PLUGIN_NAME)]
  experimentName : ∀ v, Valued resource keys.EXPERIMENT_NAME v →
    attrString Γ attrs keys.EXPERIMENT_NAME = some (anyValueToString Γ v)
  unstored : ∀ key ∈ unstoredKeys, ∀ v, ¬ Valued resource key v

/-! ## Requests -/

/-- The spans of a request in order, with their resources. -/
def spansOf (request : List ResourceSpans) : List (Option (List KeyValue) × Span) :=
  request.flatMap fun rs => rs.scopeSpans.flatten.map fun span => (rs.resource, span)

/-- The metrics of a request in order, with their resources. -/
def metricsOf (request : List ResourceMetrics) : List (Option (List KeyValue) × Metric) :=
  request.flatMap fun rm => rm.scopeMetrics.flatten.map fun metric => (rm.resource, metric)

def Metric.sums (metric : Metric) : List NumberDataPoint :=
  match metric.data with
  | some (.sum points) => points
  | _ => []

def Metric.gauges (metric : Metric) : List NumberDataPoint :=
  match metric.data with
  | some (.gauge points) => points
  | _ => []

def Metric.histograms (metric : Metric) : List HistogramDataPoint :=
  match metric.data with
  | some (.histogram points) => points
  | _ => []

/-- The number of data points of the kinds that are not stored. -/
def Metric.unsupported (metric : Metric) : Nat :=
  match metric.data with
  | some (.exponentialHistogram points) | some (.summary points) => points.val
  | _ => 0

/-- The data points of a kind in order, with their metrics and resources. -/
def pointsOf {P : Type} (points : Metric → List P) (request : List ResourceMetrics) : List (Option (List KeyValue) × Metric × P) :=
  (metricsOf request).flatMap fun m => (points m.2).map fun p => (m.1, m.2, p)

/-- Keys are distinct in each list of attributes. -/
def DistinctKeys (attrs : List KeyValue) : Prop := (attrs.map (·.key)).Nodup

/-- One row for each span in order, and each keeps its attributes. -/
def TraceLossless (Γ : OtlpCtx) (request : List ResourceSpans) : Prop :=
  List.Forall₂ (fun p row => SpanKept Γ p.1 p.2 row) (spansOf request) (traceRequestToSpans Γ request)

/-- One row for each supported data point in order, each keeps its attributes, and the others are counted. -/
structure MetricsLossless (Γ : OtlpCtx) (request : List ResourceMetrics) : Prop where
  sums : List.Forall₂ (fun p row => PointKept Γ p.1 p.2.1 p.2.2.timeUnixNano p.2.2.attributes row.toMetricRow)
    (pointsOf Metric.sums request) (metricsRequestToRows Γ request).sums
  gauges : List.Forall₂ (fun p row => PointKept Γ p.1 p.2.1 p.2.2.timeUnixNano p.2.2.attributes row.toMetricRow)
    (pointsOf Metric.gauges request) (metricsRequestToRows Γ request).gauges
  histograms : List.Forall₂ (fun p row => PointKept Γ p.1 p.2.1 p.2.2.timeUnixNano p.2.2.attributes row.toMetricRow)
    (pointsOf Metric.histograms request) (metricsRequestToRows Γ request).histograms
  rejected : (metricsRequestToRows Γ request).rejectedDataPoints = (((metricsOf request).map fun m => m.2.unsupported).sum : Nat)

/-! ## Single attributes -/

/-- With distinct keys the attribute that is found is the one that is there. -/
theorem attrStr_eq_some (h : DistinctKeys attrs) {key : String} {v : AnyValue} :
    attrStr attrs key = some v ↔ ⟨key, some v⟩ ∈ attrs := by
  unfold attrStr
  induction attrs with
  | nil => simp
  | cons kv attrs ih =>
    have hd := List.nodup_cons.1 h
    by_cases hkey : kv.key = key
    · have hother : ⟨key, some v⟩ ∉ attrs := fun hmem => hd.1 (List.mem_map.2 ⟨_, hmem, hkey.symm⟩)
      rw [List.find?_cons_of_pos (by simpa using hkey), List.mem_cons, or_iff_left hother, Option.bind_some]
      constructor
      · intro hv
        rw [← hkey, ← hv]
      · intro hv
        rw [← hv]
    · rw [List.find?_cons_of_neg (by simpa using hkey), ih hd.2, List.mem_cons, or_iff_right]
      intro hv
      exact hkey (by rw [← hv])

theorem valued_iff (h : DistinctKeys attrs) {key : String} {v : AnyValue} :
    Valued attrs key v ↔ attrStr attrs key = some v ∧ v ≠ .absent := by
  unfold Valued
  rw [attrStr_eq_some h]

theorem mem_unpromotedAttrs {promoted : List String} {key text : String} :
    (key, text) ∈ unpromotedAttrs Γ attrs promoted ↔ key ∉ promoted ∧ ∃ v, ⟨key, some v⟩ ∈ attrs ∧ text = anyValueToString Γ v := by
  unfold unpromotedAttrs
  rw [List.mem_filterMap]
  constructor
  · rintro ⟨⟨key', value⟩, hmem, htext⟩
    obtain ⟨v, rfl, hv⟩ := Option.map_eq_some_iff.1 htext
    cases hv
    obtain ⟨hmem, hkey⟩ := List.mem_filter.1 hmem
    exact ⟨by simpa using hkey, v, hmem, rfl⟩
  · rintro ⟨hkey, v, hmem, rfl⟩
    exact ⟨⟨key, some v⟩, List.mem_filter.2 ⟨hmem, by simpa using hkey⟩, rfl⟩

/-! ## Columns -/

/-- A column carries a value. -/
def Carried (Γ : OtlpCtx) (column : Option Cell) (v : AnyValue) : Prop := ∃ cell, column = some cell ∧ cell.Carries Γ v

/-- The attributes that are not promoted are in the list, so the columns have to carry those that are. -/
theorem kept_iff {C : Type} {columnKeys : C → List String} {column : C → Option Cell} {promoted : List String} :
    Kept Γ columnKeys column (unpromotedAttrs Γ attrs promoted) attrs ↔
      ∀ key v, Valued attrs key v → key ∈ promoted → ∃ c, key ∈ columnKeys c ∧ Carried Γ (column c) v := by
  constructor
  · intro h key v hv hkey
    rcases h key v hv with hc | hlist
    · exact hc
    · exact absurd hkey (mem_unpromotedAttrs.1 hlist).1
  · intro h key v hv
    by_cases hkey : key ∈ promoted
    · exact .inl (h key v hv hkey)
    · exact .inr (mem_unpromotedAttrs.2 ⟨hkey, v, hv.1, rfl⟩)

/-- A column of text that is taken by the first attribute that is there. -/
theorem carried_text {first : Option AnyValue} {v : AnyValue} :
    Carried Γ ((first.map (anyValueToString Γ)).map .text) v ↔
      ∃ w, first = some w ∧ anyValueToString Γ w = anyValueToString Γ v := by
  cases first with
  | none => simp [Carried]
  | some w => simp [Carried, Cell.Carries]

/-- The text of a column that several attributes share. -/
def firstText (Γ : OtlpCtx) (sources : List (List KeyValue × String)) : Option String :=
  (sources.findSome? fun s => attrStr s.1 s.2).map (anyValueToString Γ)

theorem firstText_nil : firstText Γ [] = none := rfl

theorem firstText_cons {s : List KeyValue × String} {sources : List (List KeyValue × String)} :
    firstText Γ (s :: sources) = (attrString Γ s.1 s.2).or (firstText Γ sources) := by
  unfold firstText attrString
  rw [List.findSome?_cons]
  cases attrStr s.1 s.2 <;> rfl

/-- The attributes that share a column agree when the column carries each. -/
theorem agree_iff {sources : List (List KeyValue × String)} (h : ∀ s ∈ sources, DistinctKeys s.1) :
    Agree Γ sources ↔ ∀ s ∈ sources, ∀ v, Valued s.1 s.2 v →
      Carried Γ ((firstText Γ sources).map .text) v := by
  unfold firstText
  constructor
  · intro hagree s hs v hv
    obtain ⟨hv, hne⟩ := (valued_iff (h s hs)).1 hv
    have hsome : (sources.findSome? fun s => attrStr s.1 s.2).isSome := List.findSome?_isSome_iff.2 ⟨s, hs, by rw [hv]; rfl⟩
    obtain ⟨first, hfirst⟩ := Option.isSome_iff_exists.1 hsome
    exact carried_text.2 ⟨first, hfirst, hagree first hfirst s hs v hv hne⟩
  · intro hall first hfirst s hs v hv hne
    obtain ⟨w, hw, htext⟩ := carried_text.1 (hall s hs v ((valued_iff (h s hs)).2 ⟨hv, hne⟩))
    cases hfirst.symm.trans hw
    exact htext

/-- An attribute that has a column of text of its own is carried. -/
theorem carried_alone (h : DistinctKeys attrs) {key : String} {v : AnyValue} (hv : Valued attrs key v) :
    Carried Γ ((attrString Γ attrs key).map .text) v :=
  carried_text.2 ⟨v, ((valued_iff h).1 hv).1, rfl⟩

/-- A column of booleans carries booleans. -/
theorem carried_bool (h : DistinctKeys attrs) {key : String} {v : AnyValue} (hv : Valued attrs key v) :
    Carried Γ ((attrBool attrs key).map .bool) v ↔ ∃ b, v = .boolValue b := by
  unfold attrBool
  rw [((valued_iff h).1 hv).1]
  cases v <;> simp [Carried, Cell.Carries]

/-- A column of numbers carries doubles, and the integers that are doubles. -/
theorem carried_number (h : DistinctKeys attrs) {key : String} {v : AnyValue} (hv : Valued attrs key v) :
    Carried Γ ((attrDouble attrs key).map .number) v ↔ (∃ d, v = .doubleValue d) ∨ ∃ i, v = .intValue i ∧ i64AsF64 i = i := by
  unfold attrDouble
  rw [((valued_iff h).1 hv).1]
  cases v <;> simp [Carried, Cell.Carries]

/-- A key has one column where the columns have distinct keys. -/
theorem column_eq {C : Type} (columns : List C) {columnKeys : C → List String} (hall : ∀ c, c ∈ columns)
    (hdistinct : (columns.flatMap columnKeys).Nodup) {c c' : C} {key : String} (h : key ∈ columnKeys c) (h' : key ∈ columnKeys c') :
    c = c' := by
  by_contra hne
  have hsymm : Std.Symm (Function.onFun List.Disjoint columnKeys) := ⟨fun _ _ hd => List.Disjoint.symm hd⟩
  exact (List.nodup_flatMap.1 hdistinct).2.forall (hall c) (hall c') hne h h'

/-! ## Spans -/

def SpanColumn.all : List SpanColumn :=
  [.experimentId, .experimentName, .outcomeStatus, .hypothesisMet, .recoveryTimeS, .faultType, .faultSubtype, .faultSeverity,
    .blastRadius, .pluginName, .targetSystem, .targetTechnology, .targetEnvironment, .serviceName, .serviceVersion]

theorem SpanColumn.carried_iff {row : SpanRow} {c : SpanColumn} {key : String} (h : key ∈ c.keys) {v : AnyValue} :
    (∃ c : SpanColumn, key ∈ c.keys ∧ Carried Γ (row.column c) v) ↔ Carried Γ (row.column c) v := by
  constructor
  · rintro ⟨c', hkey, hc⟩
    rw [column_eq SpanColumn.all (by intro c; cases c <;> decide) (by decide) h hkey]
    exact hc
  · intro hc
    exact ⟨c, h, hc⟩

section

variable {span : Span} {resource : Option (List KeyValue)}

theorem column_experimentId : (spanToRow Γ span (ResourceCtx.fromResource Γ resource)).column .experimentId =
    (firstText Γ [(span.attributes, keys.EXPERIMENT_ID), (resource.getD [], keys.EXPERIMENT_ID)]).map .text := by
  simp only [firstText_cons, firstText_nil, Option.or_none]
  rfl

theorem column_experimentName : (spanToRow Γ span (ResourceCtx.fromResource Γ resource)).column .experimentName =
    (firstText Γ [(span.attributes, keys.EXPERIMENT_NAME), (span.attributes, keys.EXPERIMENT_TITLE),
      (resource.getD [], keys.EXPERIMENT_NAME), (resource.getD [], keys.EXPERIMENT_TITLE)]).map .text := by
  simp only [firstText_cons, firstText_nil, Option.or_none, ← Option.or_assoc]
  simp only [SpanRow.column, spanToRow, ResourceCtx.fromResource, ← Option.or_assoc]

theorem column_pluginName (resource : Option (List KeyValue)) :
    (spanToRow Γ span (ResourceCtx.fromResource Γ resource)).column .pluginName =
    (firstText Γ [(span.attributes, keys.FAULT_PLUGIN), (span.attributes, keys.PLUGIN_NAME)]).map .text := by
  simp only [firstText_cons, firstText_nil, Option.or_none]
  rfl

/-- The service name is empty when the resource has none. -/
theorem carried_serviceName (h : DistinctKeys (resource.getD [])) {v : AnyValue}
    (hv : Valued (resource.getD []) keys.SERVICE_NAME v) :
    Carried Γ ((spanToRow Γ span (ResourceCtx.fromResource Γ resource)).column .serviceName) v := by
  refine ⟨_, rfl, ?_⟩
  show (attrString Γ (resource.getD []) keys.SERVICE_NAME).getD "" = _
  rw [attrString, ((valued_iff h).1 hv).1]
  rfl

/-- The experiment id is carried exactly when the sources agree. -/
theorem agree_experimentId (hspan : DistinctKeys span.attributes) (hresource : DistinctKeys (resource.getD [])) :
    Agree Γ [(span.attributes, keys.EXPERIMENT_ID), (resource.getD [], keys.EXPERIMENT_ID)] ↔
      (∀ v, Valued span.attributes keys.EXPERIMENT_ID v →
        Carried Γ ((spanToRow Γ span (ResourceCtx.fromResource Γ resource)).column .experimentId) v) ∧
      ∀ v, Valued (resource.getD []) keys.EXPERIMENT_ID v →
        Carried Γ ((spanToRow Γ span (ResourceCtx.fromResource Γ resource)).column .experimentId) v := by
  rw [agree_iff (by simp [hspan, hresource]), ← column_experimentId]
  simp only [List.forall_mem_cons, List.not_mem_nil, false_imp_iff, implies_true, and_true]

theorem agree_experimentName (hspan : DistinctKeys span.attributes) (hresource : DistinctKeys (resource.getD [])) :
    Agree Γ [(span.attributes, keys.EXPERIMENT_NAME), (span.attributes, keys.EXPERIMENT_TITLE),
        (resource.getD [], keys.EXPERIMENT_NAME), (resource.getD [], keys.EXPERIMENT_TITLE)] ↔
      (∀ key ∈ [keys.EXPERIMENT_NAME, keys.EXPERIMENT_TITLE], ∀ v, Valued span.attributes key v →
        Carried Γ ((spanToRow Γ span (ResourceCtx.fromResource Γ resource)).column .experimentName) v) ∧
      ∀ key ∈ [keys.EXPERIMENT_NAME, keys.EXPERIMENT_TITLE], ∀ v, Valued (resource.getD []) key v →
        Carried Γ ((spanToRow Γ span (ResourceCtx.fromResource Γ resource)).column .experimentName) v := by
  rw [agree_iff (by simp [hspan, hresource]), ← column_experimentName]
  simp only [List.forall_mem_cons, List.not_mem_nil, false_imp_iff, implies_true, and_true, and_assoc]

theorem agree_pluginName (resource : Option (List KeyValue)) (hspan : DistinctKeys span.attributes) :
    Agree Γ [(span.attributes, keys.FAULT_PLUGIN), (span.attributes, keys.PLUGIN_NAME)] ↔
      ∀ key ∈ [keys.FAULT_PLUGIN, keys.PLUGIN_NAME], ∀ v, Valued span.attributes key v →
        Carried Γ ((spanToRow Γ span (ResourceCtx.fromResource Γ resource)).column .pluginName) v := by
  rw [agree_iff (by simp [hspan]), ← column_pluginName resource]
  simp only [List.forall_mem_cons, List.not_mem_nil, false_imp_iff, implies_true, and_true]

/-- What the columns of a span carry of an attribute list of promoted keys. -/
theorem SpanColumn.carried_of_kept {row : SpanRow} {promoted : List String}
    (h : Kept Γ SpanColumn.keys row.column (unpromotedAttrs Γ attrs promoted) attrs) (c : SpanColumn) {key : String}
    (hc : key ∈ c.keys) (hkey : key ∈ promoted) {v : AnyValue} (hv : Valued attrs key v) : Carried Γ (row.column c) v :=
  (SpanColumn.carried_iff hc).1 (kept_iff.1 h key v hv hkey)

theorem spanFits_of_kept (hspan : DistinctKeys span.attributes) (hresource : DistinctKeys (resource.getD []))
    (h : SpanKept Γ resource span (spanToRow Γ span (ResourceCtx.fromResource Γ resource))) :
    SpanFits Γ span.attributes (resource.getD []) where
  experimentId := (agree_experimentId hspan hresource).2
    ⟨fun _ hv => SpanColumn.carried_of_kept h.own .experimentId (by decide) (by decide) hv,
      fun _ hv => SpanColumn.carried_of_kept h.resource .experimentId (by decide) (by decide) hv⟩
  experimentName := by
    refine (agree_experimentName hspan hresource).2 ⟨fun key hkey v hv => ?_, fun key hkey v hv => ?_⟩
    · have hpromoted : [keys.EXPERIMENT_NAME, keys.EXPERIMENT_TITLE] ⊆ PROMOTED_SPAN_KEYS := by decide
      exact SpanColumn.carried_of_kept h.own .experimentName hkey (hpromoted hkey) hv
    · have hpromoted : [keys.EXPERIMENT_NAME, keys.EXPERIMENT_TITLE] ⊆ PROMOTED_RESOURCE_KEYS := by decide
      exact SpanColumn.carried_of_kept h.resource .experimentName hkey (hpromoted hkey) hv
  pluginName := by
    refine (agree_pluginName resource hspan).2 fun key hkey v hv => ?_
    have hpromoted : [keys.FAULT_PLUGIN, keys.PLUGIN_NAME] ⊆ PROMOTED_SPAN_KEYS := by decide
    exact SpanColumn.carried_of_kept h.own .pluginName hkey (hpromoted hkey) hv
  hypothesisMet _ hv := (carried_bool hspan hv).1 (SpanColumn.carried_of_kept h.own .hypothesisMet (by decide) (by decide) hv)
  recoveryTimeS _ hv := (carried_number hspan hv).1 (SpanColumn.carried_of_kept h.own .recoveryTimeS (by decide) (by decide) hv)

theorem spanKept_of_fits (hspan : DistinctKeys span.attributes) (hresource : DistinctKeys (resource.getD []))
    (h : SpanFits Γ span.attributes (resource.getD [])) :
    SpanKept Γ resource span (spanToRow Γ span (ResourceCtx.fromResource Γ resource)) where
  identity := ⟨rfl, rfl, rfl⟩
  own := by
    have id := (agree_experimentId hspan hresource).1 h.experimentId
    have name := (agree_experimentName hspan hresource).1 h.experimentName
    have plugin := (agree_pluginName resource hspan).1 h.pluginName
    refine kept_iff.2 fun key v hv hkey => ?_
    simp only [PROMOTED_SPAN_KEYS, List.mem_cons, List.not_mem_nil, or_false] at hkey
    rcases hkey with rfl | rfl | rfl | rfl | rfl | rfl | rfl | rfl | rfl | rfl | rfl | rfl | rfl | rfl | rfl
    · exact ⟨.experimentId, by decide, id.1 v hv⟩
    · exact ⟨.experimentName, by decide, name.1 _ (by decide) v hv⟩
    · exact ⟨.experimentName, by decide, name.1 _ (by decide) v hv⟩
    · exact ⟨.outcomeStatus, by decide, carried_alone hspan hv⟩
    · exact ⟨.hypothesisMet, by decide, (carried_bool hspan hv).2 (h.hypothesisMet v hv)⟩
    · exact ⟨.recoveryTimeS, by decide, (carried_number hspan hv).2 (h.recoveryTimeS v hv)⟩
    · exact ⟨.faultType, by decide, carried_alone hspan hv⟩
    · exact ⟨.faultSubtype, by decide, carried_alone hspan hv⟩
    · exact ⟨.faultSeverity, by decide, carried_alone hspan hv⟩
    · exact ⟨.blastRadius, by decide, carried_alone hspan hv⟩
    · exact ⟨.pluginName, by decide, plugin _ (by decide) v hv⟩
    · exact ⟨.pluginName, by decide, plugin _ (by decide) v hv⟩
    · exact ⟨.targetSystem, by decide, carried_alone hspan hv⟩
    · exact ⟨.targetTechnology, by decide, carried_alone hspan hv⟩
    · exact ⟨.targetEnvironment, by decide, carried_alone hspan hv⟩
  resource := by
    have id := (agree_experimentId hspan hresource).1 h.experimentId
    have name := (agree_experimentName hspan hresource).1 h.experimentName
    refine kept_iff.2 fun key v hv hkey => ?_
    simp only [PROMOTED_RESOURCE_KEYS, List.mem_cons, List.not_mem_nil, or_false] at hkey
    rcases hkey with rfl | rfl | rfl | rfl | rfl
    · exact ⟨.serviceName, by decide, carried_serviceName hresource hv⟩
    · exact ⟨.serviceVersion, by decide, carried_alone hresource hv⟩
    · exact ⟨.experimentId, by decide, id.2 v hv⟩
    · exact ⟨.experimentName, by decide, name.2 _ (by decide) v hv⟩
    · exact ⟨.experimentName, by decide, name.2 _ (by decide) v hv⟩

end

/-- The row of a span keeps everything exactly when the attributes fit the columns. -/
theorem spanKept_iff {span : Span} {resource : Option (List KeyValue)} (hspan : DistinctKeys span.attributes)
    (hresource : DistinctKeys (resource.getD [])) :
    SpanKept Γ resource span (spanToRow Γ span (ResourceCtx.fromResource Γ resource)) ↔
      SpanFits Γ span.attributes (resource.getD []) :=
  ⟨spanFits_of_kept hspan hresource, spanKept_of_fits hspan hresource⟩

/-! ## Data points -/

theorem MetricColumn.not_mem_unstored (c : MetricColumn) {key : String} (h : key ∈ c.keys) : key ∉ unstoredKeys := by
  have hdisjoint : ∀ k ∈ c.keys, k ∉ unstoredKeys := by cases c <;> decide
  exact hdisjoint key h

theorem MetricColumn.carried_of_kept {row : MetricRow} {promoted : List String}
    (h : Kept Γ MetricColumn.keys row.column (unpromotedAttrs Γ attrs promoted) attrs) (c : MetricColumn) {key : String}
    (hc : key ∈ c.keys) (hkey : key ∈ promoted) {v : AnyValue} (hv : Valued attrs key v) : Carried Γ (row.column c) v := by
  obtain ⟨c', hc', hcarried⟩ := kept_iff.1 h key v hv hkey
  rw [column_eq [.experimentName, .outcomeStatus, .pluginName] (by intro c; cases c <;> decide) (by decide) hc hc']
  exact hcarried

section

variable {resource : Option (List KeyValue)} {metric : Metric} {timeUnixNano : Nat} {row : MetricRow}

/-- A row that has the dimensions of the point and the list of the resource keeps everything exactly when the attributes fit. -/
theorem pointKept_iff (hattrs : DistinctKeys attrs) (hname : row.metricName = metric.name)
    (hts : row.tsNs = clampI64 timeUnixNano) (hdims : row.dims = promotedDims Γ attrs)
    (hlist : row.resourceAttrs = unpromotedAttrs Γ (resource.getD []) PROMOTED_RESOURCE_KEYS) :
    PointKept Γ resource metric timeUnixNano attrs row ↔ PointFits Γ attrs (resource.getD []) := by
  have hplugin : row.column .pluginName = (firstText Γ [(attrs, keys.FAULT_PLUGIN), (attrs, keys.PLUGIN_NAME)]).map .text := by
    simp only [firstText_cons, firstText_nil, Option.or_none, MetricRow.column, hdims]
    rfl
  have hcolumn : row.column .experimentName = (attrString Γ attrs keys.EXPERIMENT_NAME).map .text := by
    simp only [MetricRow.column, hdims]
    rfl
  have hstatus : row.column .outcomeStatus = (attrString Γ attrs keys.OUTCOME_STATUS).map .text := by
    simp only [MetricRow.column, hdims]
    rfl
  have hdimsAttrs : row.dims.attrs = unpromotedAttrs Γ attrs PROMOTED_METRIC_KEYS := by rw [hdims]; rfl
  have hagree : Agree Γ [(attrs, keys.FAULT_PLUGIN), (attrs, keys.PLUGIN_NAME)] ↔
      ∀ key ∈ [keys.FAULT_PLUGIN, keys.PLUGIN_NAME], ∀ v, Valued attrs key v → Carried Γ (row.column .pluginName) v := by
    rw [agree_iff (by simp [hattrs]), hplugin]
    simp only [List.forall_mem_cons, List.not_mem_nil, false_imp_iff, implies_true, and_true]
  constructor
  · rintro ⟨-, hown, hres⟩
    rw [hdimsAttrs] at hown
    rw [hlist] at hres
    refine ⟨hagree.2 fun key hkey v hv => ?_, fun v hv => ?_, fun key hkey v hv => ?_⟩
    · have hpromoted : [keys.FAULT_PLUGIN, keys.PLUGIN_NAME] ⊆ PROMOTED_METRIC_KEYS := by decide
      exact MetricColumn.carried_of_kept hown .pluginName hkey (hpromoted hkey) hv
    · obtain ⟨cell, hcell, htext⟩ := MetricColumn.carried_of_kept hres .experimentName (by decide) (by decide) hv
      rw [hcolumn] at hcell
      obtain ⟨text, htext', rfl⟩ := Option.map_eq_some_iff.1 hcell
      rw [htext', show text = _ from htext]
    · have hpromoted : unstoredKeys ⊆ PROMOTED_RESOURCE_KEYS := by decide
      obtain ⟨c, hc, -⟩ := kept_iff.1 hres key v hv (hpromoted hkey)
      exact c.not_mem_unstored hc hkey
  · intro h
    refine ⟨⟨hname, hts⟩, ?_, ?_⟩
    · rw [hdimsAttrs]
      refine kept_iff.2 fun key v hv hkey => ?_
      have plugin := hagree.1 h.pluginName
      simp only [PROMOTED_METRIC_KEYS, List.mem_cons, List.not_mem_nil, or_false] at hkey
      rcases hkey with rfl | rfl | rfl | rfl
      · exact ⟨.experimentName, by decide, by rw [hcolumn]; exact carried_alone hattrs hv⟩
      · exact ⟨.outcomeStatus, by decide, by rw [hstatus]; exact carried_alone hattrs hv⟩
      · exact ⟨.pluginName, by decide, plugin _ (by decide) v hv⟩
      · exact ⟨.pluginName, by decide, plugin _ (by decide) v hv⟩
    · rw [hlist]
      refine kept_iff.2 fun key v hv hkey => ?_
      by_cases hstored : key = keys.EXPERIMENT_NAME
      · subst hstored
        refine ⟨.experimentName, by decide, ?_⟩
        rw [hcolumn, h.experimentName v hv]
        exact ⟨_, rfl, rfl⟩
      · have hunstored : key ∈ unstoredKeys := by
          simp only [PROMOTED_RESOURCE_KEYS, unstoredKeys, List.mem_cons, List.not_mem_nil, or_false] at hkey ⊢
          tauto
        exact absurd hv (h.unstored key hunstored v)

end

/-! ## Rows of a request -/

theorem traceRequestToSpans_eq (request : List ResourceSpans) :
    traceRequestToSpans Γ request = (spansOf request).map fun p => spanToRow Γ p.2 (ResourceCtx.fromResource Γ p.1) := by
  have hspans : ∀ (out : List SpanRow) (rs : ResourceSpans) (spans : List Span),
      spans.foldl (fun out span => out ++ [spanToRow Γ span (ResourceCtx.fromResource Γ rs.resource)]) out =
        out ++ spans.map fun span => spanToRow Γ span (ResourceCtx.fromResource Γ rs.resource) := by
    intro out rs spans
    rw [List.foldl_append_eq_append, ← List.flatMap_def, ← List.map_eq_flatMap]
  have hscopes : ∀ (out : List SpanRow) (rs : ResourceSpans), rs.scopeSpans.foldl (fun out spans =>
      spans.foldl (fun out span => out ++ [spanToRow Γ span (ResourceCtx.fromResource Γ rs.resource)]) out) out =
        out ++ rs.scopeSpans.flatten.map fun span => spanToRow Γ span (ResourceCtx.fromResource Γ rs.resource) := by
    intro out rs
    simp only [hspans]
    rw [List.foldl_append_eq_append, List.map_flatten]
  unfold traceRequestToSpans spansOf
  simp only [hscopes]
  rw [List.foldl_append_eq_append, List.nil_append, ← List.flatMap_def, List.map_flatMap]
  simp only [List.map_map, Function.comp_def]

/-- The metrics of a request are added one after another. -/
theorem metricsRequestToRows_eq (request : List ResourceMetrics) :
    metricsRequestToRows Γ request =
      (metricsOf request).foldl (fun out p => addMetric Γ (ResourceCtx.fromResource Γ p.1) out p.2) {} := by
  unfold metricsRequestToRows metricsOf
  rw [List.foldl_flatMap]
  congr 1
  funext out rm
  rw [List.foldl_map, List.foldl_flatten]

/-- What each metric appends to a list of rows makes the list of the request. -/
theorem rows_eq_flatMap {R : Type} {rows : MetricRows → List R} {new : ResourceCtx → Metric → List R}
    (hstep : ∀ r out m, rows (addMetric Γ r out m) = rows out ++ new r m) (hnil : rows {} = []) (request : List ResourceMetrics) :
    rows (metricsRequestToRows Γ request) = (metricsOf request).flatMap fun p => new (ResourceCtx.fromResource Γ p.1) p.2 := by
  rw [metricsRequestToRows_eq]
  have hhom : (metricsOf request).foldl (fun out p => out ++ new (ResourceCtx.fromResource Γ p.1) p.2) (rows {}) =
      rows ((metricsOf request).foldl (fun out p => addMetric Γ (ResourceCtx.fromResource Γ p.1) out p.2) {}) :=
    List.foldl_hom rows fun out p => (hstep _ out p.2).symm
  rw [← hhom, hnil, List.foldl_append_eq_append, List.nil_append, List.flatMap_def]

theorem addMetric_sums (r : ResourceCtx) (out : MetricRows) (m : Metric) :
    (addMetric Γ r out m).sums = out.sums ++ m.sums.map (numberRow Γ r m) := by
  unfold addMetric Metric.sums
  split <;> simp_all

theorem addMetric_gauges (r : ResourceCtx) (out : MetricRows) (m : Metric) :
    (addMetric Γ r out m).gauges = out.gauges ++ m.gauges.map (numberRow Γ r m) := by
  unfold addMetric Metric.gauges
  split <;> simp_all

theorem addMetric_histograms (r : ResourceCtx) (out : MetricRows) (m : Metric) :
    (addMetric Γ r out m).histograms = out.histograms ++ m.histograms.map (histogramRow Γ r m) := by
  unfold addMetric Metric.histograms
  split <;> simp_all

theorem addMetric_rejected (r : ResourceCtx) (out : MetricRows) (m : Metric) :
    (addMetric Γ r out m).rejectedDataPoints = out.rejectedDataPoints + m.unsupported := by
  have hlen : ∀ n : VecLen, clampI64 n.val = n.val := fun n => if_pos n.property
  unfold addMetric Metric.unsupported
  split
  case h_4 | h_5 => rename_i hdata; simp only [hdata, hlen]
  all_goals rename_i hdata; simp only [hdata, Nat.cast_zero, Int.add_zero]

theorem sums_eq (request : List ResourceMetrics) : (metricsRequestToRows Γ request).sums =
    (pointsOf Metric.sums request).map fun p => numberRow Γ (ResourceCtx.fromResource Γ p.1) p.2.1 p.2.2 := by
  rw [rows_eq_flatMap addMetric_sums rfl, pointsOf, List.map_flatMap]
  simp only [List.map_map, Function.comp_def]

theorem gauges_eq (request : List ResourceMetrics) : (metricsRequestToRows Γ request).gauges =
    (pointsOf Metric.gauges request).map fun p => numberRow Γ (ResourceCtx.fromResource Γ p.1) p.2.1 p.2.2 := by
  rw [rows_eq_flatMap addMetric_gauges rfl, pointsOf, List.map_flatMap]
  simp only [List.map_map, Function.comp_def]

theorem histograms_eq (request : List ResourceMetrics) : (metricsRequestToRows Γ request).histograms =
    (pointsOf Metric.histograms request).map fun p => histogramRow Γ (ResourceCtx.fromResource Γ p.1) p.2.1 p.2.2 := by
  rw [rows_eq_flatMap addMetric_histograms rfl, pointsOf, List.map_flatMap]
  simp only [List.map_map, Function.comp_def]

/-- The points of the other kinds are counted. -/
theorem rejected_eq (request : List ResourceMetrics) :
    (metricsRequestToRows Γ request).rejectedDataPoints = (((metricsOf request).map fun m => m.2.unsupported).sum : Nat) := by
  rw [metricsRequestToRows_eq]
  have hrun : ∀ (ms : List (Option (List KeyValue) × Metric)) (out : MetricRows),
      (ms.foldl (fun out p => addMetric Γ (ResourceCtx.fromResource Γ p.1) out p.2) out).rejectedDataPoints =
        out.rejectedDataPoints + ((ms.map fun m => m.2.unsupported).sum : Nat) := by
    intro ms
    induction ms with
    | nil => intro out; simp
    | cons m ms ih =>
      intro out
      rw [List.foldl_cons, ih, addMetric_rejected, List.map_cons, List.sum_cons, Nat.cast_add, Int.add_assoc]
  rw [hrun, Int.zero_add]

/-! ## Requests that lose nothing -/

/-- The attribute lists of a trace request have distinct keys. -/
def TraceDistinct (request : List ResourceSpans) : Prop :=
  ∀ p ∈ spansOf request, DistinctKeys p.2.attributes ∧ DistinctKeys (p.1.getD [])

/-- The attribute lists of a metrics request have distinct keys. -/
structure MetricsDistinct (request : List ResourceMetrics) : Prop where
  sums : ∀ p ∈ pointsOf Metric.sums request, DistinctKeys p.2.2.attributes
  gauges : ∀ p ∈ pointsOf Metric.gauges request, DistinctKeys p.2.2.attributes
  histograms : ∀ p ∈ pointsOf Metric.histograms request, DistinctKeys p.2.2.attributes

/-- The attributes of every stored point and its resource fit the columns. -/
structure MetricsFit (Γ : OtlpCtx) (request : List ResourceMetrics) : Prop where
  sums : ∀ p ∈ pointsOf Metric.sums request, PointFits Γ p.2.2.attributes (p.1.getD [])
  gauges : ∀ p ∈ pointsOf Metric.gauges request, PointFits Γ p.2.2.attributes (p.1.getD [])
  histograms : ∀ p ∈ pointsOf Metric.histograms request, PointFits Γ p.2.2.attributes (p.1.getD [])

theorem traceLossless_iff {request : List ResourceSpans} (h : TraceDistinct request) :
    TraceLossless Γ request ↔ ∀ p ∈ spansOf request, SpanFits Γ p.2.attributes (p.1.getD []) := by
  unfold TraceLossless
  rw [traceRequestToSpans_eq, List.forall₂_map_right_iff, List.forall₂_same]
  exact forall₂_congr fun p hp => spanKept_iff (h p hp).1 (h p hp).2

theorem metricsLossless_iff {request : List ResourceMetrics} (h : MetricsDistinct request) :
    MetricsLossless Γ request ↔ MetricsFit Γ request := by
  have hsums : List.Forall₂ (fun p row => PointKept Γ p.1 p.2.1 p.2.2.timeUnixNano p.2.2.attributes row.toMetricRow)
      (pointsOf Metric.sums request) (metricsRequestToRows Γ request).sums ↔
        ∀ p ∈ pointsOf Metric.sums request, PointFits Γ p.2.2.attributes (p.1.getD []) := by
    rw [sums_eq, List.forall₂_map_right_iff, List.forall₂_same]
    exact forall₂_congr fun p hp => pointKept_iff (h.sums p hp) rfl rfl rfl rfl
  have hgauges : List.Forall₂ (fun p row => PointKept Γ p.1 p.2.1 p.2.2.timeUnixNano p.2.2.attributes row.toMetricRow)
      (pointsOf Metric.gauges request) (metricsRequestToRows Γ request).gauges ↔
        ∀ p ∈ pointsOf Metric.gauges request, PointFits Γ p.2.2.attributes (p.1.getD []) := by
    rw [gauges_eq, List.forall₂_map_right_iff, List.forall₂_same]
    exact forall₂_congr fun p hp => pointKept_iff (h.gauges p hp) rfl rfl rfl rfl
  have hhistograms : List.Forall₂ (fun p row => PointKept Γ p.1 p.2.1 p.2.2.timeUnixNano p.2.2.attributes row.toMetricRow)
      (pointsOf Metric.histograms request) (metricsRequestToRows Γ request).histograms ↔
        ∀ p ∈ pointsOf Metric.histograms request, PointFits Γ p.2.2.attributes (p.1.getD []) := by
    rw [histograms_eq, List.forall₂_map_right_iff, List.forall₂_same]
    exact forall₂_congr fun p hp => pointKept_iff (h.histograms p hp) rfl rfl rfl rfl
  constructor
  · intro hall
    exact ⟨hsums.1 hall.sums, hgauges.1 hall.gauges, hhistograms.1 hall.histograms⟩
  · intro hfit
    exact ⟨hsums.2 hfit.sums, hgauges.2 hfit.gauges, hhistograms.2 hfit.histograms, rejected_eq request⟩

/-- The conversion loses nothing of a trace request and of a metrics request exactly when every attribute fits the columns. -/
theorem conversion_lossless_iff (Γ : OtlpCtx) (traces : List ResourceSpans) (metrics : List ResourceMetrics)
    (htraces : TraceDistinct traces) (hmetrics : MetricsDistinct metrics) :
    (TraceLossless Γ traces ↔ ∀ p ∈ spansOf traces, SpanFits Γ p.2.attributes (p.1.getD [])) ∧
      (MetricsLossless Γ metrics ↔ MetricsFit Γ metrics) :=
  ⟨traceLossless_iff htraces, metricsLossless_iff hmetrics⟩

/-- A span with some attributes. -/
def spanWith (attributes : List KeyValue) : Span where
  traceId := []
  spanId := []
  parentSpanId := []
  name := "resilience.experiment"
  kind := 1
  startTimeUnixNano := 0
  endTimeUnixNano := 0
  attributes := attributes
  events := []
  status := none

/-- The conversion where no value is a double or an object. -/
def plainCtx : OtlpCtx where
  showF64 _ := ""
  mapEntries := id

def namedAttrs : List KeyValue := [⟨keys.EXPERIMENT_NAME, some (.stringValue "latency")⟩, ⟨"host", some (.stringValue "a")⟩]

def namedMetrics : List ResourceMetrics := [⟨none, [[⟨"runs", some (.gauge [⟨namedAttrs, 0, none⟩])⟩]]⟩]

/-- A span and a data point that lose nothing. -/
theorem conversion_lossless_named :
    TraceLossless plainCtx [⟨none, [[spanWith namedAttrs]]⟩] ∧ MetricsLossless plainCtx namedMetrics := by
  have hdistinct : DistinctKeys namedAttrs := by unfold DistinctKeys; decide
  have h := conversion_lossless_iff plainCtx [⟨none, [[spanWith namedAttrs]]⟩] namedMetrics
    (by simpa [TraceDistinct, spansOf, spanWith, DistinctKeys] using hdistinct)
    ⟨by simp [pointsOf, metricsOf, namedMetrics, Metric.sums],
      by simp [pointsOf, metricsOf, namedMetrics, Metric.gauges, hdistinct],
      by simp [pointsOf, metricsOf, namedMetrics, Metric.histograms]⟩
  refine ⟨h.1.2 ?_, h.2.2 ⟨?_, ?_, ?_⟩⟩
  · intro p hp
    obtain rfl : p = (none, spanWith namedAttrs) := by simpa [spansOf] using hp
    refine ⟨?_, ?_, ?_, ?_, ?_⟩ <;> simp +contextual [Agree, Valued, attrStr, spanWith, namedAttrs, keys.EXPERIMENT_ID,
      keys.EXPERIMENT_NAME, keys.EXPERIMENT_TITLE, keys.FAULT_PLUGIN, keys.PLUGIN_NAME, keys.OUTCOME_HYPOTHESIS_MET,
      keys.OUTCOME_RECOVERY_TIME_S]
  · simp [pointsOf, metricsOf, namedMetrics, Metric.sums]
  · simp [pointsOf, metricsOf, namedMetrics, Metric.gauges]
    refine ⟨?_, ?_, ?_⟩ <;> simp [Agree, Valued, attrStr, namedAttrs, keys.EXPERIMENT_NAME, keys.FAULT_PLUGIN, keys.PLUGIN_NAME]
  · simp [pointsOf, metricsOf, namedMetrics, Metric.histograms]

/-- A span whose experiment has a name and a title. -/
def titledAttrs : List KeyValue :=
  [⟨keys.EXPERIMENT_NAME, some (.stringValue "latency")⟩, ⟨keys.EXPERIMENT_TITLE, some (.stringValue "Checkout latency")⟩]

def titledRequest : List ResourceSpans := [⟨none, [[spanWith titledAttrs]]⟩]

/-- The title is promoted, but its column has the name. -/
theorem title_lost : TraceDistinct titledRequest ∧ ¬ TraceLossless plainCtx titledRequest := by
  have hdistinct : DistinctKeys titledAttrs := by unfold DistinctKeys; decide
  refine ⟨?_, ?_⟩
  · simpa [TraceDistinct, spansOf, titledRequest, spanWith, DistinctKeys] using hdistinct
  · intro h
    obtain ⟨-, hown, -⟩ := (List.forall₂_cons.1 h).1
    have htitle : Valued titledAttrs keys.EXPERIMENT_TITLE (.stringValue "Checkout latency") :=
      ⟨List.mem_cons_of_mem _ List.mem_cons_self, by simp⟩
    obtain ⟨cell, hcell, htext⟩ := SpanColumn.carried_of_kept hown .experimentName (by decide) (by decide) htitle
    cases hcell
    exact absurd htext (by simp [Cell.Carries, anyValueToString])

end Tumult.Otlp
