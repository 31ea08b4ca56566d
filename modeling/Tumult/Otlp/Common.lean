import Tumult.Core.Types
import Tumult.Lib.Json

/-!
# Attributes of OTLP messages

Attributes and their values, their texts, the readers of single attributes, and what is taken from a resource.
-/

namespace Tumult.Otlp

/-- A value of an attribute; `absent` is a message that holds none. -/
inductive AnyValue where
  | absent
  | stringValue (s : String)
  | boolValue (b : Bool)
  | intValue (i : Int)
  | doubleValue (d : F64)
  | bytesValue (bytes : List UInt8)
  | arrayValue (values : List AnyValue)
  | kvlistValue (entries : List (String × Option AnyValue))
  | stringValueStrindex (index : Int)

structure KeyValue where
  key : String
  value : Option AnyValue

/-- What the conversion takes from libraries. -/
structure OtlpCtx where
  /-- `f64::to_string` -/
  showF64 : F64 → String
  /-- The entries of a JSON map into which these are collected, in its order. -/
  mapEntries : List (String × String) → List (String × String)

namespace keys

def EXPERIMENT_ID : String := "resilience.experiment.id"
def EXPERIMENT_NAME : String := "resilience.experiment.name"
def EXPERIMENT_TITLE : String := "resilience.experiment.title"
def OUTCOME_STATUS : String := "resilience.outcome.status"
def OUTCOME_HYPOTHESIS_MET : String := "resilience.outcome.hypothesis_met"
def OUTCOME_RECOVERY_TIME_S : String := "resilience.outcome.recovery_time_s"
def FAULT_TYPE : String := "resilience.fault.type"
def FAULT_SUBTYPE : String := "resilience.fault.subtype"
def FAULT_SEVERITY : String := "resilience.fault.severity"
def FAULT_BLAST_RADIUS : String := "resilience.fault.blast_radius"
def FAULT_PLUGIN : String := "resilience.fault.plugin"
def PLUGIN_NAME : String := "resilience.plugin.name"
def TARGET_SYSTEM : String := "resilience.target.system"
def TARGET_TECHNOLOGY : String := "resilience.target.technology"
def TARGET_ENVIRONMENT : String := "resilience.target.environment"
def SERVICE_NAME : String := "service.name"
def SERVICE_VERSION : String := "service.version"

end keys

/-! ## Texts -/

/-- Lowercase hex. -/
def hexEncode (bytes : List UInt8) : String :=
  String.ofList (bytes.flatMap fun b => [JsonText.hexDigit (b.toNat / 16), JsonText.hexDigit (b.toNat % 16)])

/-- The empty id is absent. -/
def hexId (bytes : List UInt8) : Option String := if bytes = [] then none else some (hexEncode bytes)

/-- The JSON text of an array of strings. -/
def arrayText (values : List String) : String :=
  "[" ++ ",".intercalate (values.map fun s => String.ofList (JsonText.quote s)) ++ "]"

/-- The JSON text of an object whose values are strings. -/
def objectText (Γ : OtlpCtx) (entries : List (String × String)) : String :=
  "\x7b" ++ ",".intercalate ((Γ.mapEntries entries).map fun e =>
    String.ofList (JsonText.quote e.1) ++ ":" ++ String.ofList (JsonText.quote e.2)) ++ "\x7d"

mutual

/-- Render a value as a plain string; complex values become JSON. -/
def anyValueToString (Γ : OtlpCtx) : AnyValue → String
  | .stringValue s => s
  | .boolValue b => if b then "true" else "false"
  | .intValue i => toString i
  | .doubleValue d => Γ.showF64 d
  | .bytesValue bytes => hexEncode bytes
  | .arrayValue values => arrayText (renderAll Γ values)
  | .kvlistValue entries => objectText Γ (renderEntries Γ entries)
  -- an interned string cannot be resolved without the string table of the message
  | .stringValueStrindex _ => ""
  | .absent => ""

def renderAll (Γ : OtlpCtx) : List AnyValue → List String
  | [] => []
  | v :: values => anyValueToString Γ v :: renderAll Γ values

def renderEntries (Γ : OtlpCtx) : List (String × Option AnyValue) → List (String × String)
  | [] => []
  | (_, none) :: entries => renderEntries Γ entries
  | (key, some v) :: entries => (key, anyValueToString Γ v) :: renderEntries Γ entries

end

/-! ## Readers -/

/-- Find an attribute by key. -/
def attrStr (attrs : List KeyValue) (key : String) : Option AnyValue := (attrs.find? fun kv => kv.key = key).bind (·.value)

def attrString (Γ : OtlpCtx) (attrs : List KeyValue) (key : String) : Option String := (attrStr attrs key).map (anyValueToString Γ)

def attrBool (attrs : List KeyValue) (key : String) : Option Bool :=
  match attrStr attrs key with
  | some (.boolValue b) => some b
  | _ => none

/-- `as f64` of an `i64`: the nearest number with 53 significant bits, the even one of two. -/
def i64AsF64 (i : Int) : Int :=
  let n := i.natAbs
  let unit := 2 ^ (Nat.log2 n - 52)
  let up := unit < 2 * (n % unit) || (unit = 2 * (n % unit) && n / unit % 2 = 1)
  Int.sign i * ((if up then n / unit + 1 else n / unit) * unit : Nat)

/-- Ints are widened. -/
def attrDouble (attrs : List KeyValue) (key : String) : Option F64 :=
  match attrStr attrs key with
  | some (.doubleValue d) => some d
  | some (.intValue i) => some (.finite (i64AsF64 i))
  | _ => none

/-- Flatten the attributes that were not promoted. -/
def unpromotedAttrs (Γ : OtlpCtx) (attrs : List KeyValue) (promoted : List String) : List (String × String) :=
  (attrs.filter fun kv => kv.key ∉ promoted).filterMap fun kv => kv.value.map fun v => (kv.key, anyValueToString Γ v)

/-! ## Resources -/

/-- What is needed of a resource. -/
structure ResourceCtx where
  serviceName : String
  serviceVersion : Option String
  experimentId : Option String
  experimentName : Option String
  resourceAttrs : List (String × String)

/-- The keys of a resource that are not left in its list. -/
def PROMOTED_RESOURCE_KEYS : List String :=
  [keys.SERVICE_NAME, keys.SERVICE_VERSION, keys.EXPERIMENT_ID, keys.EXPERIMENT_NAME, keys.EXPERIMENT_TITLE]

/-- The context of a resource, which may be missing. -/
def ResourceCtx.fromResource (Γ : OtlpCtx) (resource : Option (List KeyValue)) : ResourceCtx :=
  let attrs := resource.getD []
  { serviceName := (attrString Γ attrs keys.SERVICE_NAME).getD ""
    serviceVersion := attrString Γ attrs keys.SERVICE_VERSION
    experimentId := attrString Γ attrs keys.EXPERIMENT_ID
    experimentName := (attrString Γ attrs keys.EXPERIMENT_NAME).or (attrString Γ attrs keys.EXPERIMENT_TITLE)
    resourceAttrs := unpromotedAttrs Γ attrs PROMOTED_RESOURCE_KEYS }

example : i64AsF64 9007199254740993 = 9007199254740992 := by decide

end Tumult.Otlp
