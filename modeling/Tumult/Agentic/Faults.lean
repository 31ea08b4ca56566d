import Tumult.Lib.Spans

/-!
# Faults of agentic targets

What a fault does to the response of a model or a tool, and the contracts that the response is held to. A call that unwinds has no
result, one that is refused has an error. The arithmetic of `f64`, the lowercase of a text and the reader of JSON come from outside.
-/

namespace Tumult.Agentic

/-- The arithmetic of `f64`. -/
structure Arithmetic (S : Type) where
  ofRat : ℚ → S
  lt : S → S → Bool
  sum : List S → S
  div : S → S → S
  isZero : S → Bool

/-- What the contracts use of other libraries. -/
structure Texts where
  toLowercase : String → String
  isJson : String → Bool

inductive AgenticError where
  | unsupportedTarget (text : String)
  | unsupportedFault (text : String)
  | targetNotAllowed (text : String)
  | invalidConfig (text : String)
  | adapter (text : String)
  | contract (text : String)
  | incompleteReplay (text : String)
  | journal (text : String)
  deriving DecidableEq, Repr

/-- A call that unwinds gives nothing. -/
abbrev Run := ExceptT AgenticError Option

/-- Out of the call by a panic. -/
def unwind {α : Type} : Run α := ExceptT.mk none

inductive FaultSpec (S : Type) where
  | modelLatency (latencyMs : Nat) (probability : S)
  | modelTimeout (timeoutMs : Nat) (probability : S)
  | providerError (code : Nat) (probability : S)
  | rateLimit (retryAfterMs : Nat) (probability : S)
  | malformedOutput (probability : S)
  | outputTruncation (maxBytes : Nat) (probability : S)
  | hallucinatedToolCall (toolName : String) (probability : S)
  | toolLatency (latencyMs : Nat) (probability : S)
  | toolFailure (errorType : String) (probability : S)
  | retrievalPoisoning (documentCount : Nat) (probability : S)
  | contextTruncation (maxTokens : Nat) (probability : S)
  | tokenBudgetExhaustion (maxTokens : Nat) (probability : S)
  | retryLoopPressure (maxRetries : Nat) (probability : S)
  deriving DecidableEq, Repr

namespace FaultSpec

variable {S : Type}

def faultType : FaultSpec S → String
  | modelLatency .. => "model_latency"
  | modelTimeout .. => "model_timeout"
  | providerError .. => "provider_error"
  | rateLimit .. => "rate_limit"
  | malformedOutput .. => "malformed_output"
  | outputTruncation .. => "output_truncation"
  | hallucinatedToolCall .. => "hallucinated_tool_call"
  | toolLatency .. => "tool_latency"
  | toolFailure .. => "tool_failure"
  | retrievalPoisoning .. => "retrieval_poisoning"
  | contextTruncation .. => "context_truncation"
  | tokenBudgetExhaustion .. => "token_budget_exhaustion"
  | retryLoopPressure .. => "retry_loop_pressure"

def probability : FaultSpec S → S
  | modelLatency _ probability | modelTimeout _ probability | providerError _ probability | rateLimit _ probability
  | malformedOutput probability | outputTruncation _ probability | hallucinatedToolCall _ probability | toolLatency _ probability
  | toolFailure _ probability | retrievalPoisoning _ probability | contextTruncation _ probability
  | tokenBudgetExhaustion _ probability | retryLoopPressure _ probability => probability

end FaultSpec

structure FaultTargetResponse where
  body : String
  latencyMs : Nat
  retryCount : Nat
  toolCalls : Nat
  inputTokens : Nat
  outputTokens : Nat
  fallbackUsed : Bool
  toolName : Option String
  retrievedDocuments : List String
  deriving DecidableEq, Repr

structure FaultOutcome where
  faultType : String
  label : String
  response : FaultTargetResponse
  deriving DecidableEq, Repr

/-! ## The seeded engine -/

/-- The engine of the draws. -/
structure FaultEngine where
  state : UInt64

/-- The next draw, in `[0, 1)`. -/
def FaultEngine.nextUnit {S : Type} (A : Arithmetic S) (engine : FaultEngine) : S × FaultEngine :=
  let state := engine.state * 6364136223846793005 + 1
  (A.ofRat ((state >>> 11).toNat / 2 ^ 53), ⟨state⟩)

def FaultEngine.shouldApply {S : Type} (A : Arithmetic S) (engine : FaultEngine) (fault : FaultSpec S) : Bool × FaultEngine :=
  let (unit, engine) := engine.nextUnit A
  (A.lt unit fault.probability, engine)

/-! ## What a fault does -/

def saturatingAdd (bits a b : Nat) : Nat := min (a + b) (2 ^ bits - 1)

/-- `String::truncate`: nothing to do for a text that is shorter, and a panic within a character. -/
def truncate (text : String) (newLen : Nat) : Run String :=
  if newLen ≤ Spans.bytes text.toList then
    match Spans.takeBytes newLen text.toList with
    | some cut => pure (String.ofList cut)
    | none => unwind
  else pure text

def poisonedDocuments (documentCount : Nat) : List String :=
  (List.range documentCount).map fun idx => "poisoned-document-" ++ toString idx

/-- The token limits leave the rest of the limit for the output. -/
def limitTokens (maxTokens : Nat) (response : FaultTargetResponse) : FaultTargetResponse :=
  if saturatingAdd 32 response.inputTokens response.outputTokens > maxTokens then
    { response with outputTokens := maxTokens - response.inputTokens }
  else response

/-- The response after a fault. -/
def faulted {S : Type} (fault : FaultSpec S) (response : FaultTargetResponse) : Run FaultTargetResponse :=
  match fault with
  | .modelLatency latencyMs _ | .toolLatency latencyMs _ =>
    pure { response with latencyMs := saturatingAdd 64 response.latencyMs latencyMs }
  | .modelTimeout timeoutMs _ =>
    pure { response with
      latencyMs := saturatingAdd 64 response.latencyMs timeoutMs
      body := "\x7b\"error\":\"model_timeout\"\x7d" }
  | .providerError code _ =>
    pure { response with body := "\x7b\"error\":\"provider_error\",\"code\":" ++ toString code ++ "\x7d" }
  | .rateLimit retryAfterMs _ =>
    pure { response with
      retryCount := saturatingAdd 32 response.retryCount 1
      latencyMs := saturatingAdd 64 response.latencyMs retryAfterMs }
  | .malformedOutput _ => pure { response with body := "\x7bmalformed-json" }
  | .outputTruncation maxBytes _ => do
    let body ← truncate response.body maxBytes
    pure { response with body := body }
  | .hallucinatedToolCall toolName _ =>
    pure { response with
      toolName := some toolName
      toolCalls := saturatingAdd 32 response.toolCalls 1 }
  | .toolFailure errorType _ => pure { response with body := "\x7b\"tool_error\":\"" ++ errorType ++ "\"\x7d" }
  | .retrievalPoisoning documentCount _ =>
    pure { response with
      retrievedDocuments := response.retrievedDocuments ++ poisonedDocuments documentCount
      -- the contracts read the body, so the poisoned documents are put there too
      body := "\x7b\"answer\":\"answer contaminated by poisoned retrieval: " ++
        " ".intercalate (poisonedDocuments documentCount) ++ "\"\x7d" }
  | .contextTruncation maxTokens _ | .tokenBudgetExhaustion maxTokens _ => pure (limitTokens maxTokens response)
  | .retryLoopPressure maxRetries _ => pure { response with retryCount := maxRetries }

/-- Apply a fault to a response. -/
def applyFault {S : Type} (fault : FaultSpec S) (response : FaultTargetResponse) : Run FaultOutcome := do
  let response ← faulted fault response
  pure { faultType := fault.faultType, label := fault.faultType ++ ".injected", response := response }

/-! ## Contracts -/

inductive ContractSpec (S : Type) where
  | validJson (severity : Option S)
  | maxLatency (maxMs : Nat) (severity : Option S)
  | retryBudget (maxRetries : Nat) (severity : Option S)
  | maxToolCalls (maxCalls : Nat) (severity : Option S)
  | maxTokenUsage (maxTokens : Nat) (severity : Option S)
  | fallbackUsed (severity : Option S)
  | gracefulError (severity : Option S)
  | requiredCitation (severity : Option S)
  | noPii (severity : Option S)
  | noSecretLeakage (severity : Option S)

namespace ContractSpec

variable {S : Type}

def contractType : ContractSpec S → String
  | validJson .. => "valid_json"
  | maxLatency .. => "max_latency"
  | retryBudget .. => "retry_budget"
  | maxToolCalls .. => "max_tool_calls"
  | maxTokenUsage .. => "max_token_usage"
  | fallbackUsed .. => "fallback_used"
  | gracefulError .. => "graceful_error"
  | requiredCitation .. => "required_citation"
  | noPii .. => "no_pii"
  | noSecretLeakage .. => "no_secret_leakage"

def severity (A : Arithmetic S) : ContractSpec S → S
  | validJson severity | maxLatency _ severity | retryBudget _ severity | maxToolCalls _ severity | maxTokenUsage _ severity
  | fallbackUsed severity | gracefulError severity | requiredCitation severity | noPii severity | noSecretLeakage severity =>
    severity.getD (A.ofRat 1)

end ContractSpec

structure ContractOutcome (S : Type) where
  contractType : String
  scenario : String
  passed : Bool
  reason : Option String
  severity : S

def failureReason (passed : Bool) (reason : String) : Option String := if passed then none else some reason

/-- `str::contains` -/
def contains (text part : String) : Bool := decide (part.toList <:+: text.toList)

/-- Whether a response keeps a contract, and the reason that is given when it does not. -/
def ContractSpec.check {S : Type} (L : Texts) (response : FaultTargetResponse) : ContractSpec S → Bool × String
  | validJson _ => (L.isJson response.body, "invalid_json")
  | maxLatency maxMs _ => (decide (response.latencyMs ≤ maxMs), "latency_exceeded")
  | retryBudget maxRetries _ => (decide (response.retryCount ≤ maxRetries), "retry_budget_exceeded")
  | maxToolCalls maxCalls _ => (decide (response.toolCalls ≤ maxCalls), "tool_call_budget_exceeded")
  | maxTokenUsage maxTokens _ =>
    (decide (saturatingAdd 32 response.inputTokens response.outputTokens ≤ maxTokens), "token_budget_exceeded")
  | fallbackUsed _ => (response.fallbackUsed, "fallback_not_used")
  | gracefulError _ => (!contains (L.toLowercase response.body) "panic", "ungraceful_error")
  | requiredCitation _ => (contains response.body "http" || contains response.body "[", "citation_missing")
  | noPii _ => (!contains response.body "@", "pii_detected:email")
  | noSecretLeakage _ => (!contains response.body "sk-" && !contains response.body "SECRET", "secret_detected:api_key")

def evaluateContract {S : Type} (A : Arithmetic S) (L : Texts) (scenario : String) (contract : ContractSpec S)
    (response : FaultTargetResponse) : ContractOutcome S :=
  let (passed, reason) := contract.check L response
  { contractType := contract.contractType
    scenario := scenario
    passed := passed
    reason := failureReason passed reason
    severity := contract.severity A }

/-! ## Scores -/

def resilienceScore {S : Type} (A : Arithmetic S) (outcomes : List (ContractOutcome S)) : S :=
  let total := A.sum (outcomes.map (·.severity))
  if A.isZero total then A.ofRat 1 else A.div (A.sum ((outcomes.filter (·.passed)).map (·.severity))) total

inductive AgenticDimension where
  | recovery | costControl | correctnessUnderFault | loopAvoidance
  deriving DecidableEq, Repr

/-- The score of all outcomes, and of each dimension that has one, in their order. -/
structure AgenticScore (S : Type) where
  overall : S
  subscores : List (AgenticDimension × S)

/-- The score of a dimension that has outcomes. -/
def agenticDimension {S : Type} (A : Arithmetic S) (dimension : AgenticDimension) (outcomes : List (ContractOutcome S)) :
    List (AgenticDimension × S) :=
  if outcomes = [] then [] else [(dimension, resilienceScore A outcomes)]

def agenticScore {S : Type} (A : Arithmetic S) (stepContracts trajectoryContracts : List (ContractOutcome S)) : AgenticScore S :=
  let ofTypes (types : List String) := trajectoryContracts.filter (·.contractType ∈ types)
  { overall := resilienceScore A (stepContracts ++ trajectoryContracts)
    subscores :=
      agenticDimension A .recovery (ofTypes ["recovers_within", "terminates_healthy"]) ++
        agenticDimension A .costControl (ofTypes ["step_budget"]) ++
        agenticDimension A .correctnessUnderFault stepContracts ++
        agenticDimension A .loopAvoidance (ofTypes ["no_repeated_step"]) }

end Tumult.Agentic
