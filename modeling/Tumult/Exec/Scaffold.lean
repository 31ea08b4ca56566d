import Tumult.Exec.Arguments
import Tumult.Lib.Decimal

/-!
# Scaffolded arguments

The arguments of a scaffold request on their way to the script: coerced to JSON values, kept in the file of the experiment, turned
back into text, checked, and set as variables. The scaffolded experiment has no configuration and no secrets, so nothing is injected
beside them.
-/

namespace Tumult.Scaffold

/-- The finite floating-point numbers, with the library's reading and writing of them. -/
structure FloatText where
  Finite : Type
  /-- `str::parse::<f64>`, where the result is finite, so that `Number::from_f64` takes it. -/
  parse : String → Option Finite
  /-- The text of the number in JSON. -/
  print : Finite → String

/-- `str::parse::<i64>` -/
def parseI64 (raw : String) : Option Int := (Decimal.readInt raw.toList).filter fun i => -(2 ^ 63) ≤ i && i < 2 ^ 63

section

variable (Φ : FloatText)

/-- Coerce a string argument to a JSON value: a number, a boolean, or itself. -/
def coerceValue (raw : String) : ArgumentValue :=
  match parseI64 raw with
  | some i => .other (toString i)
  | none =>
    match Φ.parse raw with
    | some f => .other (Φ.print f)
    | none => if raw = "true" then .other "true" else if raw = "false" then .other "false" else .string raw

/-- A request, as far as the arguments of its method step go. The arguments are a map. -/
structure ScaffoldRequest where
  plugin : String
  action : String
  args : StringMap
  target : String
  args_nodup : (args.map Prod.fst).Nodup

/-- The plugins that are compiled in. -/
def NATIVE_PLUGINS : List String := ["tumult-kubernetes", "tumult-ssh", "tumult-net", "tumult-cloud", "tumult-windows"]

/-- The provider of a scaffolded step. -/
inductive StepProvider where
  | native (plugin function : String) (arguments : List (String × ArgumentValue))
  | script (plugin function : String) (arguments : List (String × ArgumentValue))
  deriving DecidableEq, Repr

/-- Emitting `native` for a script plugin would fail at runtime. -/
def providerFor (plugin function : String) (arguments : List (String × ArgumentValue)) : StepProvider :=
  if plugin ∈ NATIVE_PLUGINS then .native plugin function arguments else .script plugin function arguments

/-- The supplied arguments plus the logical target. -/
def methodArguments (request : ScaffoldRequest) : List (String × ArgumentValue) :=
  let arguments := request.args.map fun e => (e.1, coerceValue Φ e.2)
  if "target" ∈ arguments.map Prod.fst then arguments else arguments ++ [("target", .string request.target)]

/-- The provider of the method step. -/
def methodProvider (request : ScaffoldRequest) : StepProvider :=
  providerFor request.plugin request.action (methodArguments Φ request)

end

/-! ## The script -/

inductive ScriptError where
  | nullByteInArgument (name : String)
  | environment (error : ExecutorError)
  deriving DecidableEq, Repr

def NUL : Char := Char.ofNat 0

/-- No key is empty, and no key or value holds a null byte. -/
def validateArguments : StringMap → Except ScriptError Unit
  | [] => .ok ()
  | (k, v) :: arguments =>
    if k = "" then .error (.nullByteInArgument "<empty key>")
    else if NUL ∈ k.toList || NUL ∈ v.toList then .error (.nullByteInArgument k)
    else validateArguments arguments

/-- The variables that a script is executed with. -/
def scriptVariables (Γ : TemplateCtx) (arguments : List (String × ArgumentValue)) : Except ScriptError StringMap := do
  let args := scriptArguments arguments
  validateArguments args
  (buildEnvVars Γ args).mapError .environment

/-! ## The steady-state probe -/

/-- A steady-state probe: a shell command, or a health check over HTTP. -/
inductive ProbeSpec where
  | exec (command expect : String)
  | http (url expect : String)
  deriving DecidableEq, Repr

/-- Single-quote a value for interpolation into a `sh -c` command line. -/
def shellQuote (value : String) : String :=
  "'" ++ String.ofList (value.toList.flatMap fun c => if c = '\'' then ['\'', '\\', '\'', '\''] else [c]) ++ "'"

def ProbeSpec.defaultFor (target : String) : ProbeSpec :=
  .exec ("echo " ++ shellQuote target ++ " steady-state ok") "steady-state ok"

/-- The shell command and the expected output of a probe. -/
def ProbeSpec.commandAndExpect : ProbeSpec → String × String
  | .exec command expect => (command, expect)
  | .http url expect => ("curl -fsS " ++ shellQuote url, if expect = "" then "." else expect)

end Tumult.Scaffold
