import Tumult.Core.Template
import Tumult.Lib.Keyed

/-!
# The arguments of activities

The environment of the configuration and of the secrets is injected into processes as variables, and into scripts as arguments that
the script executor turns into the same variables. A map is the list of its entries, in the order it is read in.
-/

namespace Tumult

/-- A JSON value: a string, or another value by its text. -/
inductive ArgumentValue where
  | string (s : String)
  | other (json : String)
  deriving DecidableEq, Repr

/-- Strings pass through unquoted. -/
def argumentValueToString : ArgumentValue → String
  | .string s => s
  | .other json => json

/-- Merge the injected environment into the one that a process declares. -/
def mergedProcessEnv (injectedEnv env : StringMap) : StringMap := Keyed.upsertAll Prod.fst env injectedEnv

/-- Merge the injected environment into the arguments that a script declares, under keys in lower case. -/
def mergedScriptArguments (toLowercase : String → String) (injectedEnv : StringMap) (arguments : List (String × ArgumentValue)) :
    List (String × ArgumentValue) :=
  let injected := injectedEnv.filterMap fun e =>
    (stripPrefix "TUMULT_" e.1).map fun rest => (toLowercase rest, ArgumentValue.string e.2)
  Keyed.upsertAll Prod.fst arguments (Keyed.upsertAll Prod.fst injected [])

/-- The arguments that the script is executed with. -/
def scriptArguments (arguments : List (String × ArgumentValue)) : StringMap :=
  arguments.map fun e => (e.1, argumentValueToString e.2)

inductive ExecutorError where
  | invalidArgumentName (name : String)
  | conflictingArgumentNames (first second uppercased : String)
  deriving DecidableEq, Repr

variable (Γ : TemplateCtx)

/-- One argument: its variable, and the name that it is known by from now on. -/
def buildEnvVar (acc : StringMap × StringMap) (argument : String × String) : Except ExecutorError (StringMap × StringMap) :=
  let uppercased := Γ.toUppercase argument.1
  if !isValidEnvIdentifier uppercased then .error (.invalidArgumentName argument.1)
  else
    match acc.2.lookup uppercased with
    | some first => .error (.conflictingArgumentNames first argument.1 uppercased)
    | none =>
      .ok (Keyed.upsert Prod.fst ("TUMULT_" ++ uppercased, argument.2) acc.1, Keyed.upsert Prod.fst (uppercased, argument.1) acc.2)

def buildEnvVars (arguments : StringMap) : Except ExecutorError StringMap := do
  let (env, _) ← arguments.foldlM (buildEnvVar Γ) ([], [])
  pure env

end Tumult
