import Mathlib

/-!
# Template variables

`substitute_vars` replaces the placeholders of a serialized definition, one pass over its characters; `apply_template_vars` does so
between an encoding and a decoding of the definition; `prepare_definition` resolves a definition for a queued run. The encoding, the
sources of secrets and the validation are taken from outside.
-/

namespace Tumult

/-- A map of strings, as its entries. -/
abbrev StringMap : Type := List (String × String)

/-- The rest of a name after a prefix. -/
def stripPrefix (p name : String) : Option String :=
  if p.toList.isPrefixOf name.toList then some (String.ofList (name.toList.drop p.length)) else none

/-- Resolve a placeholder name; `vars` win even for the names of the other maps. -/
def lookupVar (name : String) (vars config secrets : StringMap) : Option String :=
  match vars.lookup name with
  | some value => some value
  | none =>
    match stripPrefix "config." name with
    | some key => config.lookup key
    | none =>
      match stripPrefix "secrets." name with
      | some key => secrets.lookup key
      | none => none

/-- Where the pass is: in the text, in an escaped placeholder, or in a placeholder whose name is read so far. -/
inductive TemplateMode where
  | text
  | escape
  | placeholder (name : List Char)
  deriving DecidableEq, Repr

/-- What a placeholder leaves: its value, escaped for the document, or its name among those missing. -/
def resolvePlaceholder (escapeString : String → String) (lookup : String → Option String) (name : List Char) (result : List Char)
    (missing : List String) : List Char × List String :=
  match lookup (String.ofList name) with
  | some value => (result ++ (escapeString value).toList, missing)
  | none => (result, if String.ofList name ∈ missing then missing else missing ++ [String.ofList name])

/-- The pass over the text. -/
def substitute (escapeString : String → String) (lookup : String → Option String) :
    TemplateMode → List Char → List String → List Char → List Char × List String
  | .text, result, missing, '$' :: '$' :: '\x7b' :: rest =>
    substitute escapeString lookup .escape (result ++ ['$', '\x7b']) missing rest
  | .text, result, missing, '$' :: '$' :: rest => substitute escapeString lookup .text (result ++ ['$', '$']) missing rest
  | .text, result, missing, '$' :: '\x7b' :: rest => substitute escapeString lookup (.placeholder []) result missing rest
  | .text, result, missing, c :: rest => substitute escapeString lookup .text (result ++ [c]) missing rest
  | .escape, result, missing, c :: rest =>
    substitute escapeString lookup (if c = '\x7d' then .text else .escape) (result ++ [c]) missing rest
  | .placeholder name, result, missing, c :: rest =>
    if c = '\x7d' then
      let (result, missing) := resolvePlaceholder escapeString lookup name result missing
      substitute escapeString lookup .text result missing rest
    else substitute escapeString lookup (.placeholder (name ++ [c])) result missing rest
  | .placeholder name, result, missing, [] => resolvePlaceholder escapeString lookup name result missing
  | _, result, missing, [] => (result, missing)

/-- Errors of the template engine. -/
inductive TemplateError where
  | parse (message : String)
  | undefinedVars (names : String)
  deriving DecidableEq, Repr

/-- The rendered error. -/
def TemplateError.message : TemplateError → String
  | .parse m => s!"experiment file parse error: {m}"
  | .undefinedVars names => s!"experiment template references undefined variables: {names}"

/-- Substitute the placeholders of a text. -/
def substituteVars (escapeString : String → String) (text : String) (vars config secrets : StringMap) : Except TemplateError String :=
  let (result, missing) := substitute escapeString (fun name => lookupVar name vars config secrets) .text [] [] text.toList
  if missing = [] then .ok (String.ofList result)
  else .error (.undefinedVars (", ".intercalate (missing.map fun name => "$\x7b" ++ name ++ "\x7d")))

/-- What the template engine takes from outside: the serialization of definitions, the sources of secrets, the validation. -/
structure TemplateCtx where
  Experiment : Type
  /-- `toon_format::encode_default`. -/
  encode : Experiment → Except String String
  /-- `toon_format::decode_default`. -/
  decode : String → Except String Experiment
  /-- `toon_format::escape_string`. -/
  escapeString : String → String
  /-- `resolve_secrets` of the definition's secrets section, flattened to `group.key`. -/
  resolveSecrets : Experiment → Except String StringMap
  /-- `validate_experiment`. -/
  validate : Experiment → Except String Unit
  /-- `str::to_uppercase`. -/
  toUppercase : String → String

variable (Γ : TemplateCtx)

/-- Apply template variables to a definition. -/
def applyTemplateVars (experiment : Γ.Experiment) (vars config secrets : StringMap) : Except TemplateError Γ.Experiment := do
  let toon ← (Γ.encode experiment).mapError .parse
  let substituted ← substituteVars Γ.escapeString toon vars config secrets
  (Γ.decode substituted).mapError .parse

/-- A map with an entry set. -/
def StringMap.insert (m : StringMap) (key value : String) : StringMap :=
  if m.any (·.1 = key) then m.map fun e => if e.1 = key then (key, value) else e else m ++ [(key, value)]

/-- Flatten the secrets of groups to `group.key`. -/
def flattenSecrets (secrets : List (String × StringMap)) : StringMap :=
  secrets.foldl (fun flat group => group.2.foldl (fun flat e => flat.insert (group.1 ++ "." ++ e.1) e.2) flat) []

/-- A valid name of an environment variable. -/
def isValidEnvIdentifier (name : String) : Bool :=
  match name.toList with
  | [] => false
  | first :: rest => (first.isAlpha || first = '_') && rest.all fun c => c.isAlphanum || c = '_'

/-- The environment of a map: every key in order, uppercase and prefixed; invalid names and later duplicates are skipped. -/
def buildPrefixedEnv (values : StringMap) (p : String) (separator : Option Char) : StringMap × List String :=
  (values.insertionSort (fun a b => a.1 ≤ b.1)).foldl (fun (env, skipped) (key, value) =>
    let upper := Γ.toUppercase key
    let name := match separator with
      | some sep => String.ofList (upper.toList.map fun c => if c = sep then '_' else c)
      | none => upper
    if isValidEnvIdentifier name && (env.lookup (p ++ name)).isNone then (env ++ [(p ++ name, value)], skipped)
    else (env, skipped ++ [key])) ([], [])

def buildConfigEnv (config : StringMap) : StringMap := (buildPrefixedEnv Γ config "TUMULT_CONFIG_" none).1

def buildSecretEnv (secrets : StringMap) : StringMap := (buildPrefixedEnv Γ secrets "TUMULT_SECRET_" (some '.')).1

/-- Resolve the secrets, apply what is given for the templates, validate, and build the environment to inject. -/
def prepareWith (template : Γ.Experiment → StringMap → Except String Γ.Experiment) (definition : Γ.Experiment)
    (config : StringMap) : Except String (Γ.Experiment × StringMap) := do
  let secrets ← (Γ.resolveSecrets definition).mapError fun e => s!"secrets: {e}"
  let experiment ← template definition secrets
  (Γ.validate experiment).mapError fun e => s!"validate: {e}"
  pure (experiment, buildConfigEnv Γ config ++ buildSecretEnv Γ secrets)

/-- The stage that applies template variables, with its prefix. -/
def templateStage (vars config : StringMap) (definition : Γ.Experiment) (secrets : StringMap) : Except String Γ.Experiment :=
  (applyTemplateVars Γ definition vars config secrets).mapError fun e => s!"template: {e.message}"

/-- Prepare a definition for a queued run: without any value there is nothing to apply. -/
def prepareDefinition (definition : Γ.Experiment) (vars config : StringMap) : Except String (Γ.Experiment × StringMap) :=
  prepareWith Γ (fun experiment secrets =>
    if vars.isEmpty && config.isEmpty && secrets.isEmpty then .ok experiment
    else templateStage Γ vars config experiment secrets) definition config

/-- Prepare a definition and always apply the template variables. -/
def prepareAlways (definition : Γ.Experiment) (vars config : StringMap) : Except String (Γ.Experiment × StringMap) :=
  prepareWith Γ (templateStage Γ vars config) definition config

/-- Definitions that are their own text. -/
def textCtx : TemplateCtx where
  Experiment := String
  encode := .ok
  decode := .ok
  escapeString := id
  resolveSecrets := fun _ => .ok []
  validate := fun _ => .ok ()
  toUppercase := String.toUpper

end Tumult
