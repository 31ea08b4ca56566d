import Tumult.Core.Text
import Tumult.Mcp.Cursor

/-!
# The resources of the workspace

The files with the extension `.toon` directly in the workspace, by kind, and the pages they are listed in.
-/

namespace Tumult.Resources

/-! ## Files -/

/-- An entry of the workspace's directory. The name is missing if it is not UTF-8, the content if it cannot be read as text. -/
structure DirEntry where
  name : Option String
  isFile : Bool
  content : Option String
  len : Option Nat
  deriving DecidableEq

/-- `str::lines` -/
def lines (content : List Char) : List (List Char) :=
  let parts := content.splitOn '\n'
  let unended := parts.getLastD []
  (parts.dropLast.map fun line => if line.getLast? = some '\r' then line.dropLast else line) ++
    if unended = [] then [] else [unended]

/-- `strip_prefix` -/
def stripText (start line : List Char) : Option (List Char) :=
  if start.isPrefixOf line then some (line.drop start.length) else none

/-- `trim_matches` of a character. -/
def trimChar (c : Char) (cs : List Char) : List Char := Text.trimEndMatches (· = c) (cs.dropWhile (· = c))

/-- `file_stem` and `extension` -/
def splitExtension (name : List Char) : List Char × Option (List Char) :=
  let after := (name.reverse.takeWhile (· ≠ '.')).reverse
  let before := (name.reverse.drop (after.length + 1)).reverse
  if '.' ∈ name ∧ before ≠ [] then (before, some after) else (name, none)

/-- Both `title: value` and `"title": "value"` are titles. -/
def titleOfLine (line : List Char) : Option String :=
  let trimmed := Text.trimList line
  let plain := (stripText "title:".toList trimmed).bind fun rest =>
    match trimChar '\'' (trimChar '"' (Text.trimList rest)) with
    | [] => none
    | value => some (String.ofList value)
  plain.or ((stripText "\"title\":".toList trimmed).bind fun rest =>
    match trimChar '"' (trimChar ',' (trimChar '"' (Text.trimList rest))) with
    | [] => none
    | value => some (String.ofList value))

def extractTitle (content : List Char) : Option String := (lines content).findSome? titleOfLine

/-! ## Kinds -/

inductive ResourceKind where
  | journal
  | experiment
  | gameday
  deriving DecidableEq, Repr

namespace ResourceKind

def uriKind : ResourceKind → String
  | journal => "journal"
  | experiment => "experiment"
  | gameday => "gameday"

def mimeType : ResourceKind → String
  | journal => "application/json"
  | experiment | gameday => "application/toon"

def description : ResourceKind → String
  | journal => "Tumult experiment journal (read as JSON: \x7bsummary, journal\x7d)."
  | experiment => "Tumult chaos experiment definition (raw TOON)."
  | gameday => "Tumult GameDay campaign definition (raw TOON)."

end ResourceKind

/-- The kind is that of the name, or of the content. -/
def classify (name : String) (content : Option String) : ResourceKind :=
  if ".gameday".toList.isSuffixOf (splitExtension name.toList).1 then .gameday
  else
    match content with
    | none => .journal
    | some content =>
      if (lines content.toList).any fun line =>
          "experiment_title:".toList.isPrefixOf (line.dropWhile Text.isWhitespace) then .journal
      else if (extractTitle content.toList).isSome then .experiment
      else .journal

/-! ## Pages -/

/-- Fields that are always empty are left out. -/
structure Resource where
  uri : String
  name : String
  description : String
  mimeType : String
  size : Option Nat
  deriving DecidableEq, Repr

def URI_PREFIX : String := "tumult://"

/-- `i64::try_from` -/
def i64TryFrom (n : Nat) : Option Nat := if n < 2 ^ 63 then some n else none

def toResource (entry : DirEntry) : Option Resource := do
  let name ← entry.name
  guard (entry.isFile ∧ (splitExtension name.toList).2 = some "toon".toList)
  let kind := classify name entry.content
  pure ⟨URI_PREFIX ++ kind.uriKind ++ "/" ++ name, name, kind.description, kind.mimeType, entry.len.bind i64TryFrom⟩

/-- In the order of their URIs, whatever order the directory is read in. -/
def enumerateWorkspaceResources (readDir : Except String (List DirEntry)) : Except RpcError (List Resource) :=
  match readDir with
  | .error e => .error ⟨.internalError, "cannot read workspace root: " ++ e⟩
  | .ok entries => .ok ((entries.filterMap toResource).mergeSort fun a b => a.uri ≤ b.uri)

def RESOURCES_PAGE_SIZE : Nat := 100

structure ListResourcesResult where
  nextCursor : Option String
  resources : List Resource
  deriving DecidableEq, Repr

def cursorOffset : Option String → Except RpcError Nat
  | none => .ok 0
  | some cursor => decodeCursor cursor

/-- One page, from the offset that the cursor encodes, or from the beginning. -/
def listResourcesPage (readDir : Except String (List DirEntry)) (cursor : Option String) : Except RpcError ListResourcesResult := do
  let offset ← cursorOffset cursor
  let all ← enumerateWorkspaceResources readDir
  let total := all.length
  let endAt := min total (saturatingAdd offset RESOURCES_PAGE_SIZE)
  let resources := if total ≤ offset then [] else (all.take endAt).drop offset
  pure ⟨if endAt < total then some (encodeCursor endAt) else none, resources⟩

end Tumult.Resources
