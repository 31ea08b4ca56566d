import Tumult.Core.Text
import Tumult.Lib.Spans

/-!
# Guardrails for generated SQL

The words of a generated query, read twice: as texts for the validation, and with their positions for the rewriting. What is
alphanumeric is taken from the tables of Unicode.
-/

namespace Tumult.SqlGuard

variable (isAlphanumeric : Char → Bool)

/-- Where a reader stands: outside of string literals, inside of one, or before the second of two quotes inside of one. -/
inductive Mode where
  | outside
  | inString
  | escaped
  deriving DecidableEq, Repr

/-- A character of a word. -/
def isWordChar (c : Char) : Bool := isAlphanumeric c || c = '_' || c = '.'

/-- The word that is read so far, when it has a character. -/
def takeWord (current : List Char) : List String := if current = [] then [] else [String.ofList current]

def tokenizeFrom : Mode → List Char → List Char → List String
  | _, current, [] => takeWord current
  | .escaped, current, _ :: cs => tokenizeFrom .inString current cs
  | .inString, current, c :: cs =>
    if c = '\'' then
      -- a quote that is followed by a quote stays in the string
      if cs.head? = some '\'' then tokenizeFrom .escaped current cs
      else "?str?" :: tokenizeFrom .outside current cs
    else tokenizeFrom .inString current cs
  | .outside, current, c :: cs =>
    if c = '\'' then takeWord current ++ tokenizeFrom .inString [] cs
    else if isWordChar isAlphanumeric c then tokenizeFrom .outside (current ++ [c]) cs
    else takeWord current ++ (if Text.isWhitespace c then [] else [String.ofList [c]]) ++ tokenizeFrom .outside [] cs

/-- Split SQL into word tokens; the contents of string literals are dropped. -/
def tokenize (sql : String) : List String := tokenizeFrom isAlphanumeric .outside [] sql.toList

/-- A token with its byte span in the source SQL. -/
structure PosTok where
  text : String
  start : Nat
  stop : Nat
  word : Bool
  deriving DecidableEq, Repr

/-- The word that is read so far, up to a position. -/
def takeWordAt (current : List Char) (currentStart stop : Nat) : List PosTok :=
  if current = [] then [] else [⟨String.ofList current, currentStart, stop, true⟩]

/-- The loop, with the word that is read so far, where it starts, where the string starts and where the next character stands. -/
def tokenizePositionsFrom (len : Nat) : Mode → List Char → Nat → Nat → Nat → List Char → List PosTok
  | _, current, currentStart, _, _, [] => takeWordAt current currentStart len
  | .escaped, current, currentStart, stringStart, i, c :: cs =>
    tokenizePositionsFrom len .inString current currentStart stringStart (i + c.utf8Size) cs
  | .inString, current, currentStart, stringStart, i, c :: cs =>
    if c = '\'' then
      if cs.head? = some '\'' then tokenizePositionsFrom len .escaped current currentStart stringStart (i + c.utf8Size) cs
      else
        ⟨"?str?", stringStart, i + 1, false⟩ ::
          tokenizePositionsFrom len .outside current currentStart stringStart (i + c.utf8Size) cs
    else tokenizePositionsFrom len .inString current currentStart stringStart (i + c.utf8Size) cs
  | .outside, current, currentStart, stringStart, i, c :: cs =>
    if c = '\'' then
      takeWordAt current currentStart i ++ tokenizePositionsFrom len .inString [] currentStart i (i + c.utf8Size) cs
    else if isWordChar isAlphanumeric c then
      tokenizePositionsFrom len .outside (current ++ [c]) (if current = [] then i else currentStart) stringStart (i + c.utf8Size) cs
    else
      takeWordAt current currentStart i ++
        (if Text.isWhitespace c then [] else [⟨String.ofList [c], i, i + c.utf8Size, false⟩]) ++
          tokenizePositionsFrom len .outside [] currentStart stringStart (i + c.utf8Size) cs

/-- The tokens with their byte spans; string literals become placeholders. -/
def tokenizePositions (sql : String) : List PosTok :=
  tokenizePositionsFrom isAlphanumeric (Spans.bytes sql.toList) .outside [] 0 0 0 sql.toList

end Tumult.SqlGuard
