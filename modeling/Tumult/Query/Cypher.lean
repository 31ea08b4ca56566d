import Tumult.Lib.Words

/-!
# The Cypher guard

`find_mutation_token` scans a query for mutating keywords before the engine sees it, and `run_cypher_capped` refuses the query when
it finds one. The scan knows strings and backtick identifiers, and no comments. What counts as a bare word is said by the reading of
openCypher (`openCypher`), which knows both.
-/

namespace Tumult

/-- The mutating clause keywords. -/
def MUTATING_TOKENS : List String := ["CREATE", "MERGE", "DELETE", "SET", "REMOVE", "DROP"]

/-- The word is a mutating keyword in some letter case. -/
def isMutating (token : List Char) : Bool := MUTATING_TOKENS.contains (String.ofList (token.map Char.toUpper))

/-- What opens and closes a string or a backtick identifier. -/
def isQuote (c : Char) : Bool := c = '\'' || c = '"' || c = '`'

variable (isAlphanumeric : Char → Bool)

/-- A character of a bare word; what is alphanumeric is taken from outside. -/
def isWordChar (c : Char) : Bool := !isQuote c && (isAlphanumeric c || c = '_')

/-- The token, when it is a mutating keyword. -/
def flush (token : List Char) : Option String := if isMutating token then some (String.ofList token) else none

/-- The scan from a character on: the open quote, and the word read so far. -/
def scanMutation : Option Char → List Char → List Char → Option String
  | _, token, [] => flush token
  | some q, token, c :: rest =>
    if c = '\\' ∧ q ≠ '`' then
      -- the escaped character does not end the string
      match rest with
      | [] => flush token
      | _ :: rest => scanMutation (some q) token rest
    else if c = q then scanMutation none token rest
    else scanMutation (some q) token rest
  | none, token, c :: rest =>
    if isQuote c then
      match flush token with
      | some hit => some hit
      | none => scanMutation (some c) [] rest
    else if isAlphanumeric c || c = '_' then scanMutation none (token ++ [c]) rest
    else
      match flush token with
      | some hit => some hit
      | none => scanMutation none [] rest

/-- Scan for mutating clause keywords outside quoted strings. -/
def findMutationToken (query : String) : Option String := scanMutation isAlphanumeric none [] query.toList

/-- Errors of a query. -/
inductive CypherError where
  | mutationRejected (token : String)
  | budgetExceeded (estimated budget : Nat)
  | other (error : String)
  deriving DecidableEq, Repr

/-- Run a query with a row cap: the guard first, then the evaluation, which is taken from outside. -/
def runCypherCapped {Table : Type} (evaluate : String → Nat → Except CypherError Table) (query : String) (rowCap : Nat) :
    Except CypherError Table :=
  match findMutationToken isAlphanumeric query with
  | some token => .error (.mutationRejected token)
  | none => evaluate query rowCap

/-! ## Readings of a query -/

/-- Lexical states of openCypher. -/
inductive CypherMode where
  | code
  /-- After a slash in the open. -/
  | slash
  | lineComment
  | blockComment
  /-- After a star in a block comment. -/
  | blockStar
  | quoted (q : Char)
  /-- After a backslash in a string. -/
  | escaped (q : Char)
  deriving DecidableEq, Repr

/-- From the open. -/
def CypherMode.ofCode (c : Char) : CypherMode := if isQuote c then .quoted c else if c = '/' then .slash else .code

/-- Inside a string or a backtick identifier, which knows no escapes. -/
def CypherMode.ofQuoted (q c : Char) : CypherMode :=
  if c = '\\' ∧ q ≠ '`' then .escaped q else if c = q then .code else .quoted q

/-- The reading of openCypher: strings with escapes, backtick identifiers, line comments and block comments. -/
def openCypher : Lex.Modes CypherMode where
  start := .code
  next
    | .code, c => .ofCode c
    | .slash, c => if c = '/' then .lineComment else if c = '*' then .blockComment else .ofCode c
    | .lineComment, c => if c = '\n' ∨ c = '\r' then .code else .lineComment
    | .blockComment, c => if c = '*' then .blockStar else .blockComment
    | .blockStar, c => if c = '/' then .code else if c = '*' then .blockStar else .blockComment
    | .quoted q, c => .ofQuoted q c
    | .escaped q, _ => .quoted q
  isOpen m := m = .code || m = .slash

/-- The reading that takes a comment for ordinary text: a quote in a comment opens a string. -/
def commentsAsText : Lex.Modes CypherMode where
  start := .code
  next
    | .quoted q, c => .ofQuoted q c
    | .escaped q, _ => .quoted q
    | _, c => if isQuote c then .quoted c else .code
  isOpen m := m = .code

/-- A bare word of the query is a mutating keyword. -/
def HasMutation (query : String) : Prop := ∃ w ∈ openCypher.words (isWordChar isAlphanumeric) query.toList, isMutating w = true

/-- A word of the query is a mutating keyword when comments are taken for ordinary text. -/
def HasMutationAsText (query : String) : Prop :=
  ∃ w ∈ commentsAsText.words (isWordChar isAlphanumeric) query.toList, isMutating w = true

instance (query : String) : Decidable (HasMutation isAlphanumeric query) := inferInstanceAs (Decidable (∃ w ∈ _, _))

instance (query : String) : Decidable (HasMutationAsText isAlphanumeric query) := inferInstanceAs (Decidable (∃ w ∈ _, _))

end Tumult
