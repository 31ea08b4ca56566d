import Tumult.Mcp.Validation

/-!
# What the engine makes of a text

The parser of the engine is taken from outside, with what its documentation says of it: statements are separated by semicolons, a
statement begins with its keyword, and the keywords and the function names that it finds stand in the text as words of their own. A
query is read as the blocks it is nested from, each with what stands in its table positions.
-/

namespace Tumult.Sql

/-! ## Queries -/

/-- What stands in table position: a bare name, a quoted identifier, a string literal, or the call of a table function. -/
inductive TableRef where
  | named (name : String)
  | quoted (name : String)
  | literal (path : String)
  | function (name : String)
  deriving DecidableEq, Repr

/-- A block of a query, with its table references and the blocks nested in it: common table expressions, subqueries in table
position or in an expression, operands of a set operation. -/
inductive Query where
  | block (tables : List TableRef) (nested : List Query)

mutual

/-- The table references of a query, at any depth. -/
def Query.tableRefs : Query → List TableRef
  | .block tables nested => tables ++ Query.tableRefsAll nested

def Query.tableRefsAll : List Query → List TableRef
  | [] => []
  | q :: qs => q.tableRefs ++ Query.tableRefsAll qs

end

/-- The table functions that read files. -/
def fileReaders : List String :=
  ["read_csv", "read_csv_auto", "sniff_csv", "read_json", "read_json_auto", "read_json_objects", "read_json_objects_auto",
    "read_ndjson", "read_ndjson_auto", "read_ndjson_objects", "read_parquet", "parquet_scan", "parquet_metadata", "parquet_schema",
    "read_text", "read_blob", "glob"]

/-- The name of a function in capitals. -/
def capitals (name : String) : List Char := name.toList.map Char.toUpper

/-- The name is one of these, in any case of its letters. -/
def isAmong (names : List String) (name : String) : Bool := names.any fun n => capitals n = capitals name

theorem fileReaders_token : ∀ reader ∈ fileReaders, (capitals reader).all isTokenChar = true ∧ capitals reader ≠ [] := by
  decide +kernel

/-- The reference reads a file of the host: a literal and a quoted identifier are opened as files. -/
def TableRef.readsHostFile : TableRef → Bool
  | named _ => false
  | quoted _ => true
  | literal _ => true
  | function name => isAmong fileReaders name

/-! ## Statements -/

/-- What a merge may do to a row, besides nothing. -/
inductive RowChange where
  | insert
  | update
  | delete
  deriving DecidableEq, Repr

def RowChange.keyword : RowChange → String
  | insert => "INSERT"
  | update => "UPDATE"
  | delete => "DELETE"

/-- A statement: a query, one of the four that change rows, which common table expressions may precede, or another one. -/
inductive Statement where
  | query (q : Query)
  | modify (change : RowChange)
  | merge (changes : List RowChange)
  | other (keyword : String)

/-- The keywords that the other statements begin with. -/
def otherKeywords : List String :=
  ["ABORT", "ALTER", "ANALYZE", "ATTACH", "BEGIN", "CALL", "CHECKPOINT", "COMMENT", "COMMIT", "COPY", "CREATE", "DEALLOCATE", "DETACH",
    "DROP", "EXECUTE", "EXPLAIN", "EXPORT", "FORCE", "IMPORT", "INSTALL", "LOAD", "PRAGMA", "PREPARE", "RESET", "ROLLBACK", "SET",
    "START", "TRUNCATE", "USE", "VACUUM"]

/-- They are words, and none of them begins a query or is begun by the first word of one. -/
theorem otherKeywords_apart : ∀ keyword ∈ otherKeywords, keyword.toList.all isTokenChar = true ∧
    (["SELECT", "WITH"].all fun start => !start.toList.isPrefixOf keyword.toList && !keyword.toList.isPrefixOf start.toList) = true := by
  decide +kernel

/-- What a statement changes in rows. -/
def Statement.rowChanges : Statement → List RowChange
  | query _ => []
  | modify change => [change]
  | merge changes => changes
  | other _ => []

/-- A statement may begin with the word. -/
def Statement.MayBegin (st : Statement) (word : List Char) : Prop :=
  match st with
  | .other keyword => keyword ∈ otherKeywords ∧ word = keyword.toList
  | _ => True

/-! ## Texts -/

/-- White space, as the engine strips it. -/
def isSpace (c : Char) : Bool :=
  Text.isWhitespace c || (0x200B ≤ c.toNat && c.toNat ≤ 0x200D) || c.toNat = 0x2060 || c.toNat = 0xFEFF

/-- A character of an identifier: a letter or digit, an underscore, a dollar sign, or what is not ASCII. -/
def isIdentifierChar (c : Char) : Bool := isTokenChar c || c = '$' || (128 ≤ c.toNat && !isSpace c)

/-- A character that ends an identifier before it and may start one after it. -/
def isBoundary (c : Char) : Bool := isSpace c || (c.toNat < 128 && !isTokenChar c)

/-- The word that a text begins with; none when it begins with anything else, such as a comment. -/
def firstWord (text : List Char) : List Char := (text.dropWhile isSpace).takeWhile isIdentifierChar

/-- The word, in any case of its letters, stands in the text between boundaries. -/
def Stands (word text : List Char) : Prop :=
  ∃ before w after, text = before ++ w ++ after ∧ w.map Char.toUpper = word ∧ (∀ c ∈ before.getLast?, isBoundary c = true) ∧
    ∀ c ∈ after.head?, isBoundary c = true

/-! ## The engine -/

/-- The parser of the engine: the statements of a text, none when it is refused. -/
abbrev Parser : Type := String → Option (List Statement)

/-- What is documented of the parser. -/
structure Documented (parse : Parser) : Prop where
  /-- Statements are separated by semicolons. -/
  separated : ∀ text body tail statements, text.toList = body ++ tail → (∀ c ∈ tail, isSpace c = true ∨ c = ';') → ';' ∉ body →
    parse text = some statements → statements.length ≤ 1
  /-- A text that begins with a word holds a statement that may begin with it. -/
  begins : ∀ text statements, parse text = some statements → firstWord text.toList ≠ [] →
    ∃ st rest, statements = st :: rest ∧ st.MayBegin ((firstWord text.toList).map Char.toUpper)
  /-- What a statement does to rows stands in its text. -/
  rowKeyword : ∀ text statements, parse text = some statements → ∀ st ∈ statements, ∀ change ∈ st.rowChanges,
    Stands change.keyword.toList text.toList
  /-- The name of a table function, of letters, digits and underscores, stands in the text, bare or in quotes. -/
  functionName : ∀ text statements q name, parse text = some statements → Statement.query q ∈ statements →
    TableRef.function name ∈ q.tableRefs → (∀ c ∈ name.toList, isTokenChar c = true) → Stands (capitals name) text.toList

/-- What is documented of the upper case of a character: the ASCII letters, and what has no case. -/
structure UpperCase (toUppercase : Char → List Char) : Prop where
  ascii : ∀ c, c.toNat < 128 → toUppercase c = [c.toUpper]
  space : ∀ c, isSpace c = true → toUppercase c = [c]
  nonempty : ∀ c, toUppercase c ≠ []

/-- Upper case of the ASCII letters alone. -/
theorem upperCase_ascii : UpperCase fun c => [c.toUpper] where
  ascii _ _ := rfl
  space c h := by
    have hlower : ¬ ('a'.val ≤ c.val ∧ c.val ≤ 'z'.val) := by
      rintro ⟨hge, hle⟩
      have hlo : 97 ≤ c.toNat := hge
      have hhi : c.toNat ≤ 122 := hle
      simp only [isSpace, Text.isWhitespace, Bool.or_eq_true, Bool.and_eq_true, decide_eq_true_eq] at h
      omega
    rw [Char.toUpper, dif_neg hlower]
  nonempty _ := by simp

end Tumult.Sql
