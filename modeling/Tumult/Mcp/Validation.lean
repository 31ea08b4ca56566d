import Tumult.Lib.Words
import Tumult.Core.Text

/-!
# The checks on a query

`validate_select_only` stands before every query a tool passes to the engine. It knows no strings, comments or identifiers: the text
in upper case is split into words, and no word may be one of the forbidden ones.
-/

namespace Tumult

/-- Keywords that introduce a write, or a change of the schema or of the configuration. -/
def FORBIDDEN_SQL_KEYWORDS : List String :=
  ["INSERT", "UPDATE", "DELETE", "CREATE", "DROP", "ALTER", "ATTACH", "DETACH", "COPY", "EXPORT", "IMPORT", "INSTALL", "LOAD",
    "PRAGMA", "SET", "CALL", "VACUUM", "TRUNCATE"]

/-- Table functions and extension entry points that reach the host's file system, the network or another database. -/
def FORBIDDEN_SQL_FUNCTIONS : List String :=
  ["READ_TEXT", "READ_CSV", "READ_PARQUET", "READ_JSON", "READ_BLOB", "GLOB", "SQLITE_SCAN", "PARQUET_SCAN", "CSV_SCAN", "JSON_SCAN",
    "HTTPFS", "EXPORT_DATABASE", "IMPORT_DATABASE"]

/-- A character the scan does not split at: an ASCII letter or digit, or an underscore. -/
def isTokenChar (c : Char) : Bool := c.isAlphanum || c = '_'

/-- A word the scan refuses. -/
def isForbidden (token : List Char) : Bool :=
  FORBIDDEN_SQL_KEYWORDS.contains (String.ofList token) || FORBIDDEN_SQL_FUNCTIONS.contains (String.ofList token)

variable (toUppercase : Char → List Char)

/-- Validate that a query is read-only; the upper case of a character is taken from outside. -/
def validateSelectOnly (query : String) : Except ToolError Unit :=
  let trimmed := Text.trimList query.toList
  let normalized := trimmed.flatMap toUppercase
  if !("SELECT".toList.isPrefixOf normalized || "WITH".toList.isPrefixOf normalized) then
    .error (.invalidInput ("only SELECT/WITH queries are allowed, got: " ++ (Text.firstField normalized).getD "(empty)"))
  else if (Text.trimEndMatches (fun c => Text.isWhitespace c || c = ';') trimmed).contains ';' then
    .error (.invalidInput "only a single statement is allowed (no `;`-separated statements)")
  else
    match (Lex.flat.words isTokenChar normalized).find? isForbidden with
    | some token => .error (.invalidInput ("query contains a forbidden keyword: " ++ String.ofList token))
    | none => .ok ()

/-- A query is accepted when it starts with the letters, has no semicolon but at its end, and no word of it is forbidden. -/
theorem validateSelectOnly_ok {query : String} : validateSelectOnly toUppercase query = .ok () ↔
    (("SELECT".toList <+: (Text.trimList query.toList).flatMap toUppercase ∨
        "WITH".toList <+: (Text.trimList query.toList).flatMap toUppercase) ∧
      ';' ∉ Text.trimEndMatches (fun c => Text.isWhitespace c || c = ';') (Text.trimList query.toList)) ∧
      ∀ token ∈ Lex.flat.words isTokenChar ((Text.trimList query.toList).flatMap toUppercase), isForbidden token = false := by
  simp only [validateSelectOnly, ← List.isPrefixOf_iff_prefix, Bool.not_eq_true', Bool.or_eq_false_iff]
  split
  · rename_i h
    simp only [reduceCtorEq, false_iff]
    rintro ⟨⟨hstart | hstart, _⟩, _⟩
    · rw [h.1] at hstart
      cases hstart
    · rw [h.2] at hstart
      cases hstart
  · rename_i h
    have hstarts : "SELECT".toList.isPrefixOf ((Text.trimList query.toList).flatMap toUppercase) = true ∨
        "WITH".toList.isPrefixOf ((Text.trimList query.toList).flatMap toUppercase) = true := by
      rw [← Bool.or_eq_true, ← Bool.not_eq_false]
      simpa using h
    split
    · rename_i hsemicolon
      simp only [reduceCtorEq, false_iff]
      intro hall
      exact hall.1.2 (by simpa using hsemicolon)
    · rename_i hsemicolon
      split
      · rename_i token hfound
        simp only [reduceCtorEq, false_iff]
        intro hall
        have htoken := hall.2 token (List.mem_of_find?_eq_some hfound)
        rw [List.find?_some hfound] at htoken
        cases htoken
      · rename_i hnone
        refine iff_of_true rfl ⟨⟨hstarts, by simpa using hsemicolon⟩, ?_⟩
        simpa using hnone

end Tumult
