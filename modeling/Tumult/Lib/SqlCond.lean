import Tumult.Lib.SqlLex

/-!
# Conditions of a WHERE clause

Comparisons of texts under NOT, OR and COALESCE, read from tokens and evaluated on a row in the three values of SQL: a null, and a
comparison with one, is `none`. A row is selected where its condition is true.
-/

namespace SqlCond

open SqlLex (Token)

/-- What is compared. -/
inductive Operand where
  | column (path : List String)
  /-- An entry of a map. -/
  | entry (path : List String) (key : String)
  | text (content : String)
  deriving DecidableEq, Repr

inductive Cond where
  | eq (a b : Operand)
  | isIn (a : Operand) (items : List String)
  | or (p q : Cond)
  | not (p : Cond)
  /-- `COALESCE(p, false)` -/
  | orFalse (p : Cond)
  deriving DecidableEq, Repr

/-- The texts of a row: its columns, and the entries of its maps. -/
structure Row where
  column : List String → Option String
  entry : List String → String → Option String

/-! ## Evaluation -/

def Operand.value (row : Row) : Operand → Option String
  | column path => row.column path
  | entry path key => row.entry path key
  | text content => some content

/-- OR of three values. -/
def orValue : Option Bool → Option Bool → Option Bool
  | some true, _ => some true
  | _, some true => some true
  | some false, some false => some false
  | _, _ => none

def Cond.eval (row : Row) : Cond → Option Bool
  | eq a b => (a.value row).bind fun x => (b.value row).map fun y => decide (x = y)
  | isIn a items => (a.value row).map fun x => decide (x ∈ items)
  | or p q => orValue (p.eval row) (q.eval row)
  | not p => (p.eval row).map fun b => !b
  | orFalse p => some ((p.eval row).getD false)

/-! ## Reading -/

/-- The rest of a name with dots. -/
def readPath : List Token → List String × List Token
  | .symbol "." :: .word w :: ts => ((w :: (readPath ts).1), (readPath ts).2)
  | ts => ([], ts)

def readOperand : List Token → Option (Operand × List Token)
  | .string s :: ts => some (.text s, ts)
  | .word w :: ts =>
    match (readPath ts).2 with
    | .symbol "[" :: .string key :: .symbol "]" :: rest => some (.entry (w :: (readPath ts).1) key, rest)
    | rest => some (.column (w :: (readPath ts).1), rest)
  | _ => none

/-- The strings of a list, down to the closing parenthesis. -/
def readItems : List Token → Option (List String × List Token)
  | .string s :: .symbol ")" :: ts => some ([s], ts)
  | .string s :: .symbol "," :: ts => (readItems ts).map fun (items, rest) => (s :: items, rest)
  | _ => none

def readComparison (ts : List Token) : Option (Cond × List Token) := do
  match ← readOperand ts with
  | (a, .symbol "=" :: ts) =>
    let (b, rest) ← readOperand ts
    return (.eq a b, rest)
  | (a, .word "IN" :: .symbol "(" :: ts) =>
    let (items, rest) ← readItems ts
    return (.isIn a items, rest)
  | _ => none

mutual

/-- A condition without an OR outside of parentheses. -/
def readAtom : Nat → List Token → Option (Cond × List Token)
  | 0, _ => none
  | n + 1, .word "NOT" :: ts => (readAtom n ts).map fun (p, rest) => (.not p, rest)
  | n + 1, .symbol "(" :: ts => do
    match ← readOr n ts with
    | (p, .symbol ")" :: rest) => return (p, rest)
    | _ => none
  | n + 1, .word "COALESCE" :: .symbol "(" :: ts => do
    match ← readOr n ts with
    | (p, .symbol "," :: .word "false" :: .symbol ")" :: rest) => return (.orFalse p, rest)
    | _ => none
  | _ + 1, ts => readComparison ts

def readOr : Nat → List Token → Option (Cond × List Token)
  | 0, _ => none
  | n + 1, ts => do
    match ← readAtom n ts with
    | (p, .word "OR" :: ts) =>
      let (q, rest) ← readOr n ts
      return (.or p q, rest)
    | (p, rest) => return (p, rest)

end

/-- The condition that the tokens are. -/
def parse (ts : List Token) : Option Cond :=
  match readOr (2 * ts.length + 2) ts with
  | some (p, []) => some p
  | _ => none

/-- The text is a condition that is true of the row. -/
def selects (text : String) (row : Row) : Bool := ((SqlLex.lex text).bind parse).any fun p => p.eval row == some true

/-! ## Three values -/

section

variable {row : Row}

theorem eval_eq {a b : Operand} : (Cond.eq a b).eval row = some true ↔ ∃ x, a.value row = some x ∧ b.value row = some x := by
  cases ha : a.value row with
  | none => simp [Cond.eval, ha]
  | some x =>
    cases hb : b.value row with
    | none => simp [Cond.eval, ha, hb]
    | some y => simp [Cond.eval, ha, hb, eq_comm]

theorem eval_isIn {a : Operand} {items : List String} :
    (Cond.isIn a items).eval row = some true ↔ ∃ x ∈ items, a.value row = some x := by
  cases ha : a.value row with
  | none => simp [Cond.eval, ha]
  | some x => simp [Cond.eval, ha]

theorem eval_or {p q : Cond} : (Cond.or p q).eval row = some true ↔ p.eval row = some true ∨ q.eval row = some true := by
  rw [Cond.eval]
  cases p.eval row with
  | none =>
    cases q.eval row with
    | none => simp [orValue]
    | some b => cases b <;> simp [orValue]
  | some a =>
    cases q.eval row with
    | none => cases a <;> simp [orValue]
    | some b => cases a <;> cases b <;> simp [orValue]

/-- The negation of conditions that are never null: what is not true is false. -/
theorem eval_not_or_orFalse {p q : Cond} :
    (Cond.not (.or (.orFalse p) (.orFalse q))).eval row = some true ↔ ¬ (p.eval row = some true ∨ q.eval row = some true) := by
  simp only [Cond.eval]
  cases p.eval row with
  | none =>
    cases q.eval row with
    | none => simp [orValue]
    | some b => cases b <;> simp [orValue]
  | some a =>
    cases q.eval row with
    | none => cases a <;> simp [orValue]
    | some b => cases a <;> cases b <;> simp [orValue]

end

/-! ## The tokens of names and comparisons -/

section

open SqlLex (pathTokens)

/-- A keyword of conditions. -/
def isKeyword (w : String) : Bool := w ∈ ["NOT", "COALESCE", "OR", "IN"]

/-- The name of a column: words that are no keywords, with dots between them. -/
structure Path where
  parts : List String
  ne_nil : parts ≠ []
  words : ∀ part ∈ parts, SqlLex.isWord part = true ∧ isKeyword part = false

def Path.text (p : Path) : String := ".".intercalate p.parts

def Path.tokens (p : Path) : List Token := pathTokens p.parts

theorem Path.lexed (p : Path) : SqlLex.Lexed p.text p.tokens := SqlLex.lexed_path fun part hpart => (p.words part hpart).1

/-- What ends a name: another token than a dot. -/
def EndsPath (ts : List Token) : Prop := ts.head? ≠ some (.symbol ".")

theorem readPath_of_ends {ts : List Token} (h : EndsPath ts) : readPath ts = ([], ts) := by
  unfold readPath
  split
  · exact absurd rfl h
  · rfl

theorem readPath_pathTokens {parts : List String} {ts : List Token} (h : EndsPath ts) :
    readPath ((parts.flatMap fun part => [.symbol ".", .word part]) ++ ts) = (parts, ts) := by
  induction parts with
  | nil => exact readPath_of_ends h
  | cons part parts ih =>
    rw [List.flatMap_cons, List.append_assoc]
    simp only [List.cons_append, List.nil_append]
    rw [readPath, ih]

theorem pathTokens_cons (w : String) (parts : List String) :
    pathTokens (w :: parts) = .word w :: parts.flatMap fun part => [.symbol ".", .word part] := by
  induction parts generalizing w with
  | nil => rfl
  | cons part parts ih =>
    have htail := ih part
    unfold pathTokens at htail ⊢
    simp only [List.map_cons] at htail ⊢
    rw [List.intercalate_cons_of_ne_nil (List.cons_ne_nil _ _), htail]
    rfl

/-- A name is read as a column. -/
theorem readOperand_column (p : Path) {ts : List Token} (hpath : EndsPath ts) (hentry : ts.head? ≠ some (.symbol "[")) :
    readOperand (p.tokens ++ ts) = some (.column p.parts, ts) := by
  obtain ⟨parts, hne, -⟩ := p
  obtain ⟨w, parts, rfl⟩ := List.exists_cons_of_ne_nil hne
  simp only [Path.tokens, pathTokens_cons, List.cons_append, readOperand, readPath_pathTokens hpath]
  split
  · exact absurd rfl hentry
  · rfl

/-- A name before a key is read as an entry. -/
theorem readOperand_entry (p : Path) (key : String) (ts : List Token) :
    readOperand (p.tokens ++ (.symbol "[" :: .string key :: .symbol "]" :: ts)) = some (.entry p.parts key, ts) := by
  obtain ⟨parts, hne, -⟩ := p
  obtain ⟨w, parts, rfl⟩ := List.exists_cons_of_ne_nil hne
  have hpath : EndsPath (Token.symbol "[" :: .string key :: .symbol "]" :: ts) := by
    simp [EndsPath]
  simp only [Path.tokens, pathTokens_cons, List.cons_append, readOperand, readPath_pathTokens hpath]

/-- Strings with commas between them. -/
theorem readItems_intercalate {items : List String} (hne : items ≠ []) (ts : List Token) :
    readItems ([Token.symbol ","].intercalate (items.map fun s => [.string s]) ++ .symbol ")" :: ts) = some (items, ts) := by
  induction items with
  | nil => exact absurd rfl hne
  | cons s items ih =>
    cases items with
    | nil => rfl
    | cons next items =>
      have hmore := ih (List.cons_ne_nil _ _)
      simp only [List.map_cons] at hmore ⊢
      rw [List.intercalate_cons_of_ne_nil (List.cons_ne_nil _ _), List.append_assoc, List.append_assoc]
      simp only [List.cons_append, List.nil_append]
      rw [readItems, hmore]
      rfl

/-- A condition that begins with a name is a comparison. -/
theorem readAtom_path (p : Path) (n : Nat) (ts : List Token) : readAtom (n + 1) (p.tokens ++ ts) = readComparison (p.tokens ++ ts) := by
  obtain ⟨parts, hne, hwords⟩ := p
  obtain ⟨w, parts, rfl⟩ := List.exists_cons_of_ne_nil hne
  have hkey := (hwords w List.mem_cons_self).2
  simp only [isKeyword, decide_eq_false_iff_not, List.mem_cons, not_or] at hkey
  simp only [Path.tokens, pathTokens_cons, List.cons_append]
  unfold readAtom
  split
  · next hn => cases hn
  · next heq => exact absurd (Token.word.inj (List.cons.inj heq).1) hkey.1
  · next heq => cases (List.cons.inj heq).1
  · next heq => exact absurd (Token.word.inj (List.cons.inj heq).1) hkey.2.1
  · next hn _ _ _ => cases hn; rfl

/-! ## Reading conditions of one shape -/

/-- The tokens of the comparison of an entry with a text, behind the map's name. -/
def entryIs (key content : String) (ts : List Token) : List Token :=
  .symbol "[" :: .string key :: .symbol "]" :: .symbol "=" :: .string content :: ts

theorem readComparison_entry (p : Path) (key content : String) (ts : List Token) :
    readComparison (p.tokens ++ entryIs key content ts) = some (.eq (.entry p.parts key) (.text content), ts) := by
  unfold readComparison entryIs
  rw [readOperand_entry]
  rfl

theorem readComparison_isIn (p : Path) {items : List String} (hne : items ≠ []) (ts : List Token) :
    readComparison (p.tokens ++ (.word "IN" :: .symbol "(" ::
      ([Token.symbol ","].intercalate (items.map fun s => [.string s]) ++ .symbol ")" :: ts))) =
      some (.isIn (.column p.parts) items, ts) := by
  unfold readComparison
  rw [readOperand_column p (by simp [EndsPath]) (by simp)]
  simp [readItems_intercalate hne]

/-- A condition before another token than OR is whole. -/
theorem readOr_of_readAtom {n : Nat} {ts us : List Token} {p : Cond} (hp : readAtom n ts = some (p, us))
    (hor : us.head? ≠ some (.word "OR")) : readOr (n + 1) ts = some (p, us) := by
  rw [readOr, hp]
  simp only [Option.bind_eq_bind, Option.bind_some]
  split
  · next heq =>
    cases heq
    exact absurd rfl hor
  · next heq =>
    cases heq
    rfl

theorem readAtom_entry (p : Path) (key content : String) (ts : List Token) (n : Nat) :
    readAtom (n + 1) (p.tokens ++ entryIs key content ts) = some (.eq (.entry p.parts key) (.text content), ts) := by
  rw [readAtom_path, readComparison_entry]

/-- Two conditions with OR between them. -/
theorem readOr_or {n : Nat} {ts us vs : List Token} {p q : Cond} (hp : readAtom n ts = some (p, .word "OR" :: us))
    (hq : readOr n us = some (q, vs)) : readOr (n + 1) ts = some (.or p q, vs) := by
  rw [readOr, hp]
  simp [hq]

theorem readAtom_coalesce {n : Nat} {ts u : List Token} {p : Cond}
    (hp : readOr n ts = some (p, .symbol "," :: .word "false" :: .symbol ")" :: u)) :
    readAtom (n + 1) (.word "COALESCE" :: .symbol "(" :: ts) = some (.orFalse p, u) := by
  rw [readAtom]
  simp [hp]

theorem readAtom_paren {n : Nat} {ts us : List Token} {p : Cond} (hp : readOr n ts = some (p, .symbol ")" :: us)) :
    readAtom (n + 1) (.symbol "(" :: ts) = some (p, us) := by
  rw [readAtom]
  simp [hp]

/-- A condition that is all there is. -/
theorem parse_of_readAtom {ts : List Token} {p : Cond} {n : Nat} (hn : 2 * ts.length + 2 = n + 1)
    (hp : readAtom n ts = some (p, [])) : parse ts = some p := by
  rw [parse, hn, readOr, hp]
  rfl

end

end SqlCond
