import Mathlib

/-!
# The lexical rules of SQL

A text is read into words, numbers, strings, quoted names and symbols; blanks and comments are passed over. A string is read up to
its closing quote, where two quotes stand for one. Prefixed and dollar-quoted strings and parameters differ between dialects: a text
with one of them is not read.

A text that is put together of pieces is read piece by piece (`Lexed`, `Frame`): a piece of plain characters is read the same alone
and before a blank, a comma or a parenthesis.
-/

namespace SqlLex

inductive Token where
  /-- A keyword or a name. -/
  | word (text : String)
  | number (text : String)
  /-- A string, with what it stands for. -/
  | string (content : String)
  /-- A name in double quotes. -/
  | quoted (content : String)
  | symbol (text : String)
  deriving DecidableEq, Repr

def isSpace (c : Char) : Bool := c ∈ [' ', '\t', '\n', '\r', '\x0b', '\x0c']

/-- What a word begins with. -/
def isLetter (c : Char) : Bool := c.isAlpha || c = '_' || 128 ≤ c.toNat

def isWordChar (c : Char) : Bool := isLetter c || c.isDigit || c = '$'

def isOperator (c : Char) : Bool :=
  c ∈ ['+', '-', '*', '/', '<', '>', '=', '~', '!', '@', '#', '%', '^', '&', '|', '`', '?']

/-- A symbol of its own. -/
def isMark (c : Char) : Bool := c ∈ ['(', ')', ',', '.', ';', ':', '[', ']']

def startsComment : List Char → Bool
  | '-' :: '-' :: _ => true
  | '/' :: '*' :: _ => true
  | _ => false

/-- What stands behind a comment; block comments are nested. -/
def skipBlock : Nat → List Char → Option (List Char)
  | depth, '/' :: '*' :: cs => skipBlock (depth + 1) cs
  | 0, '*' :: '/' :: cs => some cs
  | depth + 1, '*' :: '/' :: cs => skipBlock depth cs
  | depth, _ :: cs => skipBlock depth cs
  | _, [] => none

def skipComment : List Char → Option (List Char)
  | '-' :: cs => some (cs.dropWhile (· ≠ '\n'))
  | _ :: _ :: cs => skipBlock 0 cs
  | _ => none

/-- The text up to the closing quote, and what stands behind it. -/
def readQuoted (quote : Char) : List Char → Option (List Char × List Char)
  | [] => none
  | c :: cs =>
    if c = quote then
      match cs with
      | d :: ds => if d = quote then (readQuoted quote ds).map fun (content, rest) => (quote :: content, rest) else some ([], cs)
      | [] => some ([], [])
    else (readQuoted quote cs).map fun (content, rest) => (c :: content, rest)

/-- The fraction of a number; two dots are none. -/
def readFraction : List Char → List Char × List Char
  | '.' :: cs => if cs.head? = some '.' then ([], '.' :: cs) else ('.' :: cs.takeWhile Char.isDigit, cs.dropWhile Char.isDigit)
  | cs => ([], cs)

/-- The exponent of a number, which has a digit. -/
def readExponent : List Char → List Char × List Char
  | e :: s :: cs =>
    if e = 'e' || e = 'E' then
      if s.isDigit then (e :: s :: cs.takeWhile Char.isDigit, cs.dropWhile Char.isDigit)
      else if (s = '+' || s = '-') && cs.head?.any Char.isDigit then
        (e :: s :: cs.takeWhile Char.isDigit, cs.dropWhile Char.isDigit)
      else ([], e :: s :: cs)
    else ([], e :: s :: cs)
  | cs => ([], cs)

def readNumber (cs : List Char) : List Char × List Char :=
  let (fraction, rest) := readFraction (cs.dropWhile Char.isDigit)
  let (exponent, rest) := readExponent rest
  (cs.takeWhile Char.isDigit ++ fraction ++ exponent, rest)

/-- An operator: as many of its characters as there are, up to a comment. -/
def readOperator : List Char → List Char × List Char
  | [] => ([], [])
  | c :: cs =>
    if isOperator c && !startsComment (c :: cs) then
      let (operator, rest) := readOperator cs
      (c :: operator, rest)
    else ([], c :: cs)

/-- The next token, or none for a blank or a comment, and what stands behind it. -/
def step : List Char → Option (List Token × List Char)
  | [] => none
  | c :: cs =>
    if isSpace c then some ([], cs)
    else if c = '\'' then (readQuoted '\'' cs).map fun (content, rest) => ([.string (String.ofList content)], rest)
    else if c = '"' then (readQuoted '"' cs).map fun (content, rest) => ([.quoted (String.ofList content)], rest)
    else if startsComment (c :: cs) then (skipComment (c :: cs)).map fun rest => ([], rest)
    else if c.isDigit || (c = '.' && cs.head?.any Char.isDigit) then
      let (number, rest) := readNumber (c :: cs)
      some ([.number (String.ofList number)], rest)
    else if isLetter c then
      -- a word before a quote is the prefix of a string of another kind
      if (cs.dropWhile isWordChar).head? = some '\'' then none
      else some ([.word (String.ofList (c :: cs.takeWhile isWordChar))], cs.dropWhile isWordChar)
    else if isOperator c then
      let (operator, rest) := readOperator (c :: cs)
      some ([.symbol (String.ofList operator)], rest)
    else if isMark c then some ([.symbol (String.ofList [c])], cs)
    else none

/-- The tokens of a text that has at most so many characters. -/
def lexFuel : Nat → List Char → Option (List Token)
  | _, [] => some []
  | 0, _ :: _ => none
  | n + 1, c :: cs => do
    let (tokens, rest) ← step (c :: cs)
    let more ← lexFuel n rest
    pure (tokens ++ more)

/-- The tokens of a text. -/
def lex (text : String) : Option (List Token) := lexFuel text.toList.length text.toList

/-! ## Reading step by step -/

/-- From a text on the tokens are read, down to the rest. -/
inductive Reads : List Char → List Token → List Char → Prop
  | refl (cs : List Char) : Reads cs [] cs
  | next {consumed mid rest : List Char} {ts us : List Token} (hne : consumed ≠ [])
      (hstep : step (consumed ++ mid) = some (ts, mid)) (h : Reads mid us rest) : Reads (consumed ++ mid) (ts ++ us) rest

theorem Reads.trans {cs mid rest : List Char} {ts us : List Token} (h : Reads cs ts mid) (h' : Reads mid us rest) :
    Reads cs (ts ++ us) rest := by
  induction h with
  | refl => exact h'
  | next hne hstep _ ih =>
    rw [List.append_assoc]
    exact .next hne hstep (ih h')

/-- One step. -/
theorem Reads.one {consumed rest : List Char} {ts : List Token} (hne : consumed ≠ [])
    (hstep : step (consumed ++ rest) = some (ts, rest)) : Reads (consumed ++ rest) ts rest := by
  have h := Reads.next hne hstep (.refl rest)
  rwa [List.append_nil] at h

/-- What is read step by step is what the reader finds. -/
theorem Reads.lexFuel_eq {cs : List Char} {ts : List Token} (h : Reads cs ts []) {n : Nat} (hn : cs.length ≤ n) :
    lexFuel n cs = some ts := by
  generalize hrest : ([] : List Char) = rest at h
  induction h generalizing n with
  | refl =>
    subst hrest
    rw [lexFuel]
  | @next consumed mid rest ts us hne hstep _ ih =>
    obtain ⟨c, cs, rfl⟩ := List.exists_cons_of_ne_nil hne
    rw [List.length_append, List.length_cons] at hn
    obtain ⟨n, rfl⟩ := Nat.exists_eq_add_one_of_ne_zero (show n ≠ 0 by omega)
    rw [List.cons_append] at hstep ⊢
    rw [lexFuel, hstep]
    have hmore := ih (n := n) (by omega) hrest
    simp [hmore]

/-! ## Plain text -/

/-- What may stand behind a piece: a blank, a parenthesis, a bracket or a comma, or nothing. -/
def isDelimiter (c : Char) : Bool := c ∈ [' ', '\n', '(', ')', ',', '[', ']']

def Bounded (rest : List Char) : Prop := ∀ c ∈ rest.head?, isDelimiter c = true

/-- A character of which neither a string nor a comment is made. -/
def isPlain (c : Char) : Bool := isWordChar c || c ∈ [' ', '\n', '(', ')', ',', '[', ']', '.', '<', '>', '=', '*']

theorem bounded_nil : Bounded [] := fun _ h => nomatch h

theorem bounded_cons {c : Char} (h : isDelimiter c = true) (cs : List Char) : Bounded (c :: cs) := fun d hd => by
  cases hd
  exact h

theorem Bounded.append {cs ds : List Char} (h : Bounded cs) (h' : Bounded ds) : Bounded (cs ++ ds) := by
  cases cs with
  | nil => exact h'
  | cons c cs => exact h

/-- No delimiter continues a token. -/
theorem delimiter_cases {c : Char} (h : isDelimiter c = true) :
    c.isDigit = false ∧ isWordChar c = false ∧ isOperator c = false ∧ c ∉ ['\'', '"', '.', 'e', 'E', '+', '-', '*'] := by
  simp only [isDelimiter, List.mem_cons, List.not_mem_nil, or_false, decide_eq_true_eq] at h
  rcases h with rfl | rfl | rfl | rfl | rfl | rfl | rfl <;> decide

section

variable {p : Char → Bool} {w rest : List Char}

theorem takeWhile_append_of_head? (h : ∀ c ∈ rest.head?, p c = false) : (w ++ rest).takeWhile p = w.takeWhile p := by
  induction w with
  | nil =>
    cases rest with
    | nil => rfl
    | cons c rest => simp [h c rfl]
  | cons c w ih =>
    rw [List.cons_append, List.takeWhile_cons, List.takeWhile_cons, ih]

theorem dropWhile_append_of_head? (h : ∀ c ∈ rest.head?, p c = false) : (w ++ rest).dropWhile p = w.dropWhile p ++ rest := by
  induction w with
  | nil =>
    cases rest with
    | nil => rfl
    | cons c rest => simp [h c rfl]
  | cons c w ih =>
    rw [List.cons_append, List.dropWhile_cons, List.dropWhile_cons, ih]
    split <;> rfl

theorem readFraction_append (hrest : Bounded rest) (w : List Char) :
    readFraction (w ++ rest) = ((readFraction w).1, (readFraction w).2 ++ rest) := by
  have hdigit : ∀ c ∈ rest.head?, c.isDigit = false := fun c hc => (delimiter_cases (hrest c hc)).1
  have hdot : ∀ c ∈ rest.head?, c ≠ '.' := fun c hc heq => (delimiter_cases (hrest c hc)).2.2.2 (by simp [heq])
  cases w with
  | nil =>
    cases rest with
    | nil => rfl
    | cons c rest =>
      have hc := hdot c rfl
      rw [List.nil_append]
      unfold readFraction
      split
      · next heq => cases heq; exact absurd rfl hc
      · rfl
  | cons c w =>
    by_cases hc : c = '.'
    · subst hc
      have hhead : (w ++ rest).head? = some '.' ↔ w.head? = some '.' := by
        cases w with
        | nil => exact ⟨fun h => absurd rfl (hdot '.' h), nofun⟩
        | cons d w => exact Iff.rfl
      rw [List.cons_append]
      simp only [readFraction, hhead, takeWhile_append_of_head? hdigit, dropWhile_append_of_head? hdigit]
      split <;> rfl
    · rw [List.cons_append]
      unfold readFraction
      split
      · next heq => cases heq; exact absurd rfl hc
      · split
        · next heq => cases heq; exact absurd rfl hc
        · rfl

theorem readExponent_append (hrest : Bounded rest) (w : List Char) :
    readExponent (w ++ rest) = ((readExponent w).1, (readExponent w).2 ++ rest) := by
  have hdigit : ∀ c ∈ rest.head?, c.isDigit = false := fun c hc => (delimiter_cases (hrest c hc)).1
  have hmem : ∀ c ∈ rest.head?, c ∉ ['\'', '"', '.', 'e', 'E', '+', '-', '*'] := fun c hc => (delimiter_cases (hrest c hc)).2.2.2
  rcases w with _ | ⟨e, _ | ⟨s, w⟩⟩
  · rcases rest with _ | ⟨c, _ | ⟨d, rest⟩⟩
    · rfl
    · rfl
    · have hc := hmem c rfl
      simp only [List.mem_cons, not_or] at hc
      simp [readExponent, hc]
  · rcases rest with _ | ⟨d, rest⟩
    · rfl
    · have hd := hmem d rfl
      have hdigit := hdigit d rfl
      simp only [List.mem_cons, not_or] at hd
      simp [readExponent, hd, hdigit]
  · have hhead : (w ++ rest).head?.any Char.isDigit = w.head?.any Char.isDigit := by
      cases w with
      | nil =>
        cases rest with
        | nil => rfl
        | cons c rest => exact hdigit c rfl
      | cons d w => rfl
    rw [List.cons_append, List.cons_append]
    simp only [readExponent, hhead, takeWhile_append_of_head? hdigit, dropWhile_append_of_head? hdigit]
    split_ifs <;> rfl

theorem readNumber_append (hrest : Bounded rest) (w : List Char) :
    readNumber (w ++ rest) = ((readNumber w).1, (readNumber w).2 ++ rest) := by
  have hdigit : ∀ c ∈ rest.head?, c.isDigit = false := fun c hc => (delimiter_cases (hrest c hc)).1
  unfold readNumber
  rw [takeWhile_append_of_head? hdigit, dropWhile_append_of_head? hdigit, readFraction_append hrest]
  dsimp only
  rw [readExponent_append hrest]

theorem not_startsComment {c : Char} (hminus : c ≠ '-') (hslash : c ≠ '/') (cs : List Char) : startsComment (c :: cs) = false := by
  unfold startsComment
  split
  · next heq => cases heq; exact absurd rfl hminus
  · next heq => cases heq; exact absurd rfl hslash
  · rfl

theorem plain_cases {c : Char} (h : isPlain c = true) : c ≠ '-' ∧ c ≠ '/' ∧ c ≠ '\'' ∧ c ≠ '"' := by
  refine ⟨?_, ?_, ?_, ?_⟩ <;>
  · rintro rfl
    exact absurd h (by decide)

theorem readOperator_append (hrest : Bounded rest) (hplain : ∀ c ∈ w, isPlain c = true) :
    readOperator (w ++ rest) = ((readOperator w).1, (readOperator w).2 ++ rest) := by
  induction w with
  | nil =>
    cases rest with
    | nil => rfl
    | cons c rest => simp [readOperator, (delimiter_cases (hrest c rfl)).2.2.1]
  | cons c w ih =>
    obtain ⟨hminus, hslash, -, -⟩ := plain_cases (hplain c List.mem_cons_self)
    rw [List.cons_append, readOperator, readOperator, not_startsComment hminus hslash, not_startsComment hminus hslash,
      ih fun d hd => hplain d (List.mem_cons_of_mem _ hd)]
    split <;> rfl

/-! What a number and an operator take is the beginning of the text. -/

theorem readFraction_split (cs : List Char) : (readFraction cs).1 ++ (readFraction cs).2 = cs := by
  unfold readFraction
  split
  · split
    · rfl
    · rw [List.cons_append, List.takeWhile_append_dropWhile]
  · rfl

theorem readExponent_split (cs : List Char) : (readExponent cs).1 ++ (readExponent cs).2 = cs := by
  unfold readExponent
  split
  · split_ifs <;> simp [List.takeWhile_append_dropWhile]
  · rfl

theorem readNumber_split (cs : List Char) : (readNumber cs).1 ++ (readNumber cs).2 = cs := by
  unfold readNumber
  dsimp only
  rw [List.append_assoc, readExponent_split, List.append_assoc, readFraction_split, List.takeWhile_append_dropWhile]

theorem readOperator_split (cs : List Char) : (readOperator cs).1 ++ (readOperator cs).2 = cs := by
  induction cs with
  | nil => rfl
  | cons c cs ih =>
    unfold readOperator
    split
    · dsimp only
      rw [List.cons_append, ih]
    · rfl

theorem readNumber_ne_nil {c : Char} {cs : List Char} (h : (c.isDigit || (c = '.' && cs.head?.any Char.isDigit)) = true) :
    (readNumber (c :: cs)).1 ≠ [] := by
  unfold readNumber
  dsimp only
  cases hdigit : c.isDigit with
  | true => simp [hdigit]
  | false =>
    rw [hdigit] at h
    simp only [Bool.false_or, Bool.and_eq_true, decide_eq_true_eq] at h
    obtain ⟨rfl, hhead⟩ := h
    have hdot : cs.head? ≠ some '.' := by
      intro heq
      rw [heq] at hhead
      exact absurd hhead (by decide)
    simp [hdigit, readFraction, hdot]

/-- A piece of plain characters is read the same before a delimiter. -/
theorem step_append (hrest : Bounded rest) (hplain : ∀ c ∈ w, isPlain c = true) {ts : List Token} {m : List Char}
    (h : step w = some (ts, m)) : ∃ consumed, consumed ≠ [] ∧ w = consumed ++ m ∧ step (w ++ rest) = some (ts, m ++ rest) := by
  cases w with
  | nil => nomatch h
  | cons c w =>
    obtain ⟨hminus, hslash, hquote, hdouble⟩ := plain_cases (hplain c List.mem_cons_self)
    have hhead : (w ++ rest).head?.any Char.isDigit = w.head?.any Char.isDigit := by
      cases w with
      | nil =>
        cases rest with
        | nil => rfl
        | cons d rest => exact (delimiter_cases (hrest d rfl)).1
      | cons d w => rfl
    have hword : ∀ d ∈ rest.head?, isWordChar d = false := fun d hd => (delimiter_cases (hrest d hd)).2.1
    rw [List.cons_append]
    unfold step at h ⊢
    simp only [if_neg hquote, if_neg hdouble, not_startsComment hminus hslash, Bool.false_eq_true, if_false, hhead] at h ⊢
    split at h
    · next hspace =>
      cases h
      exact ⟨[c], List.cons_ne_nil _ _, rfl, if_pos hspace⟩
    · next hspace =>
      rw [if_neg hspace]
      split at h
      · next hnumber =>
        cases h
        refine ⟨_, readNumber_ne_nil hnumber, (readNumber_split _).symm, ?_⟩
        rw [if_pos hnumber, ← List.cons_append, readNumber_append hrest]
      · next hnumber =>
        rw [if_neg hnumber]
        split at h
        · next hletter =>
          split at h
          · nomatch h
          · next hprefix =>
            cases h
            refine ⟨c :: w.takeWhile isWordChar, List.cons_ne_nil _ _, ?_, ?_⟩
            · rw [List.cons_append, List.takeWhile_append_dropWhile]
            · have hnext : (w.dropWhile isWordChar ++ rest).head? ≠ some '\'' := by
                cases hdrop : w.dropWhile isWordChar with
                | nil =>
                  intro heq
                  exact (delimiter_cases (hrest _ heq)).2.2.2 (by simp)
                | cons d ds => rwa [hdrop] at hprefix
              rw [if_pos hletter, dropWhile_append_of_head? hword, takeWhile_append_of_head? hword, if_neg hnext]
        · next hletter =>
          rw [if_neg hletter]
          split at h
          · next hoperator =>
            cases h
            refine ⟨(readOperator (c :: w)).1, ?_, (readOperator_split _).symm, ?_⟩
            · simp [readOperator, hoperator, not_startsComment hminus hslash]
            · rw [if_pos hoperator, ← List.cons_append, readOperator_append hrest hplain]
          · next hoperator =>
            split at h
            · next hmark =>
              cases h
              exact ⟨[c], List.cons_ne_nil _ _, rfl, by rw [if_neg hoperator, if_pos hmark]⟩
            · nomatch h

/-- So is a whole piece (induction on what is read). -/
theorem reads_of_lexFuel (hrest : Bounded rest) {n : Nat} {ts : List Token} (hplain : ∀ c ∈ w, isPlain c = true)
    (h : lexFuel n w = some ts) : Reads (w ++ rest) ts rest := by
  induction n generalizing w ts with
  | zero =>
    cases w with
    | nil =>
      cases h
      exact .refl rest
    | cons c w => nomatch h
  | succ n ih =>
    cases w with
    | nil =>
      cases h
      exact .refl rest
    | cons c w =>
      rw [lexFuel] at h
      obtain ⟨⟨us, m⟩, hstep, h⟩ := Option.bind_eq_some_iff.mp h
      obtain ⟨more, hmore, h⟩ := Option.bind_eq_some_iff.mp h
      cases h
      obtain ⟨consumed, hne, hsplit, hstep'⟩ := step_append hrest hplain hstep
      rw [hsplit] at hplain hstep' ⊢
      rw [List.append_assoc] at hstep' ⊢
      exact .next hne hstep' (ih (fun d hd => hplain d (List.mem_append_right _ hd)) hmore)

end

/-! ## Pieces of a text -/

/-- The piece has these tokens wherever it stands before a delimiter. -/
def Lexed (text : String) (ts : List Token) : Prop := ∀ rest, Bounded rest → Reads (text.toList ++ rest) ts rest

/-- The piece has these tokens wherever it stands. -/
def Frame (text : String) (ts : List Token) : Prop := ∀ rest, Reads (text.toList ++ rest) ts rest

section

variable {a b : String} {ts us : List Token}

theorem Frame.lexed (h : Frame a ts) : Lexed a ts := fun rest _ => h rest

theorem Lexed.lex_eq (h : Lexed a ts) : lex a = some ts := by
  have hreads := h [] bounded_nil
  rw [List.append_nil] at hreads
  exact hreads.lexFuel_eq (le_refl _)

theorem Lexed.of_lex (hplain : a.toList.all isPlain = true) (h : lex a = some ts) : Lexed a ts :=
  fun _ hrest => reads_of_lexFuel hrest (List.all_eq_true.mp hplain) h

theorem Frame.append (h : Frame a ts) (h' : Frame b us) : Frame (a ++ b) (ts ++ us) := fun rest => by
  rw [String.toList_append, List.append_assoc]
  exact (h _).trans (h' rest)

theorem Frame.lexed_append (h : Frame a ts) (h' : Lexed b us) : Lexed (a ++ b) (ts ++ us) := fun rest hrest => by
  rw [String.toList_append, List.append_assoc]
  exact (h _).trans (h' rest hrest)

theorem Lexed.append (h : Lexed a ts) (h' : Lexed b us) (hb : Bounded b.toList) : Lexed (a ++ b) (ts ++ us) := fun rest hrest => by
  rw [String.toList_append, List.append_assoc]
  exact (h _ (hb.append hrest)).trans (h' rest hrest)

theorem Lexed.frame_append (h : Lexed a ts) (h' : Frame b us) (hb : b.toList.head?.any isDelimiter = true) :
    Frame (a ++ b) (ts ++ us) := fun rest => by
  rw [String.toList_append, List.append_assoc]
  refine (h _ ?_).trans (h' rest)
  cases hlist : b.toList with
  | nil =>
    rw [hlist] at hb
    nomatch hb
  | cons c cs =>
    rw [hlist] at hb
    exact bounded_cons hb _

theorem frame_empty : Frame "" [] := fun rest => .refl rest

theorem lexed_empty : Lexed "" [] := frame_empty.lexed

/-- The token of a delimiter. -/
def delimiterTokens (c : Char) : List Token := if isSpace c then [] else [.symbol (String.ofList [c])]

/-- The tokens of plain text that ends in a delimiter. -/
def frameTokens (cs : List Char) : Option (List Token) :=
  match cs.getLast? with
  | none => none
  | some c =>
    if isDelimiter c && cs.all isPlain then (lexFuel cs.length cs.dropLast).map (· ++ delimiterTokens c) else none

theorem Frame.of_tokens (h : frameTokens a.toList = some ts) : Frame a ts := fun rest => by
  unfold frameTokens at h
  split at h
  · nomatch h
  · next c hlast =>
    split at h
    · next hcond =>
      obtain ⟨hdelimiter, hplain⟩ := Bool.and_eq_true_iff.mp hcond
      obtain ⟨us, hlex, rfl⟩ := Option.map_eq_some_iff.mp h
      have hsplit : a.toList = a.toList.dropLast ++ [c] := (List.dropLast_append_getLast? c hlast).symm
      have hstep : Reads ([c] ++ rest) (delimiterTokens c) rest := by
        refine .one (List.cons_ne_nil _ _) ?_
        simp only [isDelimiter, List.mem_cons, List.not_mem_nil, or_false, decide_eq_true_eq] at hdelimiter
        rcases hdelimiter with rfl | rfl | rfl | rfl | rfl | rfl | rfl <;> rfl
      rw [hsplit, List.append_assoc]
      refine Reads.trans (reads_of_lexFuel (bounded_cons hdelimiter rest) (fun d hd => ?_) hlex) hstep
      exact List.all_eq_true.mp hplain d (List.mem_of_mem_dropLast hd)
    · nomatch h

/-- Pieces with a frame between them. -/
theorem Lexed.intercalate {sep : String} {us : List Token} (hsep : Frame sep us) (hb : sep.toList.head?.any isDelimiter = true)
    {α : Type*} (text : α → String) (tokens : α → List Token) (items : List α) (h : ∀ x ∈ items, Lexed (text x) (tokens x)) :
    Lexed (sep.intercalate (items.map text)) (us.intercalate (items.map tokens)) := by
  induction items with
  | nil => exact lexed_empty
  | cons x items ih =>
    cases items with
    | nil =>
      rw [List.map_singleton, List.map_singleton, String.intercalate_singleton, List.intercalate_singleton]
      exact h x List.mem_cons_self
    | cons y items =>
      have hrest := ih fun z hz => h z (List.mem_cons_of_mem _ hz)
      have hx := (h x List.mem_cons_self).frame_append hsep hb
      simp only [List.map_cons] at hrest ⊢
      rw [String.intercalate_cons_of_ne_nil (List.cons_ne_nil _ _), List.intercalate_cons_of_ne_nil (List.cons_ne_nil _ _)]
      exact hx.lexed_append hrest

/-! ## Names, numbers and strings -/

/-- A character of a name with dots. -/
def isNameChar (c : Char) : Bool := isLetter c || c.isDigit || c = '.'

theorem name_cases {c : Char} (h : isNameChar c = true) :
    isSpace c = false ∧ isPlain c = true ∧ c ≠ '\'' ∧ c ≠ '"' ∧ c ≠ '-' ∧ c ≠ '/' := by
  refine ⟨?_, ?_, ?_, ?_, ?_, ?_⟩
  · by_contra hspace
    simp only [isSpace, Bool.not_eq_false, List.mem_cons, List.not_mem_nil, or_false, decide_eq_true_eq] at hspace
    rcases hspace with rfl | rfl | rfl | rfl | rfl | rfl <;> exact absurd h (by decide)
  · simp only [isNameChar, Bool.or_eq_true, decide_eq_true_eq] at h
    rcases h with (hletter | hdigit) | rfl
    · simp [isPlain, isWordChar, hletter]
    · simp [isPlain, isWordChar, hdigit]
    · decide
  all_goals
    rintro rfl
    exact absurd h (by decide)

/-- What a name consists of. -/
def Token.OfName : Token → Prop
  | .word _ => True
  | .number _ => True
  | .symbol text => text = "."
  | _ => False

theorem step_name {c : Char} {cs : List Char} (h : ∀ d ∈ c :: cs, isNameChar d = true) :
    ∃ t m consumed, step (c :: cs) = some ([t], m) ∧ t.OfName ∧ consumed ≠ [] ∧ c :: cs = consumed ++ m := by
  obtain ⟨hspace, hplain, hquote, hdouble, hminus, hslash⟩ := name_cases (h c List.mem_cons_self)
  have hsome : ∃ t m, step (c :: cs) = some ([t], m) ∧ t.OfName := by
    unfold step
    simp only [hspace, if_neg hquote, if_neg hdouble, not_startsComment hminus hslash, Bool.false_eq_true, if_false]
    split
    · exact ⟨_, _, rfl, trivial⟩
    · next hnumber =>
      split
      · next hletter =>
        have hnext : (cs.dropWhile isWordChar).head? ≠ some '\'' := by
          intro hhead
          have hmem := (List.dropWhile_sublist isWordChar).subset (List.mem_of_mem_head? hhead)
          exact (name_cases (h _ (List.mem_cons_of_mem _ hmem))).2.2.1 rfl
        rw [if_neg hnext]
        exact ⟨_, _, rfl, trivial⟩
      · next hletter =>
        have hdot : c = '.' := by
          have hname := h c List.mem_cons_self
          simp only [isNameChar, Bool.or_eq_true, decide_eq_true_eq] at hname
          rcases hname with (hletter' | hdigit) | hdot
          · exact absurd hletter' hletter
          · simp [hdigit] at hnumber
          · exact hdot
        subst hdot
        exact ⟨_, _, rfl, rfl⟩
  obtain ⟨t, m, hstep, ht⟩ := hsome
  obtain ⟨consumed, hne, hsplit, -⟩ := step_append bounded_nil (fun d hd => (name_cases (h d hd)).2.1) hstep
  exact ⟨t, m, consumed, hstep, ht, hne, hsplit⟩

theorem lexFuel_name {n : Nat} {cs : List Char} (hn : cs.length ≤ n) (h : ∀ c ∈ cs, isNameChar c = true) :
    ∃ ts, lexFuel n cs = some ts ∧ ∀ t ∈ ts, t.OfName := by
  induction n generalizing cs with
  | zero =>
    obtain rfl := List.eq_nil_of_length_eq_zero (Nat.le_zero.mp hn)
    exact ⟨[], rfl, fun t ht => absurd ht List.not_mem_nil⟩
  | succ n ih =>
    cases cs with
    | nil => exact ⟨[], rfl, fun t ht => absurd ht List.not_mem_nil⟩
    | cons c cs =>
      obtain ⟨t, m, consumed, hstep, ht, hne, hsplit⟩ := step_name h
      have hlength := congrArg List.length hsplit
      have hpos := List.length_pos_of_ne_nil hne
      rw [List.length_append] at hlength
      have hm : m.length ≤ n := by omega
      obtain ⟨ts, hts, hall⟩ := ih hm fun d hd => h d (hsplit ▸ List.mem_append_right _ hd)
      refine ⟨t :: ts, ?_, List.forall_mem_cons.mpr ⟨ht, hall⟩⟩
      rw [lexFuel, hstep]
      simp [hts]

/-- The tokens of a name. -/
def nameTokens (name : String) : List Token := (lex name).getD []

/-- A name consists of words, numbers and dots. -/
theorem lexed_name {name : String} (h : ∀ c ∈ name.toList, isNameChar c = true) :
    Lexed name (nameTokens name) ∧ ∀ t ∈ nameTokens name, t.OfName := by
  obtain ⟨ts, hlex, hall⟩ := lexFuel_name (le_refl _) h
  have htokens : nameTokens name = ts := by
    rw [nameTokens, lex, hlex]
    rfl
  rw [htokens]
  exact ⟨.of_lex (List.all_eq_true.mpr fun c hc => (name_cases (h c hc)).2.1) hlex, hall⟩

/-- A number without a sign and an exponent. -/
def Decimal (cs : List Char) : Prop :=
  ∃ whole, whole ≠ [] ∧ (∀ c ∈ whole, c.isDigit = true) ∧
    (cs = whole ∨ ∃ fraction, (∀ c ∈ fraction, c.isDigit = true) ∧ cs = whole ++ '.' :: fraction)

theorem digit_cases {c : Char} (h : c.isDigit = true) : isPlain c = true ∧ isOperator c = false ∧ c ≠ '.' := by
  refine ⟨by simp [isPlain, isWordChar, h], ?_, ?_⟩
  · by_contra hoperator
    simp only [isOperator, Bool.not_eq_false, List.mem_cons, List.not_mem_nil, or_false, decide_eq_true_eq] at hoperator
    rcases hoperator with rfl | rfl | rfl | rfl | rfl | rfl | rfl | rfl | rfl | rfl | rfl | rfl | rfl | rfl | rfl | rfl | rfl <;>
      exact absurd h (by decide)
  · rintro rfl
    exact absurd h (by decide)

theorem readNumber_decimal {cs : List Char} (h : Decimal cs) : readNumber cs = (cs, []) := by
  obtain ⟨whole, -, hwhole, rfl | ⟨fraction, hfraction, rfl⟩⟩ := h
  · unfold readNumber
    rw [List.takeWhile_eq_self_iff.mpr hwhole, List.dropWhile_eq_nil_iff.mpr hwhole]
    simp [readFraction, readExponent]
  · have htake : (whole ++ '.' :: fraction).takeWhile Char.isDigit = whole := by
      rw [List.takeWhile_append_of_pos hwhole]
      simp
    have hdrop : (whole ++ '.' :: fraction).dropWhile Char.isDigit = '.' :: fraction := by
      rw [List.dropWhile_append_of_pos hwhole]
      simp
    have hhead : fraction.head? ≠ some '.' := fun hhead =>
      (digit_cases (hfraction _ (List.mem_of_mem_head? hhead))).2.2 rfl
    unfold readNumber
    rw [htake, hdrop]
    simp only [readFraction, if_neg hhead, List.takeWhile_eq_self_iff.mpr hfraction, List.dropWhile_eq_nil_iff.mpr hfraction]
    simp [readExponent]

/-- A number is one token. -/
theorem lexed_decimal {text : String} (h : Decimal text.toList) : Lexed text [.number text] := by
  have hnumber := readNumber_decimal h
  obtain ⟨whole, hne, hwhole, hcases⟩ := h
  obtain ⟨c, whole, rfl⟩ := List.exists_cons_of_ne_nil hne
  have hdigit := hwhole c List.mem_cons_self
  obtain ⟨cs, hcs⟩ : ∃ cs, text.toList = c :: cs := by
    rcases hcases with hcs | ⟨fraction, -, hcs⟩
    · exact ⟨_, hcs⟩
    · exact ⟨_, hcs⟩
  have hname : isNameChar c = true := by simp [isNameChar, hdigit]
  obtain ⟨hspace, -, hquote, hdouble, hminus, hslash⟩ := name_cases hname
  refine .of_lex (List.all_eq_true.mpr fun d hd => ?_) ?_
  · rcases hcases with heq | ⟨fraction, hfraction, heq⟩
    · exact (digit_cases (hwhole d (heq ▸ hd))).1
    · rw [heq] at hd
      rcases List.mem_append.mp hd with hd | hd
      · exact (digit_cases (hwhole d hd)).1
      · rcases List.mem_cons.mp hd with rfl | hd
        · decide
        · exact (digit_cases (hfraction d hd)).1
  · have hstep : step text.toList = some ([.number text], []) := by
      rw [hcs] at hnumber ⊢
      unfold step
      simp only [hspace, if_neg hquote, if_neg hdouble, not_startsComment hminus hslash, hdigit, Bool.true_or, Bool.false_eq_true,
        if_false, if_true, hnumber]
      rw [← hcs, String.ofList_toList]
    have hlength : text.toList.length = cs.length + 1 := by rw [hcs, List.length_cons]
    rw [lex, hlength]
    rw [hcs] at hstep ⊢
    rw [lexFuel, hstep]
    simp [lexFuel]

/-- The sign of a number is a token of its own. -/
theorem lexed_minus {text : String} {ts : List Token} (h : Lexed text ts) (hdigit : text.toList.head?.any Char.isDigit = true) :
    Lexed ("-" ++ text) (.symbol "-" :: ts) := fun rest hrest => by
  have htext := h rest hrest
  rw [String.toList_append, List.append_assoc]
  suffices hminus : step ("-".toList ++ (text.toList ++ rest)) = some ([.symbol "-"], text.toList ++ rest) from
    (Reads.one (by decide) hminus).trans htext
  cases hcs : text.toList with
  | nil =>
    rw [hcs] at hdigit
    nomatch hdigit
  | cons c cs =>
    rw [hcs] at hdigit
    obtain ⟨-, hoperator, -⟩ := digit_cases (show c.isDigit = true from hdigit)
    have hminus : c ≠ '-' := by
      rintro rfl
      exact absurd hoperator (by decide)
    have hcomment : startsComment ('-' :: c :: (cs ++ rest)) = false := by
      unfold startsComment
      split
      · next heq => cases heq; exact absurd rfl hminus
      · next heq => cases heq
      · rfl
    have hread : readOperator ('-' :: c :: (cs ++ rest)) = (['-'], c :: (cs ++ rest)) := by
      have hop : isOperator '-' = true := by decide
      simp [readOperator, hop, hcomment, hoperator]
    change step ('-' :: c :: (cs ++ rest)) = some ([.symbol "-"], c :: (cs ++ rest))
    rw [step, if_neg (by decide), if_neg (by decide), if_neg (by decide), if_neg (Bool.eq_false_iff.mp hcomment), if_neg (by simp),
      if_neg (by decide), if_pos (by decide), hread]

/-- A text with its quotes doubled. -/
def doubleQuotes (quote : Char) (cs : List Char) : List Char := cs.flatMap fun c => if c = quote then [quote, quote] else [c]

theorem readQuoted_doubleQuotes {quote : Char} {rest : List Char} (hrest : rest.head? ≠ some quote) (cs : List Char) :
    readQuoted quote (doubleQuotes quote cs ++ quote :: rest) = some (cs, rest) := by
  induction cs with
  | nil =>
    rw [doubleQuotes, List.flatMap_nil, List.nil_append]
    unfold readQuoted
    rw [if_pos rfl]
    cases rest with
    | nil => rfl
    | cons d ds => exact if_neg fun heq => hrest (congrArg some heq)
  | cons c cs ih =>
    rw [doubleQuotes, List.flatMap_cons, List.append_assoc]
    by_cases hc : c = quote
    · subst hc
      rw [if_pos rfl, List.cons_append, List.cons_append, List.nil_append]
      unfold readQuoted
      rw [if_pos rfl]
      dsimp only
      rw [if_pos rfl]
      exact congrArg (Option.map _) ih
    · rw [if_neg hc, List.cons_append, List.nil_append]
      unfold readQuoted
      rw [if_neg hc]
      exact congrArg (Option.map _) ih

/-- A string stands for its text, whatever stands behind it, another string apart. -/
theorem reads_string (content : String) {rest : List Char} (hnext : rest.head? ≠ some '\'') :
    Reads (("'" ++ String.ofList (doubleQuotes '\'' content.toList) ++ "'").toList ++ rest) [.string content] rest := by
  refine .one (by simp) ?_
  have hread := readQuoted_doubleQuotes hnext content.toList
  have hlist : ("'" ++ String.ofList (doubleQuotes '\'' content.toList) ++ "'").toList ++ rest =
      '\'' :: (doubleQuotes '\'' content.toList ++ '\'' :: rest) := by simp
  rw [hlist, step, if_neg (by decide), if_pos rfl, hread, Option.map_some]
  dsimp only
  rw [String.ofList_toList]

theorem lexed_string (content : String) :
    Lexed ("'" ++ String.ofList (doubleQuotes '\'' content.toList) ++ "'") [.string content] := fun _ hrest =>
  reads_string content fun heq => (delimiter_cases (hrest _ heq)).2.2.2 (by simp)

/-! ## Words -/

theorem letter_cases {c : Char} (h : isLetter c = true) :
    isSpace c = false ∧ isPlain c = true ∧ c ≠ '\'' ∧ c ≠ '"' ∧ c ≠ '-' ∧ c ≠ '/' ∧ c ≠ '.' ∧ c.isDigit = false := by
  obtain ⟨hspace, hplain, hquote, hdouble, hminus, hslash⟩ := name_cases (show isNameChar c = true by simp [isNameChar, h])
  refine ⟨hspace, hplain, hquote, hdouble, hminus, hslash, ?_, ?_⟩
  · rintro rfl
    exact absurd h (by decide)
  · simp only [isLetter, Char.isAlpha, Char.isUpper, Char.isLower, Bool.or_eq_true, Bool.and_eq_true, decide_eq_true_eq] at h
    simp only [Char.isDigit, Bool.and_eq_false_iff, decide_eq_false_iff_not, UInt32.not_le]
    rcases h with ((h | h) | rfl) | h
    · exact Or.inr (UInt32.lt_of_lt_of_le (by decide) h.1)
    · exact Or.inr (UInt32.lt_of_lt_of_le (by decide) h.1)
    · decide
    · exact Or.inr (UInt32.lt_iff_toNat_lt.mpr (Nat.lt_of_lt_of_le (by decide) h))

/-- A word begins with a letter and has only letters, digits, underscores and dollar signs. -/
def isWord (text : String) : Bool := text.toList.head?.any isLetter && text.toList.all isWordChar

/-- A word is one token, whatever stands behind it that neither continues it nor opens a string. -/
theorem reads_word {word : String} (h : isWord word = true) {rest : List Char}
    (hrest : ∀ d ∈ rest.head?, isWordChar d = false ∧ d ≠ '\'') : Reads (word.toList ++ rest) [.word word] rest := by
  obtain ⟨hhead, hall⟩ := Bool.and_eq_true_iff.mp h
  cases hword : word.toList with
  | nil =>
    rw [hword] at hhead
    nomatch hhead
  | cons c cs =>
    rw [hword] at hhead hall
    have hletter : isLetter c = true := hhead
    obtain ⟨hspace, -, hquote, hdouble, hminus, hslash, hdot, hdigit⟩ := letter_cases hletter
    have hcs : ∀ d ∈ cs, isWordChar d = true := fun d hd => List.all_eq_true.mp hall d (List.mem_cons_of_mem _ hd)
    have htake : (cs ++ rest).takeWhile isWordChar = cs := by
      rw [takeWhile_append_of_head? fun d hd => (hrest d hd).1, List.takeWhile_eq_self_iff.mpr hcs]
    have hdrop : (cs ++ rest).dropWhile isWordChar = rest := by
      rw [dropWhile_append_of_head? fun d hd => (hrest d hd).1, List.dropWhile_eq_nil_iff.mpr hcs, List.nil_append]
    refine .one (List.cons_ne_nil _ _) ?_
    rw [List.cons_append, step, if_neg (Bool.eq_false_iff.mp hspace), if_neg hquote, if_neg hdouble,
      if_neg (Bool.eq_false_iff.mp (not_startsComment hminus hslash _)), if_neg (by simp [hdigit, hdot]), if_pos hletter, hdrop, htake,
      if_neg fun heq : rest.head? = some '\'' => (hrest _ heq).2 rfl, ← hword, String.ofList_toList]

/-- A dot before a word is a token of its own. -/
theorem reads_dot {rest : List Char} (hrest : rest.head?.any isLetter = true) : Reads ('.' :: rest) [.symbol "."] rest := by
  change Reads (['.'] ++ rest) [.symbol "."] rest
  refine .one (List.cons_ne_nil _ _) ?_
  cases rest with
  | nil => nomatch hrest
  | cons c rest =>
    have hdigit : c.isDigit = false := (letter_cases hrest).2.2.2.2.2.2.2
    rw [List.singleton_append, step, if_neg (by decide), if_neg (by decide), if_neg (by decide),
      if_neg (Bool.eq_false_iff.mp (not_startsComment (by decide) (by decide) _)), if_neg (by simp [hdigit]), if_neg (by decide), if_neg (by decide), if_pos (by decide)]

/-- The tokens of a name with dots. -/
def pathTokens (parts : List String) : List Token := [.symbol "."].intercalate (parts.map fun part => [.word part])

/-- A name with dots is read as its words. -/
theorem lexed_path {parts : List String} (h : ∀ part ∈ parts, isWord part = true) : Lexed (".".intercalate parts) (pathTokens parts) := by
  induction parts with
  | nil => exact lexed_empty
  | cons part parts ih =>
    have hpart := h part List.mem_cons_self
    cases parts with
    | nil =>
      rw [String.intercalate_singleton]
      exact fun rest hrest => reads_word hpart fun d hd => ⟨(delimiter_cases (hrest d hd)).2.1, fun heq =>
        (delimiter_cases (hrest d hd)).2.2.2 (by simp [heq])⟩
    | cons next parts =>
      intro rest hrest
      have hmore := ih (fun other hother => h other (List.mem_cons_of_mem _ hother)) rest hrest
      have hnext : ((".".intercalate (next :: parts)).toList ++ rest).head?.any isLetter = true := by
        obtain ⟨c, cs, hcs⟩ : ∃ c cs, next.toList = c :: cs := by
          cases hlist : next.toList with
          | nil => exact absurd (h next (by simp)) (by simp [isWord, hlist])
          | cons c cs => exact ⟨c, cs, rfl⟩
        have hletter : isLetter c = true := by
          have := (Bool.and_eq_true_iff.mp (h next (by simp))).1
          rwa [hcs] at this
        obtain ⟨ds, hds⟩ : ∃ ds, (".".intercalate (next :: parts)).toList = next.toList ++ ds := by
          cases parts with
          | nil => exact ⟨[], by simp⟩
          | cons other parts =>
            rw [String.intercalate_cons_of_ne_nil (List.cons_ne_nil _ _)]
            exact ⟨_, by rw [String.append_assoc, String.toList_append]⟩
        rw [hds, hcs]
        exact hletter
      rw [String.intercalate_cons_of_ne_nil (List.cons_ne_nil _ _), String.toList_append, String.toList_append, List.append_assoc,
        List.append_assoc]
      have hword : Reads (part.toList ++ ('.' :: ((".".intercalate (next :: parts)).toList ++ rest))) [.word part] _ :=
        reads_word hpart fun d hd => by cases hd; decide
      exact hword.trans ((reads_dot hnext).trans hmore)

end

end SqlLex
