import Mathlib

/-!
# Shell words

How a POSIX shell cuts a command line into words and operators: blanks separate, single quotes keep what is between them, a backslash
keeps the next character. A line with anything else that a shell may expand or take as an operator has no reading here, so a reading
is what every such shell does.
-/

namespace ShellWords

inductive Token where
  | word (cs : List Char)
  | redirect
  | andIf
  deriving DecidableEq, Repr

/-- Where the reader of a line is: between words, in a word, behind an opening quote or a backslash in it, or in an operator. -/
inductive Mode where
  | blank
  | word (cs : List Char)
  | quoted (cs : List Char)
  | escaped (cs : List Char)
  | redirect
  | amp
  | andIf
  deriving DecidableEq, Repr

/-- Characters that stand for themselves outside quotes. -/
def isLiteral (c : Char) : Bool := c.isAlphanum || c == '-' || c == '_' || c == '.' || c == '/' || c == ':' || c == ','

/-- The tokens so far, and where the reader is. -/
abbrev State := List Token × Mode

/-- One character of a line. -/
def step : State → Char → Option State
  | (ts, .blank), c =>
    if c = ' ' then some (ts, .blank) else if c = '\'' then some (ts, .quoted []) else if c = '\\' then some (ts, .escaped [])
    else if c = '>' then some (ts, .redirect) else if c = '&' then some (ts, .amp)
    else if isLiteral c then some (ts, .word [c]) else none
  | (ts, .word cs), c =>
    if c = ' ' then some (ts ++ [.word cs], .blank) else if c = '\'' then some (ts, .quoted cs)
    else if c = '\\' then some (ts, .escaped cs) else if isLiteral c then some (ts, .word (cs ++ [c])) else none
  | (ts, .quoted cs), c => if c = '\'' then some (ts, .word cs) else some (ts, .quoted (cs ++ [c]))
  | (ts, .escaped cs), c => if c = '\n' then none else some (ts, .word (cs ++ [c]))
  | (ts, .redirect), c => if c = ' ' then some (ts ++ [.redirect], .blank) else none
  | (ts, .amp), c => if c = '&' then some (ts, .andIf) else none
  | (ts, .andIf), c => if c = ' ' then some (ts ++ [.andIf], .blank) else none

def run (s : State) (cs : List Char) : Option State := cs.foldlM step s

/-- A line ends between words or behind one. -/
def finish : State → Option (List Token)
  | (ts, .blank) => some ts
  | (ts, .word cs) => some (ts ++ [.word cs])
  | _ => none

/-- The tokens of a line. -/
def tokens (line : List Char) : Option (List Token) := (run ([], .blank) line).bind finish

/-- What a quote is written as between quotes: it closes them, is escaped, and opens them again. -/
def quoteChar (c : Char) : List Char := if c = '\'' then ['\'', '\\', '\'', '\''] else [c]

/-- A text in single quotes. -/
def quote (cs : List Char) : List Char := '\'' :: (cs.flatMap quoteChar ++ ['\''])

theorem run_append (s : State) (cs ds : List Char) : run s (cs ++ ds) = (run s cs).bind fun s' => run s' ds := by
  rw [run, List.foldlM_append]
  rfl

theorem run_blank (ts : List Token) (cs : List Char) : run (ts, .word cs) [' '] = some (ts ++ [.word cs], .blank) := rfl

theorem run_redirect (ts : List Token) : run (ts, .blank) ['>', ' '] = some (ts ++ [.redirect], .blank) := rfl

theorem run_andIf (ts : List Token) : run (ts, .blank) ['&', '&', ' '] = some (ts ++ [.andIf], .blank) := rfl

/-- Literal characters go on with a word (induction on them). -/
theorem run_literal (ts : List Token) (word : List Char) {cs : List Char} (h : cs.all isLiteral = true) :
    run (ts, .word word) cs = some (ts, .word (word ++ cs)) := by
  induction cs generalizing word with
  | nil => simp [run]
  | cons c cs ih =>
    rw [List.all_cons, Bool.and_eq_true] at h
    have hne : ∀ d : Char, isLiteral d = false → c ≠ d := by
      rintro d hd rfl
      exact absurd h.1 (by rw [hd]; decide)
    have hstep : run (ts, .word word) [c] = some (ts, .word (word ++ [c])) := by
      simp [run, step, hne ' ' (by decide), hne '\'' (by decide), hne '\\' (by decide), h.1]
    rw [← List.singleton_append, run_append, hstep, Option.bind_some, ih _ h.2, List.append_assoc]

/-- A literal word. -/
theorem run_word (ts : List Token) {cs : List Char} (hne : cs ≠ []) (h : cs.all isLiteral = true) :
    run (ts, .blank) cs = some (ts, .word cs) := by
  cases cs with
  | nil => exact absurd rfl hne
  | cons c cs =>
    rw [List.all_cons, Bool.and_eq_true] at h
    have hne : ∀ d : Char, isLiteral d = false → c ≠ d := by
      rintro d hd rfl
      exact absurd h.1 (by rw [hd]; decide)
    have hstep : run (ts, .blank) [c] = some (ts, .word [c]) := by
      simp [run, step, hne ' ' (by decide), hne '\'' (by decide), hne '\\' (by decide), hne '>' (by decide), hne '&' (by decide), h.1]
    rw [← List.singleton_append, run_append, hstep, Option.bind_some, run_literal _ _ h.2]

theorem run_quoteChar (ts : List Token) (word : List Char) (c : Char) :
    run (ts, .quoted word) (quoteChar c) = some (ts, .quoted (word ++ [c])) := by
  by_cases hc : c = '\''
  · subst hc
    rfl
  · simp [quoteChar, hc, run, step]

/-- Between the quotes (induction on the text). -/
theorem run_quoted (ts : List Token) (word cs : List Char) :
    run (ts, .quoted word) (cs.flatMap quoteChar) = some (ts, .quoted (word ++ cs)) := by
  induction cs generalizing word with
  | nil => simp [run]
  | cons c cs ih => rw [List.flatMap_cons, run_append, run_quoteChar, Option.bind_some, ih, List.append_assoc, List.singleton_append]

/-- A quoted text is one word, character for character. -/
theorem run_quote (ts : List Token) (cs : List Char) : run (ts, .blank) (quote cs) = some (ts, .word cs) := by
  have hopen : run (ts, .blank) ['\''] = some (ts, .quoted []) := rfl
  have hclose : run (ts, .quoted cs) ['\''] = some (ts, .word cs) := rfl
  rw [quote, ← List.singleton_append, run_append, hopen, Option.bind_some, run_append, run_quoted, Option.bind_some, List.nil_append,
    hclose]

end ShellWords
