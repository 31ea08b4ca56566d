import Tumult.Query.Cypher

/-!
# What the Cypher guard misses

The guard finds exactly the mutating keywords of the reading that takes comments for ordinary text (`scanMutation_isSome`). A quote
in a comment opens a string there and not in openCypher, and everything up to the next quote is then lost on the guard. Where no
comment holds a quote the two readings agree on what is in the open, and the guard has no false negatives.
-/

namespace Tumult

variable {isAlphanumeric : Char → Bool}

/-- The mode of the reading that the scan is in. -/
def scanMode : Option Char → CypherMode
  | none => .code
  | some q => .quoted q

theorem flush_isSome {token : List Char} : (flush token).isSome = isMutating token := by
  unfold flush
  split <;> simp_all

/-- A flushed token is a keyword. -/
theorem flush_eq_some {token : List Char} {hit : String} (h : flush token = some hit) : isMutating token = true := by
  rw [← flush_isSome, h, Option.isSome_some]

theorem flush_eq_none {token : List Char} (h : flush token = none) : isMutating token = false := by
  rw [← flush_isSome, h, Option.isSome_none]

section Reading

variable {w cs : List Char} {c : Char}

theorem wordsFrom_code_word (hw : isWordChar isAlphanumeric c = true) :
    commentsAsText.wordsFrom (isWordChar isAlphanumeric) .code w (c :: cs) =
      commentsAsText.wordsFrom (isWordChar isAlphanumeric) .code (w ++ [c]) cs := by
  have hq : isQuote c = false := by
    unfold isWordChar at hw
    simpa using (Bool.and_eq_true_iff.mp hw).1
  simp [Lex.Modes.wordsFrom, commentsAsText, hw, hq]

theorem wordsFrom_code_other (hw : isWordChar isAlphanumeric c = false) :
    commentsAsText.wordsFrom (isWordChar isAlphanumeric) .code w (c :: cs) =
      w :: commentsAsText.wordsFrom (isWordChar isAlphanumeric) (if isQuote c then .quoted c else .code) [] cs := by
  simp [Lex.Modes.wordsFrom, commentsAsText, hw]

theorem wordsFrom_quoted {q : Char} :
    commentsAsText.wordsFrom (isWordChar isAlphanumeric) (.quoted q) w (c :: cs) =
      commentsAsText.wordsFrom (isWordChar isAlphanumeric) (.ofQuoted q c) w cs := by
  simp [Lex.Modes.wordsFrom, commentsAsText]

theorem wordsFrom_escaped {q : Char} :
    commentsAsText.wordsFrom (isWordChar isAlphanumeric) (.escaped q) w (c :: cs) =
      commentsAsText.wordsFrom (isWordChar isAlphanumeric) (.quoted q) w cs := by
  simp [Lex.Modes.wordsFrom, commentsAsText]

end Reading

/-- The scan finds a keyword when a word of the reading is one. -/
theorem scanMutation_isSome (q : Option Char) (token cs : List Char) :
    (scanMutation isAlphanumeric q token cs).isSome = true ↔
      ∃ w ∈ commentsAsText.wordsFrom (isWordChar isAlphanumeric) (scanMode q) token cs, isMutating w = true := by
  fun_induction scanMutation isAlphanumeric q token cs with
  | case1 q token => simp [Lex.Modes.wordsFrom, flush_isSome]
  | case2 q token c hesc =>
    rw [scanMode, wordsFrom_quoted, CypherMode.ofQuoted, if_pos hesc]
    simp [Lex.Modes.wordsFrom, flush_isSome]
  | case3 q token c hesc next rest ih => rwa [scanMode, wordsFrom_quoted, CypherMode.ofQuoted, if_pos hesc, wordsFrom_escaped]
  | case4 token c rest hesc ih => rwa [scanMode, wordsFrom_quoted, CypherMode.ofQuoted, if_neg hesc, if_pos rfl]
  | case5 q token c rest hesc hclose ih => rwa [scanMode, wordsFrom_quoted, CypherMode.ofQuoted, if_neg hesc, if_neg hclose]
  | case6 token c rest hquote hit hflush =>
    rw [scanMode, wordsFrom_code_other (by simp [isWordChar, hquote])]
    simp [flush_eq_some hflush]
  | case7 token c rest hquote hflush ih =>
    rw [scanMode, wordsFrom_code_other (by simp [isWordChar, hquote]), if_pos hquote]
    simp only [List.mem_cons, exists_eq_or_imp, flush_eq_none hflush, Bool.false_eq_true, false_or]
    exact ih
  | case8 token c rest hquote hword ih =>
    rwa [scanMode, wordsFrom_code_word (by simpa [isWordChar, hquote] using hword)]
  | case9 token c rest hquote hword hit hflush =>
    rw [scanMode, wordsFrom_code_other (by simpa [isWordChar, hquote] using hword)]
    simp [flush_eq_some hflush]
  | case10 token c rest hquote hword hflush ih =>
    rw [scanMode, wordsFrom_code_other (by simpa [isWordChar, hquote] using hword), if_neg hquote]
    simp only [List.mem_cons, exists_eq_or_imp, flush_eq_none hflush, Bool.false_eq_true, false_or]
    exact ih

/-- The guard finds exactly the keywords of the reading that takes comments for text. -/
theorem findMutationToken_isSome (query : String) :
    (findMutationToken isAlphanumeric query).isSome = true ↔ HasMutationAsText isAlphanumeric query :=
  scanMutation_isSome none [] query.toList

/-- The mode is inside a comment. -/
def CypherMode.isComment (m : CypherMode) : Bool := m = .lineComment || m = .blockComment || m = .blockStar

/-- No comment of the query holds a quote. -/
def PlainComments (query : String) : Prop :=
  openCypher.Allows (fun m c => m.isComment = true → isQuote c = false) openCypher.start query.toList

/-- Where openCypher is while the other reading is in a mode of its own: in the open or in a comment, or in the same string. -/
inductive InStep : CypherMode → CypherMode → Prop where
  | text {m : CypherMode} (h : openCypher.isOpen m = true ∨ m.isComment = true) : InStep m .code
  | quoted {q : Char} (hq : isQuote q = true) : InStep (.quoted q) (.quoted q)
  | escaped {q : Char} (hq : isQuote q = true) : InStep (.escaped q) (.escaped q)

theorem InStep.ofCode (c : Char) : InStep (.ofCode c) (if isQuote c then .quoted c else .code) := by
  unfold CypherMode.ofCode
  split
  · exact .quoted ‹_›
  · split <;> exact .text (Or.inl rfl)

/-- Inside a comment without quotes the other reading stays in the open. -/
theorem InStep.comment {m : CypherMode} {c : Char} (hc : isQuote c = false) (h : openCypher.isOpen m = true ∨ m.isComment = true) :
    InStep m (if isQuote c then .quoted c else .code) := by
  rw [if_neg (by simp [hc])]
  exact .text h

theorem inStep_next (m n : CypherMode) (c : Char) (h : InStep m n) (hok : m.isComment = true → isQuote c = false) :
    InStep (openCypher.next m c) (commentsAsText.next n c) := by
  cases h with
  | text htext =>
    cases m with
    | code => exact InStep.ofCode c
    | slash =>
      simp only [openCypher, commentsAsText]
      split
      · subst c
        exact .text (Or.inr rfl)
      · split
        · subst c
          exact .text (Or.inr rfl)
        · exact InStep.ofCode c
    | lineComment =>
      refine InStep.comment (hok rfl) ?_
      simp only [openCypher]
      split
      · exact Or.inl rfl
      · exact Or.inr rfl
    | blockComment =>
      refine InStep.comment (hok rfl) (Or.inr ?_)
      simp only [openCypher]
      split <;> rfl
    | blockStar =>
      refine InStep.comment (hok rfl) ?_
      simp only [openCypher]
      split
      · exact Or.inl rfl
      · split <;> exact Or.inr rfl
    | quoted q | escaped q => simp [openCypher, CypherMode.isComment] at htext
  | @quoted q hq =>
    simp only [openCypher, commentsAsText, CypherMode.ofQuoted]
    split
    · exact .escaped hq
    · split
      · exact .text (Or.inl rfl)
      · exact .quoted hq
  | escaped hq => exact .quoted hq

/-- A word character does not lead out of the open, in either reading. -/
theorem openCypher_stays (hslash : isAlphanumeric '/' = false) (hstar : isAlphanumeric '*' = false) :
    openCypher.Stays (isWordChar isAlphanumeric) := by
  intro m c hm hc
  have hq : isQuote c = false := by
    unfold isWordChar at hc
    simpa using (Bool.and_eq_true_iff.mp hc).1
  have hcode : openCypher.isOpen (.ofCode c) = true := by
    unfold CypherMode.ofCode
    rw [if_neg (by simp [hq])]
    split <;> rfl
  cases m with
  | code => exact hcode
  | slash =>
    simp only [openCypher]
    split
    · subst c
      simp [isWordChar, hslash] at hc
    · split
      · subst c
        simp [isWordChar, hstar] at hc
      · exact hcode
  | _ => nomatch hm

theorem commentsAsText_stays : commentsAsText.Stays (isWordChar isAlphanumeric) := by
  intro m c hm hc
  obtain rfl : m = .code := by simpa [commentsAsText] using hm
  have hq : isQuote c = false := by
    unfold isWordChar at hc
    simpa using (Bool.and_eq_true_iff.mp hc).1
  simp [commentsAsText, hq]

/-- What leads openCypher back to the open is a quote, a slash or a line end. -/
theorem openCypher_opens (hslash : isAlphanumeric '/' = false) (hnewline : isAlphanumeric '\n' = false)
    (hreturn : isAlphanumeric '\r' = false) (m n : CypherMode) (c : Char) (h : InStep m n) (hm : openCypher.isOpen m = false)
    (ho : openCypher.isOpen (openCypher.next m c) = true) : isWordChar isAlphanumeric c = false := by
  cases m with
  | code | slash => nomatch hm
  | lineComment =>
    by_cases hc : c = '\n' ∨ c = '\r'
    · rcases hc with rfl | rfl
      · simp [isWordChar, hnewline]
      · simp [isWordChar, hreturn]
    · simp [openCypher, hc] at ho
  | blockComment =>
    simp only [openCypher] at ho
    split at ho <;> nomatch ho
  | blockStar =>
    by_cases hc : c = '/'
    · subst hc
      simp [isWordChar, hslash]
    · simp only [openCypher, if_neg hc] at ho
      split at ho <;> nomatch ho
  | quoted q =>
    cases h with
    | text htext => simp [openCypher, CypherMode.isComment] at htext
    | quoted hq =>
      by_cases hc : c = q
      · subst hc
        simp [isWordChar, hq]
      · simp only [openCypher, CypherMode.ofQuoted, if_neg hc] at ho
        split at ho <;> nomatch ho
  | escaped q => nomatch ho

/-- Where no comment holds a quote, a query with a mutating keyword is refused. -/
theorem mutation_refused_of_plainComments (hslash : isAlphanumeric '/' = false) (hstar : isAlphanumeric '*' = false)
    (hnewline : isAlphanumeric '\n' = false) (hreturn : isAlphanumeric '\r' = false) {query : String} (hplain : PlainComments query)
    (h : HasMutation isAlphanumeric query) : (findMutationToken isAlphanumeric query).isSome = true := by
  rw [findMutationToken_isSome]
  obtain ⟨w, hw, hmutating⟩ := h
  have hopen : ∀ m n, InStep m n → openCypher.isOpen m = true → commentsAsText.isOpen n = true := by
    intro m n hr hm
    cases hr with
    | text => rfl
    | quoted | escaped => nomatch hm
  have hmatches : openCypher.Matches commentsAsText (isWordChar isAlphanumeric) (fun m c => m.isComment = true → isQuote c = false)
      InStep := ⟨.text (Or.inl rfl), inStep_next, hopen, openCypher_opens hslash hnewline hreturn⟩
  refine ⟨w, Lex.Modes.words_subset (openCypher_stays hslash hstar) commentsAsText_stays hmatches hplain hw ?_, hmutating⟩
  rintro rfl
  nomatch hmutating

end Tumult
