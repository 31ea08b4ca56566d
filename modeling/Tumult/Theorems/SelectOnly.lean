import Tumult.Query.Sql

/-!
# What a query that is accepted can read

A text that `validate_select_only` accepts is one statement. The words of a change stand in its text, and the scan finds every word
that stands in it, so the statement is a query, or a merge that changes nothing. A table function that the scan knows is found as
well; a literal, a quoted identifier, and the readers it does not know are not.
-/

namespace Tumult.Sql

/-! ## What is asked of a text, and when it is met -/

/-- The text is a single query, none of whose table references reads a file of the host. -/
def SafeQuery (parse : Parser) (text : String) : Prop :=
  ∀ statements, parse text = some statements →
    ∃ q, statements = [.query q] ∧ ∀ ref ∈ q.tableRefs, ref.readsHostFile = false

/-- The table functions that read files and that the scan lets pass. -/
def unlistedReaders : List String := fileReaders.filter fun name => !isForbidden (capitals name)

/-- A reference that is opened as a file, or a reader that the scan lets pass. -/
def TableRef.escapes : TableRef → Bool
  | named _ => false
  | quoted _ => true
  | literal _ => true
  | function name => isAmong unlistedReaders name

/-- The text holds no merge that changes nothing, and no query with such a reference. -/
def Unescaped (parse : Parser) (text : String) : Prop :=
  ∀ statements, parse text = some statements → (∀ st ∈ statements, st ≠ .merge []) ∧
    ∀ q, .query q ∈ statements → ∀ ref ∈ q.tableRefs, ref.escapes = false

/-! ## Characters -/

theorem isTokenChar_toNat {c : Char} (h : isTokenChar c = true) : 48 ≤ c.toNat ∧ c.toNat ≤ 122 := by
  simp only [isTokenChar, Char.isAlphanum, Char.isAlpha, Char.isUpper, Char.isLower, Char.isDigit, Bool.or_eq_true,
    Bool.and_eq_true, decide_eq_true_eq, UInt32.le_iff_toNat_le] at h
  rcases h with ((⟨hge, hle⟩ | ⟨hge, hle⟩) | ⟨hge, hle⟩) | rfl
  · exact ⟨le_trans (by decide) hge, le_trans hle (by decide)⟩
  · exact ⟨le_trans (by decide) hge, le_trans hle (by decide)⟩
  · exact ⟨le_trans (by decide) hge, le_trans hle (by decide)⟩
  · decide

theorem isSpace_toNat {c : Char} (h : isSpace c = true) : c.toNat ≤ 32 ∨ 128 ≤ c.toNat := by
  simp only [isSpace, Text.isWhitespace, Bool.or_eq_true, Bool.and_eq_true, decide_eq_true_eq] at h
  omega

theorem isSpace_not_token {c : Char} (h : isSpace c = true) : isTokenChar c = false := by
  refine Bool.eq_false_iff.mpr fun htoken => ?_
  have hspace := isSpace_toNat h
  have hrange := isTokenChar_toNat htoken
  omega

theorem isTokenChar_toUpper (c : Char) : isTokenChar c.toUpper = isTokenChar c := by
  cases hlower : c.isLower with
  | false => rw [Char.toUpper_eq_of_not_isLower (by simp [hlower])]
  | true =>
    have halpha : c.isAlpha = true := by simp [Char.isAlpha, hlower]
    have hupper : c.toUpper.isAlpha = true := by rw [Char.isAlpha_toUpper_eq_isAlpha, halpha]
    simp [isTokenChar, Char.isAlphanum, halpha, hupper]

theorem toUpper_of_not_token {c : Char} (h : isTokenChar c = false) : c.toUpper = c := by
  refine Char.toUpper_eq_of_not_isLower fun hlower => ?_
  have halpha : isTokenChar c = true := by simp [isTokenChar, Char.isAlphanum, Char.isAlpha, hlower]
  rw [halpha] at h
  nomatch h

/-! ## Words that stand in a text -/

section

variable {toUppercase : Char → List Char} (hupper : UpperCase toUppercase)

include hupper

theorem UpperCase.token {cs : List Char} (h : ∀ c ∈ cs, isTokenChar c = true) : cs.flatMap toUppercase = cs.map Char.toUpper := by
  induction cs with
  | nil => rfl
  | cons c cs ih =>
    obtain ⟨hc, hcs⟩ := List.forall_mem_cons.mp h
    have hrange := isTokenChar_toNat hc
    rw [List.flatMap_cons, ih hcs, hupper.ascii c (by omega)]
    rfl

theorem UpperCase.boundary {c : Char} (h : isBoundary c = true) : toUppercase c = [c] ∧ isTokenChar c = false := by
  simp only [isBoundary, Bool.or_eq_true, Bool.and_eq_true, decide_eq_true_eq, Bool.not_eq_true'] at h
  rcases h with hspace | ⟨hascii, htoken⟩
  · exact ⟨hupper.space c hspace, isSpace_not_token hspace⟩
  · rw [hupper.ascii c hascii, toUpper_of_not_token htoken]
    exact ⟨rfl, htoken⟩

theorem UpperCase.spaces {cs : List Char} (h : ∀ c ∈ cs, isSpace c = true) : cs.flatMap toUppercase = cs := by
  induction cs with
  | nil => rfl
  | cons c cs ih =>
    obtain ⟨hc, hcs⟩ := List.forall_mem_cons.mp h
    rw [List.flatMap_cons, ih hcs, hupper.space c hc]
    rfl

/-- A word that stands in a text is one of the words its upper case is split into. -/
theorem Stands.mem_words {word text : List Char} (h : Stands word text) (hword : ∀ c ∈ word, isTokenChar c = true) :
    word ∈ Lex.flat.words isTokenChar (text.flatMap toUppercase) := by
  obtain ⟨before, w, after, rfl, rfl, hbefore, hafter⟩ := h
  have hw : ∀ c ∈ w, isTokenChar c = true := fun c hc => by
    rw [← isTokenChar_toUpper]
    exact hword _ (List.mem_map_of_mem hc)
  rw [List.flatMap_append, List.flatMap_append, hupper.token hw]
  refine Lex.mem_words_flat hword (fun c hc => ?_) fun c hc => ?_
  · rcases List.eq_nil_or_concat before with rfl | ⟨init, d, rfl⟩
    · nomatch hc
    · obtain ⟨hsame, htoken⟩ := hupper.boundary (hbefore d (by simp))
      rw [List.concat_eq_append, List.flatMap_append, List.flatMap_singleton, hsame, List.getLast?_concat] at hc
      exact Option.some.inj hc ▸ htoken
  · cases after with
    | nil => nomatch hc
    | cons d after =>
      obtain ⟨hsame, htoken⟩ := hupper.boundary (hafter d rfl)
      rw [List.flatMap_cons, hsame] at hc
      exact Option.some.inj hc ▸ htoken

end

/-! ## Trimmed texts -/

theorem isSpace_of_isWhitespace {c : Char} (h : Text.isWhitespace c = true) : isSpace c = true := by simp [isSpace, h]

/-! ## Accepted texts -/

section

variable {toUppercase : Char → List Char} {parse : Parser} {text : String} (hupper : UpperCase toUppercase)
  (h : validateSelectOnly toUppercase text = .ok ())

include hupper h

/-- A forbidden word does not stand in an accepted text. -/
theorem not_stands {word : List Char} (hforbidden : isForbidden word = true) (hword : ∀ c ∈ word, isTokenChar c = true)
    (hne : word ≠ []) : ¬ Stands word text.toList := by
  intro hstands
  obtain ⟨left, right, htext, hleft, hright, -⟩ := Text.trimList_split text.toList
  have hfound := hstands.mem_words hupper hword
  rw [htext, List.flatMap_append, List.flatMap_append,
    hupper.spaces (fun c hc => isSpace_of_isWhitespace (hleft c hc)),
    hupper.spaces (fun c hc => isSpace_of_isWhitespace (hright c hc))] at hfound
  have htrimmed := Lex.mem_words_flat_strip (fun c hc => isSpace_not_token (isSpace_of_isWhitespace (hleft c hc)))
    (fun c hc => isSpace_not_token (isSpace_of_isWhitespace (hright c hc))) hfound hne
  have hclean := (validateSelectOnly_ok toUppercase).mp h |>.2 word htrimmed
  rw [hclean] at hforbidden
  nomatch hforbidden

omit hupper in
/-- An accepted text holds no more than one statement. -/
theorem accepted_single (hparse : Documented parse) {statements : List Statement} (hstatements : parse text = some statements) :
    statements.length ≤ 1 := by
  obtain ⟨left, right, htext, hleft, hright, -⟩ := Text.trimList_split text.toList
  obtain ⟨tail, htrimmed, htail⟩ := Text.trimEndMatches_split (fun c => Text.isWhitespace c || c = ';') (Text.trimList text.toList)
  have hsemicolon := ((validateSelectOnly_ok toUppercase).mp h).1.2
  refine hparse.separated text (left ++ Text.trimEndMatches (fun c => Text.isWhitespace c || c = ';') (Text.trimList text.toList))
    (tail ++ right) statements ?_ (fun c hc => ?_) (fun hmem => ?_) hstatements
  · rw [← List.append_assoc, List.append_assoc left, ← htrimmed]
    exact htext
  · rcases List.mem_append.mp hc with hc | hc
    · have hspace := htail c hc
      simp only [Bool.or_eq_true, decide_eq_true_eq] at hspace
      exact hspace.imp_left isSpace_of_isWhitespace
    · exact .inl (isSpace_of_isWhitespace (hright c hc))
  · rcases List.mem_append.mp hmem with hmem | hmem
    · exact absurd (hleft _ hmem) (by decide)
    · exact hsemicolon hmem

/-- An accepted text begins with a word that has letters in common with `SELECT` or `WITH`. -/
theorem accepted_begins : firstWord text.toList ≠ [] ∧ ∀ keyword ∈ otherKeywords,
    (firstWord text.toList).map Char.toUpper ≠ keyword.toList := by
  obtain ⟨left, right, htext, hleft, hright, -⟩ := Text.trimList_split text.toList
  have hstart := ((validateSelectOnly_ok toUppercase).mp h).1.1
  cases htrimmed : Text.trimList text.toList with
  | nil =>
    rw [htrimmed] at hstart
    rcases hstart with hstart | hstart <;> exact absurd (List.prefix_nil.mp hstart) (by decide)
  | cons c cs =>
    rw [htrimmed] at hstart htext
    -- the first character is no space, since the upper case of a space is itself
    obtain ⟨d, hd, hletter⟩ : ∃ d, (toUppercase c).head? = some d ∧ isTokenChar d = true := by
      rw [List.flatMap_cons] at hstart
      obtain ⟨d, ds, hds⟩ := List.exists_cons_of_ne_nil (hupper.nonempty c)
      rw [hds, List.cons_append] at hstart
      refine ⟨d, by rw [hds]; rfl, ?_⟩
      rcases hstart with hstart | hstart
      · have hsame := (List.cons_prefix_cons.mp (show 'S' :: "ELECT".toList <+: _ from hstart)).1
        exact hsame ▸ by decide
      · have hsame := (List.cons_prefix_cons.mp (show 'W' :: "ITH".toList <+: _ from hstart)).1
        exact hsame ▸ by decide
    have hspace : isSpace c = false := by
      refine Bool.eq_false_iff.mpr fun hspace => ?_
      rw [hupper.space c hspace] at hd
      rw [← Option.some.inj hd, isSpace_not_token hspace] at hletter
      nomatch hletter
    have hidentifier : isIdentifierChar c = true := by
      by_cases hascii : c.toNat < 128
      · rw [hupper.ascii c hascii] at hd
        rw [← Option.some.inj hd, isTokenChar_toUpper] at hletter
        simp [isIdentifierChar, hletter]
      · have hrange : 128 ≤ c.toNat := Nat.le_of_not_lt hascii
        simp [isIdentifierChar, hspace, hrange]
    have hdrop : text.toList.dropWhile isSpace = (c :: cs) ++ right := by
      rw [htext, List.append_assoc, List.dropWhile_append_of_pos fun c hc => isSpace_of_isWhitespace (hleft c hc)]
      rw [List.cons_append, List.dropWhile_cons_of_neg (by simp [hspace])]
    have hfirst : firstWord text.toList = ((c :: cs) ++ right).takeWhile isIdentifierChar := by rw [firstWord, hdrop]
    refine ⟨?_, fun keyword hkeyword hsame => ?_⟩
    · rw [hfirst, List.cons_append, List.takeWhile_cons_of_pos hidentifier]
      exact List.cons_ne_nil _ _
    · obtain ⟨htoken, hapart⟩ := otherKeywords_apart keyword hkeyword
      have hword : ∀ c ∈ firstWord text.toList, isTokenChar c = true := fun c hc => by
        rw [← isTokenChar_toUpper]
        exact List.all_eq_true.mp htoken _ (hsame ▸ List.mem_map_of_mem hc)
      have hbegins : keyword.toList <+: ((c :: cs) ++ right).flatMap toUppercase := by
        rw [← List.takeWhile_append_dropWhile (p := isIdentifierChar) (l := (c :: cs) ++ right), List.flatMap_append, ← hfirst,
          hupper.token hword, hsame]
        exact List.prefix_append _ _
      have hcomparable {start : String} (hstart : start.toList <+: (c :: cs).flatMap toUppercase) :
          start.toList <+: keyword.toList ∨ keyword.toList <+: start.toList := by
        refine List.prefix_or_prefix_of_prefix ?_ hbegins
        rw [List.flatMap_append]
        exact hstart.trans (List.prefix_append _ _)
      simp only [List.all_cons, List.all_nil, Bool.and_true, Bool.and_eq_true, Bool.not_eq_true', ← Bool.not_eq_true,
        List.isPrefixOf_iff_prefix] at hapart
      rcases hstart with hstart | hstart
      · exact (hcomparable hstart).elim hapart.1.1 hapart.1.2
      · exact (hcomparable hstart).elim hapart.2.1 hapart.2.2

/-- The statement of an accepted text is a query, or a merge that changes nothing. -/
theorem accepted_statement (hparse : Documented parse) {statements : List Statement} (hstatements : parse text = some statements) :
    (∃ q, statements = [.query q]) ∨ statements = [.merge []] := by
  obtain ⟨hfirst, hkeywords⟩ := accepted_begins hupper h
  obtain ⟨st, rest, rfl, hbegins⟩ := hparse.begins text statements hstatements hfirst
  obtain rfl : rest = [] := by
    have hsingle := accepted_single h hparse hstatements
    rw [List.length_cons] at hsingle
    exact List.length_eq_zero_iff.mp (by omega)
  have hrows : ∀ change ∈ st.rowChanges, False := by
    intro change hchange
    have hstands := hparse.rowKeyword text [st] hstatements st List.mem_cons_self change hchange
    refine not_stands hupper h ?_ ?_ ?_ hstands <;> cases change <;> simp [RowChange.keyword] <;> decide
  cases st with
  | query q => exact .inl ⟨q, rfl⟩
  | modify change => exact (hrows change List.mem_cons_self).elim
  | merge changes =>
    cases changes with
    | nil => exact .inr rfl
    | cons change changes => exact (hrows change List.mem_cons_self).elim
  | other keyword => exact (hkeywords keyword hbegins.1 hbegins.2).elim

/-- A reader that the scan knows is not called by an accepted text. -/
theorem accepted_reader (hparse : Documented parse) {statements : List Statement} (hstatements : parse text = some statements)
    {q : Query} (hq : .query q ∈ statements) {name : String} (href : .function name ∈ q.tableRefs)
    (hreader : isAmong fileReaders name = true) : isAmong unlistedReaders name = true := by
  obtain ⟨reader, hmem, hsame⟩ := List.any_eq_true.mp hreader
  have hcapitals : capitals reader = capitals name := of_decide_eq_true hsame
  cases hforbidden : isForbidden (capitals reader) with
  | false => exact List.any_eq_true.mpr ⟨reader, List.mem_filter.mpr ⟨hmem, by simp [hforbidden]⟩, hsame⟩
  | true =>
    obtain ⟨htoken, hne⟩ := fileReaders_token reader hmem
    rw [hcapitals] at htoken hne hforbidden
    have hname : ∀ c ∈ name.toList, isTokenChar c = true := fun c hc => by
      rw [← isTokenChar_toUpper]
      exact List.all_eq_true.mp htoken _ (List.mem_map_of_mem hc)
    exact absurd (hparse.functionName text statements q name hstatements hq href hname)
      (not_stands hupper h hforbidden (List.all_eq_true.mp htoken) hne)

end

/-! ## The law -/

/-- A reference that escapes reads a file. -/
theorem TableRef.readsHostFile_of_escapes {ref : TableRef} (h : ref.escapes = true) : ref.readsHostFile = true := by
  cases ref with
  | named name => nomatch h
  | quoted name => rfl
  | literal path => rfl
  | function name =>
    obtain ⟨reader, hmem, hsame⟩ := List.any_eq_true.mp h
    exact List.any_eq_true.mpr ⟨reader, (List.mem_filter.mp hmem).1, hsame⟩

/-- An accepted text is a single query that reads no file of the host exactly when no table reference of it, at any depth, is a
literal, a quoted identifier or the call of a reader that the scan lets pass, and it is no merge that changes nothing. -/
theorem selectOnly_safe_iff {toUppercase : Char → List Char} {parse : Parser} {text : String} (hupper : UpperCase toUppercase)
    (hparse : Documented parse) (h : validateSelectOnly toUppercase text = .ok ()) :
    SafeQuery parse text ↔ Unescaped parse text := by
  constructor
  · intro hsafe statements hstatements
    obtain ⟨q, rfl, hrefs⟩ := hsafe statements hstatements
    refine ⟨fun st hst => ?_, fun q' hq' ref href => ?_⟩
    · rw [List.mem_singleton.mp hst]
      exact nofun
    · obtain rfl := Statement.query.inj (List.mem_singleton.mp hq')
      refine Bool.eq_false_iff.mpr fun hescapes => ?_
      have hreads := hrefs ref href
      rw [TableRef.readsHostFile_of_escapes hescapes] at hreads
      nomatch hreads
  · intro hunescaped statements hstatements
    obtain ⟨hmerge, hqueries⟩ := hunescaped statements hstatements
    rcases accepted_statement hupper h hparse hstatements with ⟨q, rfl⟩ | rfl
    · refine ⟨q, rfl, fun ref href => ?_⟩
      have hescapes := hqueries q List.mem_cons_self ref href
      cases ref with
      | named name => rfl
      | quoted name => nomatch hescapes
      | literal path => nomatch hescapes
      | function name =>
        refine Bool.eq_false_iff.mpr fun hreader => ?_
        have hunlisted := accepted_reader hupper h hparse hstatements List.mem_cons_self href hreader
        exact absurd (hescapes.symm.trans hunlisted) Bool.noConfusion
    · exact absurd rfl (hmerge _ List.mem_cons_self)

/-! ## A parser of one text -/

/-- The parser that knows a single text. -/
def parseOnly (known : String) (q : Query) : Parser := fun text => if text = known then some [.query q] else none

theorem parseOnly_some {known text : String} {q : Query} {statements : List Statement}
    (h : parseOnly known q text = some statements) : text = known ∧ statements = [.query q] := by
  unfold parseOnly at h
  split at h
  case isTrue hknown => exact ⟨hknown, (Option.some.inj h).symm⟩
  case isFalse => nomatch h

/-- Such a parser is as documented when the query of the text calls no table function. -/
theorem documented_parseOnly (known : String) {q : Query} (h : ∀ ref ∈ q.tableRefs, ∀ name, ref ≠ .function name) :
    Documented (parseOnly known q) where
  separated _ _ _ statements _ _ _ hparse := by rw [(parseOnly_some hparse).2, List.length_singleton]
  begins _ statements hparse _ := ⟨.query q, [], (parseOnly_some hparse).2, trivial⟩
  rowKeyword _ statements hparse st hst change hchange := by
    rw [(parseOnly_some hparse).2, List.mem_singleton] at hst
    rw [hst] at hchange
    nomatch hchange
  functionName _ statements q' name hparse hq href _ := by
    rw [(parseOnly_some hparse).2, List.mem_singleton] at hq
    exact absurd rfl (h _ (Statement.query.inj hq ▸ href) name)

/-- A query of the runs table is safe. -/
theorem selectOnly_safe_runs :
    validateSelectOnly (fun c => [c.toUpper]) "SELECT id FROM runs" = .ok () ∧
      (SafeQuery (parseOnly "SELECT id FROM runs" (.block [.named "runs"] [])) "SELECT id FROM runs" ↔
        Unescaped (parseOnly "SELECT id FROM runs" (.block [.named "runs"] [])) "SELECT id FROM runs") := by
  have haccepted : validateSelectOnly (fun c => [c.toUpper]) "SELECT id FROM runs" = .ok () := by decide
  refine ⟨haccepted, selectOnly_safe_iff upperCase_ascii (documented_parseOnly _ ?_) haccepted⟩
  intro ref href name
  rw [List.mem_singleton.mp (show ref ∈ [TableRef.named "runs"] from href)]
  exact nofun

/-- A query that has a path for a table is accepted, by a parser that is as documented, and reads the file. -/
theorem selectOnly_safe_false :
    ¬ ∀ (toUppercase : Char → List Char) (parse : Parser) (text : String), UpperCase toUppercase → Documented parse →
      validateSelectOnly toUppercase text = .ok () → SafeQuery parse text := by
  intro hclaim
  have hreads : ∀ ref ∈ (Query.block [.literal "/etc/passwd"] []).tableRefs, ref = .literal "/etc/passwd" :=
    fun ref href => List.mem_singleton.mp (show ref ∈ [TableRef.literal "/etc/passwd"] from href)
  have hsafe := hclaim (fun c => [c.toUpper]) (parseOnly "SELECT * FROM '/etc/passwd'" (.block [.literal "/etc/passwd"] []))
    "SELECT * FROM '/etc/passwd'" upperCase_ascii (documented_parseOnly _ fun ref href name => hreads ref href ▸ nofun)
    (by decide)
  obtain ⟨q, hq, hrefs⟩ := hsafe [.query (.block [.literal "/etc/passwd"] [])] (if_pos rfl)
  rw [← Statement.query.inj (List.singleton_inj.mp hq)] at hrefs
  exact absurd (hrefs (.literal "/etc/passwd") List.mem_cons_self) Bool.noConfusion

end Tumult.Sql
