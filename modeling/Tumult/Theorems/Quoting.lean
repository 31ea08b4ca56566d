import Tumult.Api.SqlUtil
import Tumult.Lib.Like
import Tumult.Lib.SqlCond
import Tumult.Lib.Checks

/-!
# SQL quoting is exact

A quoted string is one literal that stands for the string; a pattern made of a string matches the texts that contain it, or equal
it, up to case; and the predicates with user strings in them are read as the comparisons that are meant.
-/

namespace Tumult.SqlUtil

open SqlLex (Token Reads Frame Lexed doubleQuotes)
open SqlCond (Cond Operand Path Row selects entryIs)

/-! ## What is meant -/

/-- The text is one string literal with this content, whatever stands behind it, another quote apart. -/
def Literal (text content : String) : Prop := ∀ rest, rest.head? ≠ some '\'' → Reads (text.toList ++ rest) [.string content] rest

/-- The parameter asks for this key and this value. -/
def Asks (raw : Option String) (k v : String) : Prop := raw = some (k ++ "=" ++ v) ∧ k ≠ "" ∧ '=' ∉ k.toList

/-- One of the two maps has exactly this value under the key. -/
def HasAttr (row : Row) (a b : Path) (k v : String) : Prop := row.entry a.parts k = some v ∨ row.entry b.parts k = some v

/-- Quoting is exact: of strings, of patterns, and in predicates. -/
structure QuotingExact (debug : String → String) (F : Like.CaseFold) : Prop where
  literal : ∀ s, Literal (sqlString s) s
  /-- The pattern of a substring matches the texts that contain it up to case. -/
  contains : ∀ s, ∃ pattern, Literal (sqlContains s) pattern ∧ ∀ text,
    Like.ilike F '\\' text pattern = some (decide (s.toList.map F.fold <:+: text.toList.map F.fold))
  /-- The pattern of a string matches the texts equal to it up to case. -/
  ieq : ∀ s, ∃ pattern, Literal (sqlIeq s) pattern ∧ ∀ text,
    Like.ilike F '\\' text pattern = some (decide (text.toList.map F.fold = s.toList.map F.fold))
  /-- The predicate of the scopes, of which there is one unless there are none, selects the rows in one of them. -/
  envScope : ∀ (col : Path) scopes, (envScopeWhere col.text scopes = none ↔ scopes = []) ∧
    ∀ text, envScopeWhere col.text scopes = some text → (∃ ts, Frame text ts) ∧
      ∀ row, selects text row = true ↔ ∃ s ∈ scopes, row.column col.parts = some s
  /-- The predicates of the attributes together select the rows with the attribute asked for and without the one excluded. -/
  attrs : ∀ attr attrNot (a b : Path) wheres, attrWheres debug attr attrNot (a.text, b.text) = .ok wheres →
    (∀ text ∈ wheres, ∃ ts, Frame text ts) ∧
      ∀ row, (∀ text ∈ wheres, selects text row = true) ↔
        (∀ k v, Asks attr k v → HasAttr row a b k v) ∧ ∀ k v, Asks attrNot k v → ¬ HasAttr row a b k v

/-! ## Literals and patterns -/

theorem literal_doubleQuotes (content : List Char) :
    Literal ("'" ++ String.ofList (doubleQuotes '\'' content) ++ "'") (String.ofList content) := fun rest hrest => by
  have h := SqlLex.reads_string (String.ofList content) hrest
  rwa [String.toList_ofList] at h

theorem literal_sqlString (s : String) : Literal (sqlString s) s := by
  have h := literal_doubleQuotes s.toList
  rwa [String.ofList_toList] at h

theorem lexed_sqlString (s : String) : Lexed (sqlString s) [.string s] := SqlLex.lexed_string s

/-- The four replacements one after the other escape the special characters and double the quotes. -/
theorem escapeLike_eq (s : String) : escapeLike s = String.ofList (doubleQuotes '\'' (Like.escaped s.toList)) := by
  simp only [escapeLike, replaceChar, String.toList_ofList, doubleQuotes, Like.escaped, List.flatMap_assoc]
  congr 2
  funext c
  by_cases hback : c = '\\'
  · subst hback
    decide
  by_cases hpercent : c = '%'
  · subst hpercent
    decide
  by_cases hunder : c = '_'
  · subst hunder
    decide
  simp [hback, hpercent, hunder]

theorem sqlIeq_eq (s : String) : sqlIeq s = "'" ++ String.ofList (doubleQuotes '\'' (Like.escaped s.toList)) ++ "'" := by
  rw [sqlIeq, escapeLike_eq]

/-- The wildcards around a pattern have no quotes. -/
theorem sqlContains_eq (s : String) :
    sqlContains s = "'" ++ String.ofList (doubleQuotes '\'' ('%' :: (Like.escaped s.toList ++ ['%']))) ++ "'" := by
  have hquotes : doubleQuotes '\'' ('%' :: (Like.escaped s.toList ++ ['%'])) =
      '%' :: (doubleQuotes '\'' (Like.escaped s.toList) ++ ['%']) := by
    simp [doubleQuotes]
  rw [sqlContains, escapeLike_eq, hquotes]
  apply String.toList_injective
  simp

/-! ## Predicates -/

/-- A text that is read as a condition. -/
theorem selects_of_parse {text : String} {ts : List Token} {p : Cond} (hlex : Frame text ts) (hparse : SqlCond.parse ts = some p)
    (row : Row) : selects text row = true ↔ p.eval row = some true := by
  rw [selects, hlex.lexed.lex_eq, Option.bind_some, hparse]
  simp

/-- The tokens of a scope's predicate. -/
def scopeTokens (col : Path) (scopes : List String) : List Token :=
  col.tokens ++ (.word "IN" :: .symbol "(" :: ([Token.symbol ","].intercalate (scopes.map fun s => [.string s]) ++ [.symbol ")"]))

theorem frame_scope (col : Path) (scopes : List String) :
    Frame (col.text ++ " IN (" ++ ", ".intercalate (scopes.map sqlString) ++ ")") (scopeTokens col scopes) := by
  have hin : Frame " IN (" [.word "IN", .symbol "("] := .of_tokens (by decide)
  have hcomma : Frame ", " [.symbol ","] := .of_tokens (by decide)
  have hclose : Frame ")" [.symbol ")"] := .of_tokens (by decide)
  have hitems := Lexed.intercalate hcomma (by decide) sqlString (fun s => [.string s]) scopes fun s _ => lexed_sqlString s
  have h := ((col.lexed.frame_append hin (by decide)).lexed_append hitems).frame_append hclose (by decide)
  simpa [scopeTokens] using h

/-- The comparison of an entry of a map with a value. -/
def entryCond (p : Path) (k v : String) : Cond := .eq (.entry p.parts k) (.text v)

theorem eval_entryCond (row : Row) (p : Path) (k v : String) : (entryCond p k v).eval row = some true ↔ row.entry p.parts k = some v := by
  rw [entryCond, SqlCond.eval_eq]
  simp [Operand.value]

theorem lexed_entry (p : Path) (k v : String) :
    Lexed (p.text ++ "[" ++ sqlString k ++ "] = " ++ sqlString v) (p.tokens ++ entryIs k v []) := by
  have hopen : Frame "[" [.symbol "["] := .of_tokens (by decide)
  have hclose : Frame "] = " [.symbol "]", .symbol "="] := .of_tokens (by decide)
  have h := (((p.lexed.frame_append hopen (by decide)).lexed_append (lexed_sqlString k)).frame_append hclose (by decide)).lexed_append
    (lexed_sqlString v)
  simpa [entryIs] using h

def keptTokens (a b : Path) (k v : String) : List Token :=
  .symbol "(" :: (a.tokens ++ entryIs k v (.word "OR" :: (b.tokens ++ entryIs k v [.symbol ")"])))

theorem frame_kept (a b : Path) (k v : String) :
    Frame (attrPredicate a.text b.text k v) (keptTokens a b k v) := by
  have hopen : Frame "(" [.symbol "("] := .of_tokens (by decide)
  have hor : Frame " OR " [.word "OR"] := .of_tokens (by decide)
  have hclose : Frame ")" [.symbol ")"] := .of_tokens (by decide)
  have h := (((hopen.lexed_append (lexed_entry a k v)).frame_append hor (by decide)).lexed_append (lexed_entry b k v)).frame_append
    hclose (by decide)
  simp only [← String.append_assoc] at h
  unfold attrPredicate
  simpa [keptTokens, entryIs] using h

theorem parse_kept (a b : Path) (k v : String) : SqlCond.parse (keptTokens a b k v) = some (.or (entryCond a k v) (entryCond b k v)) := by
  obtain ⟨n, hn⟩ : ∃ n, 2 * (keptTokens a b k v).length + 2 = n + 5 := ⟨2 * (keptTokens a b k v).length - 3, by
    simp only [keptTokens, entryIs, List.length_cons, List.length_append, List.length_nil]
    omega⟩
  have hfirst := SqlCond.readAtom_entry a k v (.word "OR" :: (b.tokens ++ entryIs k v [.symbol ")"])) (n + 1)
  have hsecond := SqlCond.readOr_of_readAtom (SqlCond.readAtom_entry b k v [.symbol ")"] n) (by simp)
  exact SqlCond.parse_of_readAtom hn (SqlCond.readAtom_paren (SqlCond.readOr_or hfirst hsecond))

def excludedTokens (a b : Path) (k v : String) : List Token :=
  .word "NOT" :: .symbol "(" :: .word "COALESCE" :: .symbol "(" :: (a.tokens ++ entryIs k v
    (.symbol "," :: .word "false" :: .symbol ")" :: .word "OR" :: .word "COALESCE" :: .symbol "(" :: (b.tokens ++ entryIs k v
      [.symbol ",", .word "false", .symbol ")", .symbol ")"])))

theorem frame_notCoalesce : Frame "NOT (COALESCE(" [.word "NOT", .symbol "(", .word "COALESCE", .symbol "("] :=
  .of_tokens (by decide)

theorem frame_orCoalesce :
    Frame ", false) OR COALESCE(" [.symbol ",", .word "false", .symbol ")", .word "OR", .word "COALESCE", .symbol "("] :=
  .of_tokens (by decide)

theorem frame_false : Frame ", false))" [.symbol ",", .word "false", .symbol ")", .symbol ")"] := .of_tokens (by decide)

theorem frame_excluded (a b : Path) (k v : String) :
    Frame (attrNotPredicate a.text b.text k v) (excludedTokens a b k v) := by
  have hfirst := frame_notCoalesce.lexed_append (lexed_entry a k v)
  have hsecond := (hfirst.frame_append frame_orCoalesce (by decide)).lexed_append (lexed_entry b k v)
  have h := hsecond.frame_append frame_false (by decide)
  simp only [← String.append_assoc] at h
  unfold attrNotPredicate
  simpa [excludedTokens, entryIs] using h

theorem parse_excluded (a b : Path) (k v : String) :
    SqlCond.parse (excludedTokens a b k v) = some (.not (.or (.orFalse (entryCond a k v)) (.orFalse (entryCond b k v)))) := by
  obtain ⟨n, hn⟩ : ∃ n, 2 * (excludedTokens a b k v).length + 2 = n + 8 := ⟨2 * (excludedTokens a b k v).length - 6, by
    simp only [excludedTokens, entryIs, List.length_cons, List.length_append, List.length_nil]
    omega⟩
  have hsecond := SqlCond.readAtom_coalesce (u := [.symbol ")"])
    (SqlCond.readOr_of_readAtom (SqlCond.readAtom_entry b k v _ n) (by simp))
  have hfirst := SqlCond.readAtom_coalesce (u := .word "OR" :: .word "COALESCE" :: .symbol "(" :: (b.tokens ++ entryIs k v
    [.symbol ",", .word "false", .symbol ")", .symbol ")"]))
    (SqlCond.readOr_of_readAtom (SqlCond.readAtom_entry a k v _ (n + 1)) (by simp))
  have hor := SqlCond.readOr_or hfirst (SqlCond.readOr_of_readAtom hsecond (by simp))
  refine SqlCond.parse_of_readAtom hn ?_
  rw [excludedTokens, SqlCond.readAtom, SqlCond.readAtom_paren hor]
  rfl

theorem parse_scope (col : Path) {scopes : List String} (hne : scopes ≠ []) :
    SqlCond.parse (scopeTokens col scopes) = some (.isIn (.column col.parts) scopes) := by
  refine SqlCond.parse_of_readAtom (n := 2 * (scopeTokens col scopes).length + 1) rfl ?_
  rw [scopeTokens, SqlCond.readAtom_path, SqlCond.readComparison_isIn col hne]

/-! ## Parameters -/

/-- A parameter is read as the key and the value that it asks for. -/
theorem attrKv_eq_some {raw k v : String} : attrKv raw = some (k, v) ↔ Asks (some raw) k v := by
  have hsplit := List.takeWhile_append_dropWhile (p := fun c => decide (c ≠ '=')) (l := raw.toList)
  constructor
  · intro h
    unfold attrKv at h
    split at h
    · cases h
    · next c cs hdrop =>
      dsimp only at h
      split at h
      · cases h
      · next hne =>
        cases h
        have hc : c = '=' := by
          have hhead := List.head?_dropWhile_not (fun c => decide (c ≠ '=')) raw.toList
          rw [hdrop] at hhead
          simpa using hhead
        refine ⟨?_, fun heq => hne (by simpa using congrArg String.toList heq), fun hmem => ?_⟩
        · rw [hdrop, hc] at hsplit
          exact congrArg some (String.toList_injective (by simpa using hsplit.symm))
        · have := List.mem_takeWhile_imp (by simpa using hmem)
          simp at this
  · rintro ⟨hraw, hne, hmem⟩
    have hlist : raw.toList = k.toList ++ '=' :: v.toList := by simpa using congrArg String.toList (Option.some.inj hraw)
    have hpos : ∀ c ∈ k.toList, decide (c ≠ '=') = true := fun c hc => decide_eq_true fun heq => hmem (heq ▸ hc)
    have hk : k.toList ≠ [] := fun heq => hne (String.toList_injective heq)
    unfold attrKv
    rw [hlist, List.dropWhile_append_of_pos hpos, List.takeWhile_append_of_pos hpos]
    simp [hk]

theorem not_asks_none (k v : String) : ¬ Asks none k v := fun h => nomatch h.1

theorem not_asks_empty (k v : String) : ¬ Asks (some "") k v := by
  rintro ⟨h, -, -⟩
  have := congrArg String.toList (Option.some.inj h)
  simp at this

/-- What a parameter adds: nothing where it asks for nothing, else the one predicate of what it asks for. -/
theorem attrWhere_ok {debug : String → String} {param : String} {predicate : String → String → String} {raw : Option String}
    {texts : List String} (h : attrWhere debug param predicate raw = .ok texts) :
    (texts = [] ∧ ∀ k v, ¬ Asks raw k v) ∨ ∃ k v, texts = [predicate k v] ∧ ∀ k' v', Asks raw k' v' ↔ k' = k ∧ v' = v := by
  unfold attrWhere at h
  split at h
  · next hfilter =>
    cases h
    refine Or.inl ⟨rfl, fun k v => ?_⟩
    cases raw with
    | none => exact not_asks_none k v
    | some raw =>
      have hempty : raw = "" := by simpa [Option.filter] using hfilter
      exact hempty ▸ not_asks_empty k v
  · next raw' hfilter =>
    obtain ⟨rfl, -⟩ := Option.filter_eq_some_iff.mp hfilter
    split at h
    · nomatch h
    · next k v hkv =>
      cases h
      refine Or.inr ⟨k, v, rfl, fun k' v' => ?_⟩
      rw [← attrKv_eq_some, hkv]
      simp [eq_comm]

theorem selects_attr (row : Row) (a b : Path) (k v : String) :
    selects (attrPredicate a.text b.text k v) row = true ↔ HasAttr row a b k v := by
  rw [selects_of_parse (frame_kept a b k v) (parse_kept a b k v), SqlCond.eval_or, eval_entryCond, eval_entryCond]
  rfl

theorem selects_attrNot (row : Row) (a b : Path) (k v : String) :
    selects (attrNotPredicate a.text b.text k v) row = true ↔ ¬ HasAttr row a b k v := by
  rw [selects_of_parse (frame_excluded a b k v) (parse_excluded a b k v), SqlCond.eval_not_or_orFalse, eval_entryCond, eval_entryCond]
  rfl

/-! ## The law -/

/-- Every string is quoted exactly, every pattern made of a string matches what it should, and every predicate with user strings is
the comparison that is meant. -/
theorem quoting_exact (debug : String → String) (F : Like.CaseFold) : QuotingExact debug F where
  literal := literal_sqlString
  contains s := by
    refine ⟨_, ?_, Like.ilike_infix F s⟩
    rw [sqlContains_eq]
    exact literal_doubleQuotes _
  ieq s := by
    refine ⟨_, ?_, Like.ilike_escaped F s⟩
    rw [sqlIeq_eq]
    exact literal_doubleQuotes _
  envScope col scopes := by
    by_cases hne : scopes = []
    · simp [envScopeWhere, hne]
    · rw [envScopeWhere, if_neg hne]
      refine ⟨iff_of_false (by simp) hne, fun text htext => ?_⟩
      cases htext
      have hframe := frame_scope col scopes
      refine ⟨⟨_, hframe⟩, fun row => ?_⟩
      rw [selects_of_parse hframe (parse_scope col hne), SqlCond.eval_isIn]
      rfl
  attrs attr attrNot a b wheres h := by
    obtain ⟨kept, hkept, h⟩ := Checks.bind_ok h
    obtain ⟨excluded, hexcluded, h⟩ := Checks.bind_ok h
    cases h
    have hone : ∀ text ∈ kept, ∃ k v, text = attrPredicate a.text b.text k v := by
      intro text htext
      rcases attrWhere_ok hkept with ⟨rfl, -⟩ | ⟨k, v, rfl, -⟩
      · cases htext
      · exact ⟨k, v, List.mem_singleton.mp htext⟩
    have hother : ∀ text ∈ excluded, ∃ k v, text = attrNotPredicate a.text b.text k v := by
      intro text htext
      rcases attrWhere_ok hexcluded with ⟨rfl, -⟩ | ⟨k, v, rfl, -⟩
      · cases htext
      · exact ⟨k, v, List.mem_singleton.mp htext⟩
    refine ⟨fun text htext => ?_, fun row => ?_⟩
    · rcases List.mem_append.mp htext with htext | htext
      · obtain ⟨k, v, rfl⟩ := hone text htext
        exact ⟨_, frame_kept a b k v⟩
      · obtain ⟨k, v, rfl⟩ := hother text htext
        exact ⟨_, frame_excluded a b k v⟩
    · rw [List.forall_mem_append]
      refine and_congr ?_ ?_
      · rcases attrWhere_ok hkept with ⟨rfl, hnone⟩ | ⟨k, v, rfl, hasks⟩
        · simp [hnone]
        · simp [hasks, selects_attr]
      · rcases attrWhere_ok hexcluded with ⟨rfl, hnone⟩ | ⟨k, v, rfl, hasks⟩
        · simp [hnone]
        · simp [hasks, selects_attrNot]

end Tumult.SqlUtil
