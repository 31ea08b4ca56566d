import Tumult.Lib.Checks
import Tumult.Query.Metrics

/-!
# What a metric query consists of

The text of a query is put together of frames and of pieces that stand before a delimiter: names, literals, and what is rendered of
them. So its tokens are the tokens of the pieces in their order, for any name that passes the check and any literal.
-/

namespace Tumult.Metrics

open SqlLex
open SqlLex.Token (word number string symbol)

variable {F : Type} {N : FloatText F}

/-! ## Names and literals -/

theorem validIdent_of_check {s : String} {u : Unit} (h : checkIdent s = .ok u) : validIdent s = true := by
  unfold checkIdent at h
  split at h
  · assumption
  · nomatch h

theorem isNameChar_of_validIdent {s : String} (h : validIdent s = true) : ∀ c ∈ s.toList, SqlLex.isNameChar c = true := by
  intro c hc
  have hchar := List.all_eq_true.mp (Bool.and_eq_true_iff.mp h).2 c hc
  simp only [Bool.or_eq_true, decide_eq_true_eq] at hchar
  rcases hchar with ((hlower | hdigit) | rfl) | rfl
  · simp [SqlLex.isNameChar, SqlLex.isLetter, Char.isAlpha, hlower]
  · simp [SqlLex.isNameChar, hdigit]
  · decide
  · decide

theorem lexed_ident {s : String} (h : validIdent s = true) : Lexed s (nameTokens s) := (lexed_name (isNameChar_of_validIdent h)).1

/-- The tokens of a whole number: a sign of its own, and the digits. -/
def intTokens (n : Int) : List Token :=
  if n < 0 then [symbol "-", number (toString n.natAbs)] else [number (toString n)]

theorem decimal_repr (n : Nat) : SqlLex.Decimal (toString n).toList := by
  have hdigits : (toString n).toList = Nat.toDigits 10 n := by simp [Nat.repr]
  rw [hdigits]
  exact ⟨_, Nat.toDigits_ne_nil, fun c hc => Nat.isDigit_of_mem_toDigits (by decide) (by decide) hc, .inl rfl⟩

theorem head?_decimal {cs : List Char} (h : SqlLex.Decimal cs) : cs.head?.any Char.isDigit = true := by
  obtain ⟨whole, hne, hwhole, hcases⟩ := h
  obtain ⟨c, whole, rfl⟩ := List.exists_cons_of_ne_nil hne
  rcases hcases with rfl | ⟨fraction, -, rfl⟩
  · exact hwhole c List.mem_cons_self
  · exact hwhole c List.mem_cons_self

/-- A sign and the number behind it. -/
theorem lexed_negative {text : String} (h : SqlLex.Decimal text.toList) : Lexed ("-" ++ text) [symbol "-", number text] :=
  lexed_minus (lexed_decimal h) (head?_decimal h)

theorem lexed_int (n : Int) : Lexed (toString n) (intTokens n) := by
  unfold intTokens
  rw [Int.toString_eq_repr, Int.repr_eq_if]
  split_ifs with hnonneg hneg hneg
  · omega
  · exact lexed_decimal (decimal_repr n.toNat)
  · have habs : (-n).toNat = n.natAbs := by omega
    rw [habs]
    exact lexed_negative (decimal_repr n.natAbs)
  · omega

/-- The token of a literal, with the sign of a negative number before it. -/
def literalTokens (N : FloatText F) : Literal F → List Token
  | .bool b => [word (if b then "TRUE" else "FALSE")]
  | .num n => if N.isNegative n then [symbol "-", number (N.display (N.abs n))] else [number (N.display n)]
  | .str s => [string s]

/-- What the token of a literal stands for. -/
def decodeLiteral (N : FloatText F) : List Token → Option (Literal F)
  | [word "TRUE"] => some (.bool true)
  | [word "FALSE"] => some (.bool false)
  | [number text] => (N.parse text).map .num
  | [symbol "-", number text] => (N.parse text).map (.num ∘ N.neg)
  | [string s] => some (.str s)
  | _ => none

/-- A number, if it is one, is finite. -/
def Literal.Finite (N : FloatText F) : Literal F → Prop
  | .num n => N.isFinite n = true
  | _ => True

theorem decode_literalTokens {literal : Literal F} (h : literal.Finite N) :
    decodeLiteral N (literalTokens N literal) = some literal := by
  cases literal with
  | bool b => cases b <;> rfl
  | num n =>
    cases hnegative : N.isNegative n with
    | false => simp [literalTokens, hnegative, decodeLiteral, N.parse_display n h hnegative]
    | true =>
      simp [literalTokens, hnegative, decodeLiteral, N.parse_display _ (N.isFinite_abs n h) (N.isNegative_abs n h),
        N.neg_abs n hnegative]
  | str s => rfl

theorem lexed_literal {literal : Literal F} (hfinite : literal.Finite N) {text : String} (h : renderLiteral N literal = .ok text) :
    Lexed text (literalTokens N literal) := by
  cases literal with
  | bool b =>
    cases h
    cases b with
    | false => exact .of_lex (a := "FALSE") (by decide) (show lex "FALSE" = some [word "FALSE"] by decide)
    | true => exact .of_lex (a := "TRUE") (by decide) (show lex "TRUE" = some [word "TRUE"] by decide)
  | num n =>
    cases h
    cases hnegative : N.isNegative n with
    | true =>
      rw [N.display_negative n hfinite hnegative, literalTokens, if_pos hnegative]
      exact lexed_negative (N.display_decimal _ (N.isFinite_abs n hfinite) (N.isNegative_abs n hfinite))
    | false =>
      rw [literalTokens, if_neg (Bool.eq_false_iff.mp hnegative)]
      exact lexed_decimal (N.display_decimal n hfinite hnegative)
  | str s =>
    rw [renderLiteral] at h
    split_ifs at h
    cases h
    exact lexed_string s

/-! ## Conditions and measures -/

def conditionTokens (N : FloatText F) (cond : Condition F) : List Token :=
  nameTokens cond.column ++ [symbol "="] ++ literalTokens N cond.equals

theorem lexed_condition {cond : Condition F} (hfinite : cond.equals.Finite N) {text : String}
    (h : renderCondition N cond = .ok text) :
    Lexed text (conditionTokens N cond) ∧ validIdent cond.column = true := by
  obtain ⟨_, hcheck, h⟩ := Checks.bind_ok h
  obtain ⟨literal, hliteral, h⟩ := Checks.bind_ok h
  cases h
  have hvalid := validIdent_of_check hcheck
  have hequals : Frame " = " [symbol "="] := .of_tokens (by decide)
  exact ⟨((lexed_ident hvalid).frame_append hequals (by decide)).lexed_append (lexed_literal hfinite hliteral), hvalid⟩

/-- Conditions that are rendered with a frame between them. -/
theorem lexed_conditions {conds : List (Condition F)} (hfinite : ∀ cond ∈ conds, cond.equals.Finite N) {texts : List String}
    (h : conds.mapM (renderCondition N) = .ok texts) {sep : String} {us : List Token} (hsep : Frame sep us)
    (hb : sep.toList.head?.any isDelimiter = true) :
    Lexed (sep.intercalate texts) (us.intercalate (conds.map (conditionTokens N))) ∧ (texts = [] ↔ conds = []) ∧
      ∀ cond ∈ conds, validIdent cond.column = true := by
  obtain ⟨rfl, hall⟩ := Checks.mapM_ok h
  refine ⟨Lexed.intercalate hsep hb _ _ conds fun cond hcond => (lexed_condition (hfinite cond hcond) (hall cond hcond)).1, ?_,
    fun cond hcond => (lexed_condition (hfinite cond hcond) (hall cond hcond)).2⟩
  exact List.map_eq_nil_iff

def Term.conds (term : Term F) : List (Condition F) := term.condition.toList ++ term.conditions

/-- The columns of a term; `*` is none. -/
def Term.columns (term : Term F) : List String := (if term.column = "*" then [] else [term.column]) ++ term.conds.map (·.column)

def termTokens (N : FloatText F) (term : Term F) : List Token :=
  let conds := [word "AND"].intercalate (term.conds.map (conditionTokens N))
  if term.column = "*" then
    [word "COUNT", symbol "(", symbol "*", symbol ")"] ++
      if term.conds = [] then [] else [word "FILTER", symbol "(", word "WHERE"] ++ conds ++ [symbol ")"]
  else if term.conds = [] then
    [word "SUM", symbol "(", word "CAST", symbol "("] ++ nameTokens term.column ++
      [word "AS", word "DOUBLE", symbol ")", symbol ")"]
  else
    [word "SUM", symbol "(", word "CASE", word "WHEN"] ++ conds ++ [word "THEN", word "CAST", symbol "("] ++
      nameTokens term.column ++ [word "AS", word "DOUBLE", symbol ")", word "ELSE", number "0", word "END", symbol ")"]

theorem lexed_term {term : Term F} (hfinite : ∀ cond ∈ term.conds, cond.equals.Finite N) {text : String}
    (h : renderTerm N term = .ok text) : Lexed text (termTokens N term) ∧ ∀ name ∈ term.columns, validIdent name = true := by
  obtain ⟨texts, htexts, h⟩ := Checks.bind_ok h
  have hand : Frame " AND " [word "AND"] := .of_tokens (by decide)
  obtain ⟨hconds, hnone, hvalid⟩ := lexed_conditions hfinite htexts hand (by decide)
  have hcolumns : ∀ name ∈ term.conds.map (·.column), validIdent name = true := by
    intro name hname
    obtain ⟨cond, hcond, rfl⟩ := List.mem_map.mp hname
    exact hvalid cond hcond
  have hclose : Frame ")" [symbol ")"] := .of_tokens (by decide)
  unfold termTokens Term.columns
  dsimp only at h ⊢
  split at h
  · next hstar =>
    rw [if_pos hstar, if_pos hstar]
    refine ⟨?_, hcolumns⟩
    by_cases hempty : term.conds = []
    · rw [if_pos (hnone.mpr hempty)] at h
      cases h
      rw [if_pos hempty]
      exact .of_lex (by decide) (by decide)
    · rw [if_neg (mt hnone.mp hempty)] at h
      cases h
      rw [if_neg hempty]
      have hfilter : Frame "COUNT(*) FILTER (WHERE " [word "COUNT", symbol "(", symbol "*", symbol ")", word "FILTER",
          symbol "(", word "WHERE"] := .of_tokens (by decide)
      simpa [List.append_assoc] using ((hfilter.lexed_append hconds).frame_append hclose (by decide)).lexed
  · next hstar =>
    obtain ⟨_, hcheck, h⟩ := Checks.bind_ok h
    have hcolumn := validIdent_of_check hcheck
    rw [if_neg hstar, if_neg hstar]
    refine ⟨?_, List.forall_mem_cons.mpr ⟨hcolumn, hcolumns⟩⟩
    by_cases hempty : term.conds = []
    · rw [if_pos (hnone.mpr hempty)] at h
      cases h
      rw [if_pos hempty]
      have hcast : Frame "SUM(CAST(" [word "SUM", symbol "(", word "CAST", symbol "("] := .of_tokens (by decide)
      have hdouble : Frame " AS DOUBLE))" [word "AS", word "DOUBLE", symbol ")", symbol ")"] := .of_tokens (by decide)
      exact ((hcast.lexed_append (lexed_ident hcolumn)).frame_append hdouble (by decide)).lexed
    · rw [if_neg (mt hnone.mp hempty)] at h
      cases h
      rw [if_neg hempty]
      have hwhen : Frame "SUM(CASE WHEN " [word "SUM", symbol "(", word "CASE", word "WHEN"] := .of_tokens (by decide)
      have hthen : Frame " THEN CAST(" [word "THEN", word "CAST", symbol "("] := .of_tokens (by decide)
      have helse : Frame " AS DOUBLE) ELSE 0 END)" [word "AS", word "DOUBLE", symbol ")", word "ELSE", number "0",
          word "END", symbol ")"] := .of_tokens (by decide)
      exact ((((hwhen.lexed_append hconds).frame_append hthen (by decide)).lexed_append (lexed_ident hcolumn)).frame_append helse
        (by decide)).lexed

def measureTokens (N : FloatText F) : Measure F → List Token
  | .count => [word "COUNT", symbol "(", symbol "*", symbol ")"]
  | .sum column => [word "SUM", symbol "("] ++ nameTokens column ++ [symbol ")"]
  | .avg column => [word "AVG", symbol "("] ++ nameTokens column ++ [symbol ")"]
  | .countDistinct column => [word "COUNT", symbol "(", word "DISTINCT"] ++ nameTokens column ++ [symbol ")"]
  | .rate num den =>
    termTokens N num ++ [symbol "/", word "NULLIF", symbol "("] ++ termTokens N den ++ [symbol ",", number "0", symbol ")"]

def Measure.columns : Measure F → List String
  | .count => []
  | .sum column | .avg column | .countDistinct column => [column]
  | .rate num den => num.columns ++ den.columns

/-- The conditions within a measure. -/
def Measure.conds : Measure F → List (Condition F)
  | .rate num den => num.conds ++ den.conds
  | _ => []

/-- A division, which is made of operator characters of which a comment could be made. -/
theorem frame_slash : Frame " / " [symbol "/"] := fun rest => by
  have hblank : ∀ cs, Reads ([' '] ++ cs) [] cs := fun cs => .one (by decide) rfl
  have hslash : Reads (['/'] ++ ' ' :: rest) [symbol "/"] (' ' :: rest) := .one (by decide) rfl
  exact (hblank _).trans (hslash.trans (hblank rest))

theorem frame_slashes : Frame " // " [symbol "//"] := fun rest => by
  have hblank : ∀ cs, Reads ([' '] ++ cs) [] cs := fun cs => .one (by decide) rfl
  have hslashes : Reads (['/', '/'] ++ ' ' :: rest) [symbol "//"] (' ' :: rest) := .one (by decide) rfl
  exact (hblank _).trans (hslashes.trans (hblank rest))

/-- An aggregate of one column. -/
theorem lexed_aggregate {column before : String} {ts : List Token} (hbefore : Frame before ts) {u : Unit}
    (h : checkIdent column = .ok u) :
    Lexed (before ++ column ++ ")") (ts ++ nameTokens column ++ [symbol ")"]) ∧ ∀ name ∈ [column], validIdent name = true := by
  have hvalid := validIdent_of_check h
  have hclose : Frame ")" [symbol ")"] := .of_tokens (by decide)
  refine ⟨((hbefore.lexed_append (lexed_ident hvalid)).frame_append hclose (by decide)).lexed, fun name hname => ?_⟩
  exact List.mem_singleton.mp hname ▸ hvalid

theorem lexed_measure {measure : Measure F} (hfinite : ∀ cond ∈ measure.conds, cond.equals.Finite N) {text : String}
    (h : renderMeasure N measure = .ok text) :
    Lexed text (measureTokens N measure) ∧ ∀ name ∈ measure.columns, validIdent name = true := by
  cases measure with
  | count =>
    cases h
    exact ⟨.of_lex (by decide) (show lex "COUNT(*)" = some [word "COUNT", symbol "(", symbol "*", symbol ")"] by decide),
      fun name hname => absurd hname List.not_mem_nil⟩
  | sum column =>
    obtain ⟨_, hcheck, h⟩ := Checks.bind_ok h
    cases h
    exact lexed_aggregate (.of_tokens (a := "SUM(") (by decide)) hcheck
  | avg column =>
    obtain ⟨_, hcheck, h⟩ := Checks.bind_ok h
    cases h
    exact lexed_aggregate (.of_tokens (a := "AVG(") (by decide)) hcheck
  | countDistinct column =>
    obtain ⟨_, hcheck, h⟩ := Checks.bind_ok h
    cases h
    exact lexed_aggregate (.of_tokens (a := "COUNT(DISTINCT ") (by decide)) hcheck
  | rate num den =>
    obtain ⟨numText, hnum, h⟩ := Checks.bind_ok h
    obtain ⟨denText, hden, h⟩ := Checks.bind_ok h
    cases h
    obtain ⟨hnumLexed, hnumColumns⟩ := lexed_term (fun cond hcond => hfinite cond (List.mem_append_left _ hcond)) hnum
    obtain ⟨hdenLexed, hdenColumns⟩ := lexed_term (fun cond hcond => hfinite cond (List.mem_append_right _ hcond)) hden
    have hslash : Frame (" / " ++ "NULLIF(") ([symbol "/"] ++ [word "NULLIF", symbol "("]) :=
      frame_slash.append (.of_tokens (by decide))
    have hzero : Frame ", 0)" [symbol ",", number "0", symbol ")"] := .of_tokens (by decide)
    refine ⟨(((hnumLexed.frame_append hslash (by decide)).lexed_append hdenLexed).frame_append hzero (by decide)).lexed, ?_⟩
    intro name hname
    rcases List.mem_append.mp hname with hname | hname
    · exact hnumColumns name hname
    · exact hdenColumns name hname

/-! ## Queries -/

section

variable (N) (metric : MetricDef F) (groupBy : List String) (timeRange : Option (Int × Int))

/-- The conditions on the rows, each with its tokens. -/
def whereTokens : List Token :=
  let conds := metric.condition.toList.map (conditionTokens N) ++
    match timeRange with
    | some (start, stop) =>
      [nameTokens metric.timeCol ++ [symbol ">="] ++ intTokens start, nameTokens metric.timeCol ++ [symbol "<"] ++ intTokens stop]
    | none => []
  if conds = [] then [] else [word "WHERE"] ++ [word "AND"].intercalate conds

/-- Names with commas between them. -/
def namesTokens (names : List String) : List Token := [symbol ","].intercalate (names.map nameTokens)

/-- What a query is to consist of. -/
def queryTokens : List Token :=
  let dims := metric.dimensions ++ groupBy
  [word "SELECT"] ++ (if dims = [] then [] else namesTokens dims ++ [symbol ","]) ++ measureTokens N metric.measure ++
    [word "AS", word "value", word "FROM"] ++ nameTokens metric.sourceTable ++ whereTokens N metric timeRange ++
    if dims = [] then [] else [word "GROUP", word "BY"] ++ namesTokens dims ++ [word "ORDER", word "BY"] ++ namesTokens dims

/-- What a query of buckets is to consist of. -/
def bucketedTokens (bucketNs : Int) : List Token :=
  [word "SELECT", symbol "("] ++ nameTokens metric.timeCol ++ [symbol "//"] ++ intTokens bucketNs ++ [symbol ")", symbol "*"] ++
    intTokens bucketNs ++ [symbol "//", number "1000000000", word "AS", word "bucket_s"] ++
    (if groupBy = [] then [] else [symbol ","] ++ namesTokens groupBy) ++ [symbol ","] ++ measureTokens N metric.measure ++
    [word "AS", word "value", word "FROM"] ++ nameTokens metric.sourceTable ++ whereTokens N metric timeRange ++
    if groupBy = [] then [word "GROUP", word "BY", word "bucket_s", word "ORDER", word "BY", word "bucket_s"]
    else
      [word "GROUP", word "BY", word "bucket_s", symbol ","] ++ namesTokens groupBy ++
        [word "ORDER", word "BY", word "bucket_s", symbol ","] ++ namesTokens groupBy

/-- The names that a query is made of. -/
def MetricDef.names : List String :=
  metric.sourceTable :: metric.timeCol :: (metric.dimensions ++ groupBy ++ metric.measure.columns ++
    metric.condition.toList.map (·.column))

/-- The values of a definition. -/
def MetricDef.literals : List (Literal F) := (metric.measure.conds ++ metric.condition.toList).map (·.equals)

end

section

variable {metric : MetricDef F} {groupBy : List String} {timeRange : Option (Int × Int)}

theorem frame_comma : Frame ", " [symbol ","] := .of_tokens (by decide)

theorem lexed_names {names : List String} (h : ∀ name ∈ names, validIdent name = true) :
    Lexed (", ".intercalate names) (namesTokens names) := by
  have hnames := Lexed.intercalate frame_comma (by decide) id nameTokens names fun name hname => lexed_ident (h name hname)
  rwa [List.map_id] at hnames

/-- A bound of the time. -/
theorem lexed_bound {column sep op : String} (hcolumn : validIdent column = true) (hsep : Frame sep [symbol op])
    (hb : sep.toList.head?.any isDelimiter = true) (n : Int) :
    Lexed (column ++ sep ++ toString n) (nameTokens column ++ [symbol op] ++ intTokens n) :=
  ((lexed_ident hcolumn).frame_append hsep hb).lexed_append (lexed_int n)

theorem lexed_wheres (hfinite : ∀ cond ∈ metric.condition.toList, cond.equals.Finite N) (htime : validIdent metric.timeCol = true)
    {wheres : List String} (h : renderWheres N metric timeRange = .ok wheres) :
    Lexed (whereSql wheres) (whereTokens N metric timeRange) ∧ Bounded (whereSql wheres).toList ∧
      ∀ name ∈ metric.condition.toList.map (·.column), validIdent name = true := by
  obtain ⟨texts, htexts, h⟩ := Checks.bind_ok h
  obtain ⟨rfl, hall⟩ := Checks.mapM_ok htexts
  -- every condition with its tokens
  obtain ⟨items, rfl, htokens, hlexed⟩ : ∃ items : List (String × List Token), wheres = items.map (·.1) ∧
      whereTokens N metric timeRange =
        (if items.map (·.2) = [] then [] else [word "WHERE"] ++ [word "AND"].intercalate (items.map (·.2))) ∧
      ∀ item ∈ items, Lexed item.1 item.2 := by
    let conds := metric.condition.toList.map fun cond => ((renderCondition N cond).toOption.getD default, conditionTokens N cond)
    have hconds : ∀ item ∈ conds, Lexed item.1 item.2 := by
      intro item hitem
      obtain ⟨cond, hcond, rfl⟩ := List.mem_map.mp hitem
      exact (lexed_condition (hfinite cond hcond) (hall cond hcond)).1
    cases timeRange with
    | none =>
      cases h
      exact ⟨conds, by simp [conds, Function.comp_def], by simp [conds, whereTokens, Function.comp_def], hconds⟩
    | some range =>
      obtain ⟨start, stop⟩ := range
      cases h
      have hfrom : Frame " >= " [symbol ">="] := .of_tokens (by decide)
      have hbelow : Frame " < " [symbol "<"] := .of_tokens (by decide)
      have hstart := lexed_bound htime hfrom (by decide) start
      have hstop := lexed_bound htime hbelow (by decide) stop
      let bounds := [(metric.timeCol ++ " >= " ++ toString start, nameTokens metric.timeCol ++ [symbol ">="] ++ intTokens start),
        (metric.timeCol ++ " < " ++ toString stop, nameTokens metric.timeCol ++ [symbol "<"] ++ intTokens stop)]
      have hbounds : ∀ item ∈ bounds, Lexed item.1 item.2 :=
        List.forall_mem_cons.mpr ⟨hstart, List.forall_mem_singleton.mpr hstop⟩
      refine ⟨conds ++ bounds, ?_, ?_, List.forall_mem_append.mpr ⟨hconds, hbounds⟩⟩
      · simp [conds, bounds, Function.comp_def]
      · simp [conds, bounds, whereTokens, Function.comp_def]
  refine ⟨?_, ?_, fun name hname => ?_⟩
  · rw [htokens, whereSql]
    have hnone : items.map (·.2) = [] ↔ items.map (·.1) = [] := by rw [List.map_eq_nil_iff, List.map_eq_nil_iff]
    simp only [hnone]
    split
    · exact lexed_empty
    · have hwhere : Frame "\nWHERE " [word "WHERE"] := .of_tokens (by decide)
      exact hwhere.lexed_append (Lexed.intercalate (.of_tokens (by decide)) (by decide) _ _ items hlexed)
  · unfold whereSql
    split
    · exact bounded_nil
    · rw [String.toList_append]
      exact bounded_cons (by decide) _
  · obtain ⟨cond, hcond, rfl⟩ := List.mem_map.mp hname
    exact (lexed_condition (hfinite cond hcond) (hall cond hcond)).2

/-- What a definition is checked for. -/
theorem names_of_validate (hfinite : ∀ cond ∈ metric.measure.conds, cond.equals.Finite N) {u : Unit}
    (h : validate N metric = .ok u) :
    validIdent metric.sourceTable = true ∧ validIdent metric.timeCol = true ∧ (∀ name ∈ metric.dimensions, validIdent name = true) ∧
      ∀ name ∈ metric.measure.columns, validIdent name = true := by
  obtain ⟨_, -, h⟩ := Checks.bind_ok h
  obtain ⟨_, htable, h⟩ := Checks.bind_ok h
  obtain ⟨_, htime, h⟩ := Checks.bind_ok h
  obtain ⟨_, hdims, h⟩ := Checks.bind_ok h
  obtain ⟨_, hmeasure, -⟩ := Checks.bind_ok h
  exact ⟨validIdent_of_check htable, validIdent_of_check htime,
    fun name hname => validIdent_of_check (Checks.forM_ok hdims name hname), (lexed_measure hfinite hmeasure).2⟩

/-- The definition's numbers are finite. -/
def MetricDef.Finite (N : FloatText F) (metric : MetricDef F) : Prop := ∀ literal ∈ metric.literals, literal.Finite N

theorem MetricDef.Finite.measure (h : metric.Finite N) : ∀ cond ∈ metric.measure.conds, cond.equals.Finite N :=
  fun _ hcond => h _ (List.mem_map_of_mem (List.mem_append_left _ hcond))

theorem MetricDef.Finite.condition (h : metric.Finite N) : ∀ cond ∈ metric.condition.toList, cond.equals.Finite N :=
  fun _ hcond => h _ (List.mem_map_of_mem (List.mem_append_right _ hcond))

/-- The names that were checked are those the query is made of. -/
theorem names_valid (htable : validIdent metric.sourceTable = true) (htime : validIdent metric.timeCol = true)
    (hdims : ∀ name ∈ metric.dimensions, validIdent name = true) (hgroup : ∀ name ∈ groupBy, validIdent name = true)
    (hcolumns : ∀ name ∈ metric.measure.columns, validIdent name = true)
    (hconds : ∀ name ∈ metric.condition.toList.map (·.column), validIdent name = true) :
    ∀ name ∈ metric.names groupBy, validIdent name = true := by
  unfold MetricDef.names
  simp only [List.forall_mem_cons, List.forall_mem_append]
  exact ⟨htable, htime, ⟨⟨hdims, hgroup⟩, hcolumns⟩, hconds⟩

/-- The names before the measure. -/
theorem frame_dims {dims : List String} (h : ∀ name ∈ dims, validIdent name = true) :
    Frame (if dims = [] then "" else ", ".intercalate dims ++ ", ")
      (if dims = [] then [] else namesTokens dims ++ [symbol ","]) := by
  split
  · exact frame_empty
  · exact (lexed_names h).frame_append frame_comma (by decide)

/-- The names that rows are grouped and ordered by. -/
theorem lexed_groups {group order : String} {ts us : List Token} (hgroup : Frame group ts) (horder : Frame order us)
    (hb : order.toList.head?.any isDelimiter = true) {dims : List String} (h : ∀ name ∈ dims, validIdent name = true) :
    Lexed (group ++ ", ".intercalate dims ++ order ++ ", ".intercalate dims) (ts ++ namesTokens dims ++ us ++ namesTokens dims) :=
  ((hgroup.lexed_append (lexed_names h)).frame_append horder hb).lexed_append (lexed_names h)

theorem frame_from : Frame " AS value\nFROM " [word "AS", word "value", word "FROM"] := .of_tokens (by decide)

theorem toSql_lexed (hfinite : metric.Finite N) {sql : String} (h : toSql N metric groupBy timeRange = .ok sql) :
    Lexed sql (queryTokens N metric groupBy timeRange) ∧ ∀ name ∈ metric.names groupBy, validIdent name = true := by
  obtain ⟨_, hvalidate, h⟩ := Checks.bind_ok h
  obtain ⟨_, hgroups, h⟩ := Checks.bind_ok h
  obtain ⟨measureSql, hmeasureSql, h⟩ := Checks.bind_ok h
  obtain ⟨wheres, hwheres, h⟩ := Checks.bind_ok h
  cases h
  obtain ⟨htable, htime, hdims, hcolumns⟩ := names_of_validate hfinite.measure hvalidate
  have hgroup : ∀ name ∈ groupBy, validIdent name = true := fun name hname =>
    validIdent_of_check (Checks.forM_ok hgroups name hname)
  obtain ⟨hwhere, hbounded, hconds⟩ := lexed_wheres hfinite.condition htime hwheres
  have hall := List.forall_mem_append.mpr ⟨hdims, hgroup⟩
  have hselect : Frame "SELECT " [word "SELECT"] := .of_tokens (by decide)
  have htail : Lexed (if metric.dimensions ++ groupBy = [] then "" else "\nGROUP BY " ++
      ", ".intercalate (metric.dimensions ++ groupBy) ++ "\nORDER BY " ++ ", ".intercalate (metric.dimensions ++ groupBy))
      (if metric.dimensions ++ groupBy = [] then [] else [word "GROUP", word "BY"] ++
        namesTokens (metric.dimensions ++ groupBy) ++ [word "ORDER", word "BY"] ++ namesTokens (metric.dimensions ++ groupBy)) := by
    split
    · exact lexed_empty
    · exact lexed_groups (.of_tokens (by decide)) (.of_tokens (by decide)) (by decide) hall
  have htailBounded : Bounded (if metric.dimensions ++ groupBy = [] then "" else "\nGROUP BY " ++
      ", ".intercalate (metric.dimensions ++ groupBy) ++ "\nORDER BY " ++
      ", ".intercalate (metric.dimensions ++ groupBy)).toList := by
    split
    · exact bounded_nil
    · simp only [String.toList_append]
      exact bounded_cons (by decide) _
  have hmeasure := (hselect.append (frame_dims hall)).lexed_append (lexed_measure hfinite.measure hmeasureSql).1
  have hsource := (hmeasure.frame_append frame_from (by decide)).lexed_append (lexed_ident htable)
  exact ⟨(hsource.append hwhere hbounded).append htail htailBounded, names_valid htable htime hdims hgroup hcolumns hconds⟩

theorem toSqlBucketed_lexed (hfinite : metric.Finite N) {bucketNs : Int} {sql : String}
    (h : toSqlBucketed N metric bucketNs groupBy timeRange = .ok sql) :
    Lexed sql (bucketedTokens N metric groupBy timeRange bucketNs) ∧ ∀ name ∈ metric.names groupBy, validIdent name = true := by
  obtain ⟨_, hvalidate, h⟩ := Checks.bind_ok h
  by_cases hbucket : bucketNs ≤ 0
  · simp only [if_pos hbucket] at h
    nomatch h
  simp only [if_neg hbucket] at h
  obtain ⟨_, hgroups, h⟩ := Checks.bind_ok h
  obtain ⟨measureSql, hmeasureSql, h⟩ := Checks.bind_ok h
  obtain ⟨wheres, hwheres, h⟩ := Checks.bind_ok h
  cases h
  obtain ⟨htable, htime, hdims, hcolumns⟩ := names_of_validate hfinite.measure hvalidate
  have hgroup : ∀ name ∈ groupBy, validIdent name = true := fun name hname =>
    validIdent_of_check (Checks.forM_ok hgroups name hname)
  obtain ⟨hwhere, hbounded, hconds⟩ := lexed_wheres hfinite.condition htime hwheres
  have hopen : Frame "SELECT (" [word "SELECT", symbol "("] := .of_tokens (by decide)
  have htimes : Frame ") * " [symbol ")", symbol "*"] := .of_tokens (by decide)
  have hseconds : Lexed (" // " ++ "1000000000 AS bucket_s") ([symbol "//"] ++ [number "1000000000", word "AS", word "bucket_s"]) :=
    frame_slashes.lexed_append (.of_lex (by decide) (by decide))
  have hdimsLexed : Lexed (if groupBy = [] then "" else ", " ++ ", ".intercalate groupBy)
      (if groupBy = [] then [] else [symbol ","] ++ namesTokens groupBy) := by
    split
    · exact lexed_empty
    · exact frame_comma.lexed_append (lexed_names hgroup)
  have hdimsBounded : Bounded (if groupBy = [] then "" else ", " ++ ", ".intercalate groupBy).toList := by
    split
    · exact bounded_nil
    · rw [String.toList_append]
      exact bounded_cons (by decide) _
  have htail : Lexed (if groupBy = [] then "\nGROUP BY bucket_s\nORDER BY bucket_s" else "\nGROUP BY bucket_s, " ++
      ", ".intercalate groupBy ++ "\nORDER BY bucket_s, " ++ ", ".intercalate groupBy)
      (if groupBy = [] then [word "GROUP", word "BY", word "bucket_s", word "ORDER", word "BY", word "bucket_s"]
      else [word "GROUP", word "BY", word "bucket_s", symbol ","] ++ namesTokens groupBy ++
        [word "ORDER", word "BY", word "bucket_s", symbol ","] ++ namesTokens groupBy) := by
    split
    · exact .of_lex (by decide) (by decide)
    · exact lexed_groups (.of_tokens (by decide)) (.of_tokens (by decide)) (by decide) hgroup
  have htailBounded : Bounded (if groupBy = [] then "\nGROUP BY bucket_s\nORDER BY bucket_s" else "\nGROUP BY bucket_s, " ++
      ", ".intercalate groupBy ++ "\nORDER BY bucket_s, " ++ ", ".intercalate groupBy).toList := by
    split
    · exact bounded_cons (by decide) _
    · simp only [String.toList_append]
      exact bounded_cons (by decide) _
  have hstart := (((hopen.lexed_append (lexed_ident htime)).frame_append frame_slashes (by decide)).lexed_append
    (lexed_int bucketNs)).frame_append htimes (by decide)
  have hseries := (hstart.lexed_append (lexed_int bucketNs)).append hseconds (bounded_cons (by decide) _)
  have hmeasure := ((hseries.append hdimsLexed hdimsBounded).frame_append frame_comma (by decide)).lexed_append
    (lexed_measure hfinite.measure hmeasureSql).1
  have hsource := (hmeasure.frame_append frame_from (by decide)).lexed_append (lexed_ident htable)
  refine ⟨?_, names_valid htable htime hdims hgroup hcolumns hconds⟩
  have hquery := (hsource.append hwhere hbounded).append htail htailBounded
  unfold bucketedTokens
  simpa [List.append_assoc] using hquery

/-- The text of a query that is compiled has exactly the tokens it is to consist of: every name was checked and consists of words,
numbers and dots, and the tokens of a literal stand for its value. -/
theorem metric_sql_tokens (N : FloatText F) (metric : MetricDef F) (groupBy : List String) (timeRange : Option (Int × Int))
    (bucketNs : Int) (hfinite : metric.Finite N) :
    (∀ sql, toSql N metric groupBy timeRange = .ok sql → lex sql = some (queryTokens N metric groupBy timeRange) ∧
        ∀ name ∈ metric.names groupBy, validIdent name = true ∧ ∀ t ∈ nameTokens name, t.OfName) ∧
      (∀ sql, toSqlBucketed N metric bucketNs groupBy timeRange = .ok sql →
        lex sql = some (bucketedTokens N metric groupBy timeRange bucketNs) ∧
          ∀ name ∈ metric.names groupBy, validIdent name = true ∧ ∀ t ∈ nameTokens name, t.OfName) ∧
      ∀ literal ∈ metric.literals, decodeLiteral N (literalTokens N literal) = some literal := by
  have hname : ∀ name, validIdent name = true → ∀ t ∈ nameTokens name, t.OfName := fun name hvalid =>
    (lexed_name (isNameChar_of_validIdent hvalid)).2
  refine ⟨fun sql h => ?_, fun sql h => ?_, fun literal hliteral => decode_literalTokens (hfinite literal hliteral)⟩
  · obtain ⟨hlexed, hvalid⟩ := toSql_lexed hfinite h
    exact ⟨hlexed.lex_eq, fun name hmem => ⟨hvalid name hmem, hname name (hvalid name hmem)⟩⟩
  · obtain ⟨hlexed, hvalid⟩ := toSqlBucketed_lexed hfinite h
    exact ⟨hlexed.lex_eq, fun name hmem => ⟨hvalid name hmem, hname name (hvalid name hmem)⟩⟩

end

/-- Whole numbers. -/
def wholeNumbers : FloatText Int where
  display := toString
  parse := String.toInt?
  isFinite _ := true
  isNegative n := decide (n < 0)
  abs n := |n|
  neg n := -n
  display_decimal n _ hnonneg := by
    have h : 0 ≤ n := not_lt.mp (of_decide_eq_false hnonneg)
    rw [Int.toString_eq_repr, Int.repr_eq_if, if_pos h]
    exact decimal_repr n.toNat
  parse_display n _ _ := Int.toInt?_repr n
  display_negative n _ hnegative := by
    have h : n < 0 := of_decide_eq_true hnegative
    have habs : |n| = ((-n).toNat : Int) := by
      rw [abs_of_neg h]
      omega
    rw [habs, Int.toString_eq_repr, Int.repr_eq_if, if_neg (not_le.mpr h)]
    rfl
  isFinite_abs _ _ := rfl
  isNegative_abs n _ := decide_eq_false (not_lt.mpr (abs_nonneg n))
  neg_abs n hnegative := by rw [abs_of_neg (of_decide_eq_true hnegative), neg_neg]

/-- A count of the rows where a column is `-1`. -/
def negativeMetric : MetricDef Int := ⟨"drift", "spans", .count, [], "ts_ns", some ⟨"delta", .num (-1)⟩⟩

theorem metric_sql_tokens_negative :
    decodeLiteral wholeNumbers (literalTokens wholeNumbers (.num (-1))) = some (.num (-1)) :=
  (metric_sql_tokens wholeNumbers negativeMetric [] none 1 (by
    intro literal hliteral
    obtain rfl := List.mem_singleton.mp hliteral
    rfl)).2.2 (.num (-1)) (List.mem_singleton.mpr rfl)

/-- The sign of a number is a token of its own, and what is left is another number. -/
theorem metric_sql_negative_false :
    toSql wholeNumbers negativeMetric [] none = .ok "SELECT COUNT(*) AS value\nFROM spans\nWHERE delta = -1" ∧
      lex "SELECT COUNT(*) AS value\nFROM spans\nWHERE delta = -1" = some [word "SELECT", word "COUNT", symbol "(", symbol "*",
        symbol ")", word "AS", word "value", word "FROM", word "spans", word "WHERE", word "delta", symbol "=", symbol "-",
        number "1"] ∧
      wholeNumbers.parse "1" = some 1 := ⟨by decide, by decide, Nat.toInt?_repr 1⟩

end Tumult.Metrics
