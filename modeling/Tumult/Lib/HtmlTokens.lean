import Mathlib

/-!
# Tokens of HTML

The tokenizer of HTML as a machine that reads one character after another, with the text modes that start tags switch to. Values of
attributes are left as they are written, a doctype is not read, and comments inside scripts are not told apart from other raw text.
What character references stand for is a parameter.
-/

namespace HtmlTokens

/-- What character references stand for. -/
structure References where
  /-- The text for a name, which has its semicolon where it is written with one. -/
  named : List Char → Option (List Char)
  /-- The character for a number. -/
  numeric : Nat → Char
  named_nil : named [] = none
  named_length : ∀ {name text : List Char}, named name = some text → text.length ≤ name.length

inductive Token where
  | char (c : Char)
  | startTag (name : List Char) (attrs : List (List Char × List Char)) (selfClosing : Bool)
  | endTag (name : List Char)
  | comment
  | doctype
  deriving DecidableEq

def Token.isChar : Token → Bool
  | .char _ => true
  | _ => false

/-- How text is read. Raw text is read up to an end tag of the name that started it. -/
inductive Mode where
  | data
  | rcdata (tag : List Char)
  | rawtext (tag : List Char)
  | plaintext
  deriving DecidableEq

structure Tag where
  close : Bool
  name : List Char
  attrs : List (List Char × List Char)
  deriving DecidableEq

/-- Where in a tag the machine is. -/
inductive Phase where
  | name
  | between
  | attr (name : List Char)
  | afterAttr (name : List Char)
  | beforeValue (name : List Char)
  | value (name value : List Char) (quote : Option Char)
  | afterValue
  | slash
  deriving DecidableEq

inductive State where
  | text (m : Mode)
  /-- After an ampersand and the characters since. -/
  | reference (m : Mode) (seen : List Char)
  | less
  | lessSlash
  | rawLess (m : Mode)
  /-- After `</` in raw text and the letters since. -/
  | rawClose (m : Mode) (seen : List Char)
  | tag (t : Tag) (p : Phase)
  /-- After `<!` and the characters since. -/
  | bang (seen : List Char)
  | comment (seen : List Char)
  | bogus
  | doctype
  deriving DecidableEq

def isSpace (c : Char) : Bool := c = ' ' || c = '\n' || c = '\t' || c = '\x0c' || c = '\r'

def lower (cs : List Char) : List Char := cs.map Char.toLower

/-- The mode after a start tag. -/
def modeAfter (name : List Char) : Mode :=
  if name = "title".toList || name = "textarea".toList then .rcdata name
  else if name = "plaintext".toList then .plaintext
  else if name ∈ ["style".toList, "script".toList, "xmp".toList, "iframe".toList, "noembed".toList, "noframes".toList,
      "noscript".toList] then .rawtext name
  else .data

/-! ## Character references -/

/-- The reference goes on with this character. -/
def continues : List Char → Char → Bool
  | [], c => c = '#' || c.isAlphanum
  | ['#'], c => c.isDigit || c = 'x' || c = 'X'
  | '#' :: x :: _, c => if x = 'x' || x = 'X' then c.isDigit || ('a' ≤ c && c ≤ 'f') || ('A' ≤ c && c ≤ 'F') else c.isDigit
  | _, c => c.isAlphanum

def hexValue (c : Char) : Nat := if c.isDigit then c.toNat - 48 else c.toLower.toNat - 87

/-- The number that digits stand for. -/
def numberOf (base : Nat) (digits : List Char) : Nat := digits.foldl (fun n c => base * n + hexValue c) 0

/-- What is read for the characters after an ampersand: the longest name they begin with, or a number. -/
def resolve (R : References) : List Char → List Char
  | '#' :: rest =>
    let digits := rest.filter fun c => c ≠ ';' && c ≠ 'x' && c ≠ 'X'
    let hex := rest.head? = some 'x' || rest.head? = some 'X'
    if digits = [] then '&' :: '#' :: rest else [R.numeric (numberOf (if hex then 16 else 10) digits)]
  | seen => (seen.inits.reverse.findSome? fun name => (R.named name).map (· ++ seen.drop name.length)).getD ('&' :: seen)

/-! ## Steps -/

variable (R : References)

/-- A null is shown as a replacement character in raw text. -/
def shown (c : Char) : Char := if c = '\x00' then '\ufffd' else c

def textStep (m : Mode) (c : Char) : State × List Token :=
  match m with
  | .data => if c = '<' then (.less, []) else if c = '&' then (.reference m [], []) else (.text m, [.char c])
  | .rcdata _ => if c = '<' then (.rawLess m, []) else if c = '&' then (.reference m [], []) else (.text m, [.char (shown c)])
  | .rawtext _ => if c = '<' then (.rawLess m, []) else (.text m, [.char (shown c)])
  | .plaintext => (.text m, [.char (shown c)])

/-- The first of two attributes of a name counts. -/
def Tag.add (t : Tag) (name value : List Char) : Tag :=
  if name ∈ t.attrs.map Prod.fst then t else { t with attrs := t.attrs ++ [(name, value)] }

def emitTag (t : Tag) (selfClosing : Bool) : State × List Token :=
  if t.close then (.text .data, [.endTag t.name]) else (.text (modeAfter t.name), [.startTag t.name t.attrs selfClosing])

def betweenStep (t : Tag) (c : Char) : State × List Token :=
  if isSpace c then (.tag t .between, [])
  else if c = '/' then (.tag t .slash, [])
  else if c = '>' then emitTag t false
  else (.tag t (.attr [c.toLower]), [])

def afterAttrStep (t : Tag) (name : List Char) (c : Char) : State × List Token :=
  if isSpace c then (.tag t (.afterAttr name), [])
  else if c = '/' then (.tag (t.add name []) .slash, [])
  else if c = '=' then (.tag t (.beforeValue name), [])
  else if c = '>' then emitTag (t.add name []) false
  else (.tag (t.add name []) (.attr [c.toLower]), [])

def tagStep (t : Tag) (c : Char) : Phase → State × List Token
  | .name =>
    if isSpace c then (.tag t .between, [])
    else if c = '/' then (.tag t .slash, [])
    else if c = '>' then emitTag t false
    else (.tag { t with name := t.name ++ [shown c.toLower] } .name, [])
  | .between => betweenStep t c
  | .attr name =>
    if isSpace c || c = '/' || c = '>' then afterAttrStep t name c
    else if c = '=' then (.tag t (.beforeValue name), [])
    else (.tag t (.attr (name ++ [shown c.toLower])), [])
  | .afterAttr name => afterAttrStep t name c
  | .beforeValue name =>
    if isSpace c then (.tag t (.beforeValue name), [])
    else if c = '"' || c = '\'' then (.tag t (.value name [] (some c)), [])
    else if c = '>' then emitTag (t.add name []) false
    else (.tag t (.value name [shown c] none), [])
  | .value name value (some quote) =>
    if c = quote then (.tag (t.add name value) .afterValue, []) else (.tag t (.value name (value ++ [shown c]) (some quote)), [])
  | .value name value none =>
    if isSpace c then (.tag (t.add name value) .between, [])
    else if c = '>' then emitTag (t.add name value) false
    else (.tag t (.value name (value ++ [shown c]) none), [])
  | .afterValue => betweenStep t c
  | .slash => if c = '>' then emitTag t true else betweenStep t c

def bogusStep (c : Char) : State × List Token := if c = '>' then (.text .data, [.comment]) else (.bogus, [])

/-- The characters after `<!` tell a comment from a doctype and from what is neither. -/
def bangStep (seen : List Char) (c : Char) : State × List Token :=
  let seen := seen ++ [c]
  if seen = ['-', '-'] then (.comment [], [])
  else if lower seen = "doctype".toList then (.doctype, [])
  else if seen = ['-'] || lower seen <+: "doctype".toList then (.bang seen, [])
  else bogusStep c

/-- A comment ends with `-->` or `--!>`, at its start also with `>` or `->`. -/
def commentStep (seen : List Char) (c : Char) : State × List Token :=
  if c = '>' && (seen = [] || seen = ['-'] || ['-', '-'] <:+ seen || ['-', '-', '!'] <:+ seen) then (.text .data, [.comment])
  else (.comment (seen ++ [c]), [])

/-- The name of the end tag that ends a mode. -/
def Mode.tag : Mode → List Char
  | .rcdata tag | .rawtext tag => tag
  | .data | .plaintext => []

def rawCloseStep (m : Mode) (seen : List Char) (c : Char) : State × List Token :=
  if c.isAlpha then (.rawClose m (seen ++ [c]), [])
  else if lower seen = m.tag && isSpace c then (.tag ⟨true, lower seen, []⟩ .between, [])
  else if lower seen = m.tag && c = '/' then (.tag ⟨true, lower seen, []⟩ .slash, [])
  else if lower seen = m.tag && c = '>' then (.text .data, [.endTag (lower seen)])
  else ((textStep m c).1, ('<' :: '/' :: seen).map .char ++ (textStep m c).2)

/-- What one character does: the next state, and the tokens that it completes. -/
def step : State → Char → State × List Token
  | .text m, c => textStep m c
  | .reference m seen, c =>
    if continues seen c then (.reference m (seen ++ [c]), [])
    else if c = ';' then (.text m, (resolve R (seen ++ [c])).map .char)
    else ((textStep m c).1, (resolve R seen).map .char ++ (textStep m c).2)
  | .less, c =>
    if c = '!' then (.bang [], [])
    else if c = '/' then (.lessSlash, [])
    else if c.isAlpha then (.tag ⟨false, [c.toLower], []⟩ .name, [])
    else if c = '?' then (.bogus, [])
    else ((textStep .data c).1, .char '<' :: (textStep .data c).2)
  | .lessSlash, c =>
    if c.isAlpha then (.tag ⟨true, [c.toLower], []⟩ .name, [])
    else if c = '>' then (.text .data, [])
    else (.bogus, [])
  | .rawLess m, c =>
    if c = '/' then (.rawClose m [], []) else ((textStep m c).1, .char '<' :: (textStep m c).2)
  | .rawClose m seen, c => rawCloseStep m seen c
  | .tag t p, c => tagStep t c p
  | .bang seen, c => bangStep seen c
  | .comment seen, c => commentStep seen c
  | .bogus, c => bogusStep c
  | .doctype, c => if c = '>' then (.text .data, [.doctype]) else (.doctype, [])

/-- The tokens that the end of a page completes. -/
def finish : State → List Token
  | .text _ => []
  | .reference _ seen => (resolve R seen).map .char
  | .less | .rawLess _ => [.char '<']
  | .lessSlash => ['<', '/'].map .char
  | .rawClose _ seen => ('<' :: '/' :: seen).map .char
  | .tag _ _ => []
  | .bang _ | .comment _ | .bogus => [.comment]
  | .doctype => [.doctype]

def run (st : State) : List Char → State × List Token
  | [] => (st, [])
  | c :: cs => ((run (step R st c).1 cs).1, (step R st c).2 ++ (run (step R st c).1 cs).2)

/-- The tokens of what is left of a page. -/
def tokensFrom (st : State) (cs : List Char) : List Token := (run R st cs).2 ++ finish R (run R st cs).1

/-- A carriage return is a newline, together with a newline after it; the flag says that the last character was one. -/
def newlinesFrom : Bool → List Char → List Char
  | _, [] => []
  | after, c :: cs =>
    if c = '\r' then '\n' :: newlinesFrom true cs
    else if after && c = '\n' then newlinesFrom false cs
    else c :: newlinesFrom false cs

/-- The characters of a page as the machine receives them. -/
def newlines (cs : List Char) : List Char := newlinesFrom false cs

/-- The tokens of a page. -/
def tokenise (page : List Char) : List Token := tokensFrom R (.text .data) (newlines page)

/-! ## Newlines -/

theorem newlinesFrom_append {ys : List Char} (hys : ys.head? ≠ some '\n') (after : Bool) (xs : List Char) :
    newlinesFrom after (xs ++ ys) = newlinesFrom after xs ++ newlines ys := by
  induction xs generalizing after with
  | nil =>
    cases ys with
    | nil => rfl
    | cons y ys =>
      have hy : y ≠ '\n' := fun h => hys (by rw [h, List.head?_cons])
      simp [newlines, newlinesFrom, hy]
  | cons x xs ih =>
    simp only [List.cons_append, newlinesFrom, ih]
    split_ifs <;> rfl

/-- What is before a character that is not a newline does not matter to what follows. -/
theorem newlines_append {ys : List Char} (hys : ys.head? ≠ some '\n') (xs : List Char) :
    newlines (xs ++ ys) = newlines xs ++ newlines ys := newlinesFrom_append hys false xs

theorem newlines_cons {c : Char} (hc : c ≠ '\r') (cs : List Char) : newlines (c :: cs) = c :: newlines cs := by
  simp [newlines, newlinesFrom, hc]

theorem newlines_append_left {xs : List Char} (hxs : '\r' ∉ xs) (ys : List Char) : newlines (xs ++ ys) = xs ++ newlines ys := by
  induction xs with
  | nil => rfl
  | cons x xs ih =>
    obtain ⟨hx, hxs⟩ := not_or.1 (fun h => hxs (List.mem_cons.2 h))
    rw [List.cons_append, newlines_cons (Ne.symm hx), ih hxs, List.cons_append]

theorem not_mem_newlinesFrom (after : Bool) (cs : List Char) : '\r' ∉ newlinesFrom after cs := by
  induction cs generalizing after with
  | nil => simp [newlinesFrom]
  | cons c cs ih =>
    unfold newlinesFrom
    split_ifs with hreturn hskip
    · simp [ih true]
    · exact ih false
    · simp [ih false, Ne.symm hreturn]

theorem length_newlinesFrom_le (after : Bool) (cs : List Char) : (newlinesFrom after cs).length ≤ cs.length := by
  induction cs generalizing after with
  | nil => simp [newlinesFrom]
  | cons c cs ih =>
    have htrue := ih true
    have hfalse := ih false
    unfold newlinesFrom
    split_ifs <;> simp only [List.length_cons] <;> omega

theorem length_newlines_le (cs : List Char) : (newlines cs).length ≤ cs.length := length_newlinesFrom_le false cs

/-- The characters are received as they are exactly when there is no carriage return. -/
theorem newlines_eq_self_iff (cs : List Char) : newlines cs = cs ↔ '\r' ∉ cs := by
  constructor
  · intro h
    rw [← h]
    exact not_mem_newlinesFrom false cs
  · intro h
    have hleft := newlines_append_left h []
    rwa [List.append_nil, show newlines [] = [] from rfl, List.append_nil] at hleft

/-- An escape that leaves line breaks alone and writes none commutes with reading them. -/
theorem newlinesFrom_flatMap {f : Char → List Char} (hreturn : f '\r' = ['\r']) (hnewline : f '\n' = ['\n'])
    (hother : ∀ c, c ≠ '\r' → c ≠ '\n' → f c ≠ [] ∧ '\r' ∉ f c ∧ '\n' ∉ f c) (after : Bool) (cs : List Char) :
    newlinesFrom after (cs.flatMap f) = (newlinesFrom after cs).flatMap f := by
  induction cs generalizing after with
  | nil => rfl
  | cons c cs ih =>
    rw [List.flatMap_cons]
    by_cases hc : c = '\r'
    · subst hc
      simp [hreturn, hnewline, newlinesFrom, ih]
    · by_cases hn : c = '\n'
      · subst hn
        cases after <;> simp [hnewline, newlinesFrom, ih]
      · obtain ⟨hne, hr, hn'⟩ := hother c hc hn
        obtain ⟨d, ds, hfc⟩ := List.exists_cons_of_ne_nil hne
        rw [hfc, List.mem_cons, not_or] at hr hn'
        have hds := newlines_append_left hr.2 (cs.flatMap f)
        rw [newlines, newlines, ih false] at hds
        have hcons : newlinesFrom after (c :: cs) = c :: newlinesFrom false cs := by simp [newlinesFrom, hc, hn]
        have hdcons : newlinesFrom after (d :: (ds ++ cs.flatMap f)) = d :: newlinesFrom false (ds ++ cs.flatMap f) := by
          simp [newlinesFrom, Ne.symm hr.1, Ne.symm hn'.1]
        rw [hcons, List.flatMap_cons, hfc, List.cons_append, hdcons, hds, List.cons_append]

/-! ## Runs -/

variable {R}

theorem run_append (st : State) (xs ys : List Char) :
    run R st (xs ++ ys) = ((run R (run R st xs).1 ys).1, (run R st xs).2 ++ (run R (run R st xs).1 ys).2) := by
  induction xs generalizing st with
  | nil => rfl
  | cons x xs ih => simp only [List.cons_append, run, ih, List.append_assoc]

theorem run_append_of_eq {st st' st'' : State} {xs ys : List Char} {ts us : List Token} (hxs : run R st xs = (st', ts))
    (hys : run R st' ys = (st'', us)) : run R st (xs ++ ys) = (st'', ts ++ us) := by
  rw [run_append, hxs, hys]

theorem run_cons_of_eq {st st' st'' : State} {c : Char} {cs : List Char} {ts us : List Token} (hc : step R st c = (st', ts))
    (hcs : run R st' cs = (st'', us)) : run R st (c :: cs) = (st'', ts ++ us) := by
  simp only [run, hc, hcs]

theorem tokensFrom_append {st st' : State} {xs ys : List Char} {ts : List Token} (h : run R st xs = (st', ts)) :
    tokensFrom R st (xs ++ ys) = ts ++ tokensFrom R st' ys := by
  unfold tokensFrom
  rw [run_append, h, List.append_assoc]

theorem tokensFrom_cons (st : State) (c : Char) (cs : List Char) :
    tokensFrom R st (c :: cs) = (step R st c).2 ++ tokensFrom R (step R st c).1 cs := by
  unfold tokensFrom
  simp only [run, List.append_assoc]

/-- Text without markup is read as it is. -/
theorem run_plain {cs : List Char} (h : ∀ c ∈ cs, c ≠ '<' ∧ c ≠ '&') :
    run R (.text .data) cs = (.text .data, cs.map .char) := by
  induction cs with
  | nil => rfl
  | cons c cs ih =>
    obtain ⟨hc, hcs⟩ := List.forall_mem_cons.1 h
    have hstep : step R (.text .data) c = (.text .data, [.char c]) := by simp [step, textStep, hc.1, hc.2]
    simp only [run, hstep, ih hcs, List.map_cons, List.singleton_append]

/-- Raw text without tags is read as it is. -/
theorem run_rawtext {tag cs : List Char} (h : ∀ c ∈ cs, c ≠ '<' ∧ c ≠ '\x00') :
    run R (.text (.rawtext tag)) cs = (.text (.rawtext tag), cs.map .char) := by
  induction cs with
  | nil => rfl
  | cons c cs ih =>
    obtain ⟨hc, hcs⟩ := List.forall_mem_cons.1 h
    have hstep : step R (.text (.rawtext tag)) c = (.text (.rawtext tag), [.char c]) := by
      simp [step, textStep, shown, hc.1, hc.2]
    simp only [run, hstep, ih hcs, List.map_cons, List.singleton_append]

/-- A value in quotes goes on to its quote. -/
theorem run_value {t : Tag} {name value cs : List Char} {quote : Char} (h : ∀ c ∈ cs, c ≠ quote ∧ c ≠ '\x00') :
    run R (.tag t (.value name value (some quote))) cs = (.tag t (.value name (value ++ cs) (some quote)), []) := by
  induction cs generalizing value with
  | nil => simp [run]
  | cons c cs ih =>
    obtain ⟨hc, hcs⟩ := List.forall_mem_cons.1 h
    have hstep : step R (.tag t (.value name value (some quote))) c = (.tag t (.value name (value ++ [c]) (some quote)), []) := by
      simp [step, tagStep, shown, hc.1, hc.2]
    simp only [run, hstep, ih hcs, List.append_assoc, List.singleton_append, List.nil_append]

/-! ## Start tags that are read -/

/-- A character of the name of a tag or an attribute. -/
def isNameChar (c : Char) : Bool := c.isAlphanum || c = '-'

theorem isNameChar_ne {c : Char} (h : isNameChar c = true) :
    isSpace c = false ∧ c ≠ '/' ∧ c ≠ '>' ∧ c ≠ '=' ∧ shown c.toLower = c.toLower := by
  have hne : ∀ d : Char, isNameChar d = false → c ≠ d := by
    rintro d hd rfl
    rw [h] at hd
    cases hd
  refine ⟨?_, hne _ (by decide), hne _ (by decide), hne _ (by decide), ?_⟩
  · unfold isSpace
    simp [hne ' ' (by decide), hne '\n' (by decide), hne '\t' (by decide), hne '\x0c' (by decide), hne '\r' (by decide)]
  · have hnull : c.toLower ≠ '\x00' := by
      intro hc
      by_cases hupper : c.isUpper
      · have halpha : c.toLower.isAlpha = true := by simp [Char.isAlpha, hupper]
        rw [hc] at halpha
        cases halpha
      · rw [Char.toLower_eq_of_not_isUpper hupper] at hc
        exact hne _ (by decide) hc
    simp [shown, hnull]

/-- An attribute with its value in single quotes, after the name of a tag or another attribute. -/
def attrText (a : List Char × List Char) : List Char := ' ' :: (a.1 ++ ('=' :: '\'' :: (a.2 ++ ['\''])))

/-- The name and the value can be written as they are. -/
def AttrOk (a : List Char × List Char) : Prop :=
  a.1 ≠ [] ∧ (∀ c ∈ a.1, isNameChar c = true) ∧ ∀ c ∈ a.2, c ≠ '\'' ∧ c ≠ '\x00'

theorem run_attrName {t : Tag} {name cs : List Char} (h : ∀ c ∈ cs, isNameChar c = true) :
    run R (.tag t (.attr name)) cs = (.tag t (.attr (name ++ lower cs)), []) := by
  induction cs generalizing name with
  | nil => simp [run, lower]
  | cons c cs ih =>
    obtain ⟨hc, hcs⟩ := List.forall_mem_cons.1 h
    obtain ⟨hspace, hslash, hclose, heq, hshown⟩ := isNameChar_ne hc
    have hstep : step R (.tag t (.attr name)) c = (.tag t (.attr (name ++ [c.toLower])), []) := by
      simp [step, tagStep, hspace, hslash, hclose, heq, hshown]
    simp only [run, hstep, ih hcs, lower, List.map_cons, List.append_assoc, List.singleton_append, List.nil_append]

theorem run_attrText {t : Tag} {p : Phase} (hp : p = .name ∨ p = .afterValue) {a : List Char × List Char} (ha : AttrOk a)
    (hfresh : lower a.1 ∉ t.attrs.map Prod.fst) :
    run R (.tag t p) (attrText a) = (.tag { t with attrs := t.attrs ++ [(lower a.1, a.2)] } .afterValue, []) := by
  obtain ⟨name, value⟩ := a
  obtain ⟨hne, hname, hvalue⟩ := ha
  obtain ⟨c, cs, rfl⟩ := List.exists_cons_of_ne_nil hne
  obtain ⟨hc, hcs⟩ := List.forall_mem_cons.1 hname
  obtain ⟨hspace, hslash, hclose, -, -⟩ := isNameChar_ne hc
  have hblank : step R (.tag t p) ' ' = (.tag t .between, []) := by
    rcases hp with rfl | rfl <;> rfl
  have hfirst : step R (.tag t .between) c = (.tag t (.attr [c.toLower]), []) := by
    simp [step, tagStep, betweenStep, hspace, hslash, hclose]
  have hequals : step R (.tag t (.attr (lower (c :: cs)))) '=' = (.tag t (.beforeValue (lower (c :: cs))), []) := rfl
  have hopen : step R (.tag t (.beforeValue (lower (c :: cs)))) '\'' = (.tag t (.value (lower (c :: cs)) [] (some '\'')), []) := rfl
  have hquote : step R (.tag t (.value (lower (c :: cs)) value (some '\''))) '\'' =
      (.tag { t with attrs := t.attrs ++ [(lower (c :: cs), value)] } .afterValue, []) := by
    simp [step, tagStep, Tag.add, hfresh]
  exact run_cons_of_eq hblank (run_cons_of_eq hfirst (run_append_of_eq (run_attrName hcs) (run_cons_of_eq hequals
    (run_cons_of_eq hopen (run_append_of_eq (run_value hvalue) (run_cons_of_eq hquote rfl))))))

theorem run_attrTexts {t : Tag} {p : Phase} (hp : p = .name ∨ p = .afterValue) {attrs : List (List Char × List Char)}
    (hattrs : ∀ a ∈ attrs, AttrOk a) (hdistinct : (t.attrs.map Prod.fst ++ attrs.map fun a => lower a.1).Nodup) :
    ∃ p', (p' = .name ∨ p' = .afterValue) ∧ run R (.tag t p) (attrs.flatMap attrText) =
      (.tag { t with attrs := t.attrs ++ attrs.map fun a => (lower a.1, a.2) } p', []) := by
  induction attrs generalizing t p with
  | nil => exact ⟨p, hp, by simp [run]⟩
  | cons a attrs ih =>
    obtain ⟨ha, hattrs⟩ := List.forall_mem_cons.1 hattrs
    have hfresh : lower a.1 ∉ t.attrs.map Prod.fst := by
      intro hmem
      rw [List.map_cons, List.nodup_append] at hdistinct
      exact hdistinct.2.2 _ hmem _ List.mem_cons_self rfl
    obtain ⟨p', hp', hrun⟩ := ih (t := { t with attrs := t.attrs ++ [(lower a.1, a.2)] }) (p := .afterValue) (.inr rfl) hattrs (by
      simpa using hdistinct)
    refine ⟨p', hp', ?_⟩
    rw [List.flatMap_cons, run_append_of_eq (run_attrText hp ha hfresh) hrun]
    simp

/-- A start tag as it is written. -/
def openText (name : List Char) (attrs : List (List Char × List Char)) (selfClosing : Bool) : List Char :=
  '<' :: (name ++ (attrs.flatMap attrText ++ if selfClosing then ['/', '>'] else ['>']))

theorem run_tagName {t : Tag} {cs : List Char} (h : ∀ c ∈ cs, isNameChar c = true) :
    run R (.tag t .name) cs = (.tag { t with name := t.name ++ lower cs } .name, []) := by
  induction cs generalizing t with
  | nil => simp [run, lower]
  | cons c cs ih =>
    obtain ⟨hc, hcs⟩ := List.forall_mem_cons.1 h
    obtain ⟨hspace, hslash, hclose, -, hshown⟩ := isNameChar_ne hc
    have hstep : step R (.tag t .name) c = (.tag { t with name := t.name ++ [c.toLower] } .name, []) := by
      simp [step, tagStep, hspace, hslash, hclose, hshown]
    simp only [run, hstep, ih hcs, lower, List.map_cons, List.append_assoc, List.singleton_append, List.nil_append]

/-- A start tag that is written is read. -/
theorem run_openText {c : Char} {cs : List Char} (hc : c.isAlpha = true) (hcs : ∀ d ∈ cs, isNameChar d = true)
    (attrs : List (List Char × List Char)) (hattrs : ∀ a ∈ attrs, AttrOk a) (hdistinct : (attrs.map fun a => lower a.1).Nodup)
    (selfClosing : Bool) :
    run R (.text .data) (openText (c :: cs) attrs selfClosing) = (.text (modeAfter (lower (c :: cs))),
      [.startTag (lower (c :: cs)) (attrs.map fun a => (lower a.1, a.2)) selfClosing]) := by
  have hne : ∀ d : Char, d.isAlpha = false → c ≠ d := by
    rintro d hd rfl
    rw [hc] at hd
    cases hd
  have hless : step R (.text .data) '<' = (.less, []) := rfl
  have hfirst : step R .less c = (.tag ⟨false, [c.toLower], []⟩ .name, []) := by
    simp [step, hc, hne '!' (by decide), hne '/' (by decide)]
  obtain ⟨p, hp, hrun⟩ := run_attrTexts (R := R) (t := ⟨false, lower (c :: cs), []⟩) (p := .name) (.inl rfl) hattrs (by
    simpa using hdistinct)
  have hend : ∀ t : Tag, t.close = false → run R (.tag t p) (if selfClosing then ['/', '>'] else ['>']) =
      (.text (modeAfter t.name), [.startTag t.name t.attrs selfClosing]) := by
    rintro ⟨close, name, as⟩ rfl
    rcases hp with rfl | rfl <;> cases selfClosing <;> rfl
  exact run_cons_of_eq hless (run_cons_of_eq hfirst (run_append_of_eq (run_tagName hcs) (run_append_of_eq hrun (hend _ rfl))))

/-- What is not in the values of the attributes is not in the tag, unless it is a character of names or of the syntax. -/
theorem not_mem_openText {d : Char} (hd : isNameChar d = false) (hmark : d ∉ [' ', '=', '\'', '<', '/', '>']) {name : List Char}
    {attrs : List (List Char × List Char)} (hname : ∀ c ∈ name, isNameChar c = true)
    (hattrs : ∀ a ∈ attrs, (∀ c ∈ a.1, isNameChar c = true) ∧ d ∉ a.2) (selfClosing : Bool) :
    d ∉ openText name attrs selfClosing := by
  have hnot : ∀ cs : List Char, (∀ c ∈ cs, isNameChar c = true) → d ∉ cs := by
    intro cs hcs hmem
    rw [hcs d hmem] at hd
    cases hd
  have hattr : d ∉ attrs.flatMap attrText := by
    intro hmem
    obtain ⟨a, ha, hmem⟩ := List.mem_flatMap.1 hmem
    have hfst := hnot a.1 (hattrs a ha).1
    have hsnd := (hattrs a ha).2
    simp_all [attrText]
  have hfst := hnot name hname
  cases selfClosing <;> simp_all [openText]

/-! ## References that are read -/

/-- The modes in which references are read. -/
def Mode.refers : Mode → Bool
  | .data | .rcdata _ => true
  | .rawtext _ | .plaintext => false

theorem continues_of_isAlphanum {seen : List Char} (hseen : ∀ c ∈ seen, c.isAlphanum = true) {c : Char} (hc : c.isAlphanum = true) :
    continues seen c = true := by
  have hhash : ('#' : Char).isAlphanum = false := by decide
  unfold continues
  split
  · simp [hc]
  · exact absurd (hseen '#' List.mem_cons_self) (by simp [hhash])
  · exact absurd (hseen '#' List.mem_cons_self) (by simp [hhash])
  · exact hc

theorem run_reference {m : Mode} {seen cs : List Char} (hseen : ∀ c ∈ seen, c.isAlphanum = true)
    (hcs : ∀ c ∈ cs, c.isAlphanum = true) : run R (.reference m seen) cs = (.reference m (seen ++ cs), []) := by
  induction cs generalizing seen with
  | nil => simp [run]
  | cons c cs ih =>
    obtain ⟨hc, hcs⟩ := List.forall_mem_cons.1 hcs
    have hstep : step R (.reference m seen) c = (.reference m (seen ++ [c]), []) := by
      simp [step, continues_of_isAlphanum hseen hc]
    have hseen' : ∀ d ∈ seen ++ [c], d.isAlphanum = true := by
      intro d hd
      rcases List.mem_append.1 hd with hd | hd
      · exact hseen d hd
      · rw [List.mem_singleton.1 hd]
        exact hc
    simp only [run, hstep, ih hseen' hcs, List.append_assoc, List.singleton_append, List.nil_append]

/-- A name that is known as a whole is read as its text. -/
theorem resolve_of_named {name text : List Char} (hhash : name.head? ≠ some '#') (h : R.named name = some text) :
    resolve R name = text := by
  have hlongest : ∃ rest, name.inits.reverse = name :: rest := by
    have htails : ∃ rest, name.reverse.tails = name.reverse :: rest := by cases name.reverse <;> exact ⟨_, rfl⟩
    obtain ⟨rest, hrest⟩ := htails
    exact ⟨rest.map List.reverse, by rw [List.inits_eq_tails, List.reverse_reverse, hrest, List.map_cons, List.reverse_reverse]⟩
  obtain ⟨rest, hrest⟩ := hlongest
  unfold resolve
  split
  · exact absurd rfl hhash
  · rw [hrest, List.findSome?_cons, h]
    simp

/-- A named reference with its semicolon. -/
theorem run_named {m : Mode} (hm : m.refers = true) {name text : List Char} (hname : ∀ c ∈ name, c.isAlphanum = true)
    (h : R.named (name ++ [';']) = some text) : run R (.text m) ('&' :: (name ++ [';'])) = (.text m, text.map .char) := by
  have hamp : step R (.text m) '&' = (.reference m [], []) := by
    cases m with
    | data => rfl
    | rcdata tag => rfl
    | rawtext tag => cases hm
    | plaintext => cases hm
  have hhash : (name ++ [';']).head? ≠ some '#' := by
    cases name with
    | nil => decide
    | cons c name =>
      intro hc
      have hc' := hname c List.mem_cons_self
      rw [show c = '#' from by simpa using hc] at hc'
      exact absurd hc' (by decide)
  have hsemi : step R (.reference m name) ';' = (.text m, text.map .char) := by
    have hstop : continues name ';' = false := by
      unfold continues
      split
      · decide
      · decide
      · rename_i x _
        split <;> decide
      · decide
    simp only [step, hstop, resolve_of_named hhash h]
    rfl
  have href : run R (.reference m []) name = (.reference m name, []) := run_reference (by simp) hname
  have hall := run_append_of_eq href (show run R (.reference m name) [';'] = (.text m, text.map .char) by
    simp only [run, hsemi, List.append_nil])
  simp only [run, hamp, hall, List.nil_append]

/-! ## Markup without references -/

def State.isReference : State → Bool
  | .reference _ _ => true
  | _ => false

theorem textStep_not_reference {m : Mode} {c : Char} (hc : c ≠ '&') : (textStep m c).1.isReference = false := by
  cases m <;> simp only [textStep, if_neg hc] <;> (try split_ifs) <;> rfl

theorem step_not_reference {st : State} (hst : st.isReference = false) {c : Char} (hc : c ≠ '&') :
    (step R st c).1.isReference = false := by
  have hemit : ∀ (t : Tag) (b : Bool), (emitTag t b).1.isReference = false := by
    intro t b
    unfold emitTag
    split <;> rfl
  have hbogus : (bogusStep c).1.isReference = false := by
    unfold bogusStep
    split <;> rfl
  cases st with
  | reference m seen => cases hst
  | text m => exact textStep_not_reference hc
  | less =>
    unfold step
    dsimp only
    split_ifs <;> first | rfl | exact textStep_not_reference hc
  | lessSlash =>
    unfold step
    dsimp only
    split_ifs <;> rfl
  | rawLess m =>
    unfold step
    dsimp only
    split_ifs <;> first | rfl | exact textStep_not_reference hc
  | rawClose m seen =>
    unfold step rawCloseStep
    dsimp only
    split_ifs <;> first | rfl | exact textStep_not_reference hc
  | tag t p =>
    have hbetween : (betweenStep t c).1.isReference = false := by
      unfold betweenStep
      split_ifs <;> first | rfl | exact hemit _ _
    have hafter : ∀ name, (afterAttrStep t name c).1.isReference = false := by
      intro name
      unfold afterAttrStep
      split_ifs <;> first | rfl | exact hemit _ _
    unfold step tagStep
    dsimp only
    split <;> (try split_ifs) <;> first | rfl | exact hemit _ _ | exact hbetween | exact hafter _
  | bang seen =>
    unfold step bangStep
    dsimp only
    split_ifs <;> first | rfl | exact hbogus
  | comment seen =>
    unfold step commentStep
    dsimp only
    split_ifs <;> rfl
  | bogus => exact hbogus
  | doctype =>
    unfold step
    dsimp only
    split_ifs <;> rfl

/-- What references stand for does not matter to a text that has none. -/
theorem run_congr {R' : References} {st : State} (hst : st.isReference = false) {cs : List Char} (hcs : '&' ∉ cs) :
    run R st cs = run R' st cs := by
  induction cs generalizing st with
  | nil => rfl
  | cons c cs ih =>
    obtain ⟨hc, hcs⟩ := not_or.1 (fun h => hcs (List.mem_cons.2 h))
    have hstep : step R st c = step R' st c := by
      cases st with
      | reference m seen => cases hst
      | _ => rfl
    have hnext := step_not_reference (R := R) hst (Ne.symm hc)
    simp only [run, ← hstep, ih hnext hcs]

/-! ## Text that is read as itself -/

/-- How many characters come before the first other token. -/
def lead (ts : List Token) : Nat := (ts.takeWhile Token.isChar).length

theorem lead_chars (cs : List Char) (ts : List Token) : lead (cs.map .char ++ ts) = cs.length + lead ts := by
  induction cs with
  | nil => simp
  | cons c cs ih =>
    unfold lead at ih ⊢
    rw [List.map_cons, List.cons_append, List.takeWhile_cons_of_pos rfl, List.length_cons, ih, List.length_cons]
    omega

/-- What was read of a text and is not yet a token. -/
def State.held : State → List Char
  | .reference _ seen => '&' :: seen
  | .less => ['<']
  | .lessSlash => ['<', '/']
  | _ => []

/-- The machine is in the text of an element. -/
def State.textual : State → Bool
  | .text .data | .reference .data _ | .less | .lessSlash => true
  | _ => false

/-- The machine is in a tag, a comment or a doctype. -/
def State.mute : State → Bool
  | .tag _ _ | .bang _ | .comment _ | .bogus | .doctype => true
  | _ => false

/-- A reference stands for itself or is longer than what it stands for. -/
theorem resolve_eq_or_length (seen : List Char) : resolve R seen = '&' :: seen ∨ (resolve R seen).length ≤ seen.length := by
  unfold resolve
  split
  · dsimp only
    split
    · exact .inl rfl
    · exact .inr (by simp)
  · cases hfind : seen.inits.reverse.findSome? fun name => (R.named name).map (· ++ seen.drop name.length) with
    | none => exact .inl rfl
    | some text =>
      obtain ⟨name, hmem, hname⟩ := List.exists_of_findSome?_eq_some hfind
      obtain ⟨value, hvalue, rfl⟩ := Option.map_eq_some_iff.1 hname
      have hprefix : name.length ≤ seen.length := ((List.mem_inits _ _).1 (List.mem_reverse.1 hmem)).length_le
      have hshort := R.named_length hvalue
      refine .inr ?_
      simp only [Option.getD_some, List.length_append, List.length_drop]
      omega

/-- What a character does in text: it is read or held, something before it is lost, or it ends the text. -/
inductive Outcome (st : State) (c : Char) (st' : State) (ts : List Token) : Prop where
  | read (text : List Char) (htext : st'.textual = true) (hts : ts = text.map .char) (hheld : text ++ st'.held = st.held ++ [c])
  | lost (text : List Char) (htext : st'.textual = true) (hts : ts = text.map .char)
      (hlength : text.length + st'.held.length ≤ st.held.length)
  | mute (hmute : st'.mute = true) (hts : ts = [])

theorem textStep_outcome (c : Char) : ∃ text, (textStep .data c).1.textual = true ∧ (textStep .data c).2 = text.map .char ∧
    text ++ (textStep .data c).1.held = [c] := by
  unfold textStep
  by_cases hless : c = '<'
  · exact ⟨[], by simp [hless, State.textual], by simp [hless], by simp [hless, State.held]⟩
  · by_cases hamp : c = '&'
    · exact ⟨[], by simp [hamp, State.textual], by simp [hamp], by simp [hamp, State.held]⟩
    · exact ⟨[c], by simp [hless, hamp, State.textual], by simp [hless, hamp], by simp [hless, hamp, State.held]⟩

/-- A step of text. -/
theorem step_outcome {st : State} (hst : st.textual = true) (c : Char) : Outcome st c (step R st c).1 (step R st c).2 := by
  obtain ⟨text, htext, hts, hheld⟩ := textStep_outcome c
  cases st with
  | text m =>
    cases m with
    | data => exact .read text htext hts hheld
    | rcdata tag => cases hst
    | rawtext tag => cases hst
    | plaintext => cases hst
  | reference m seen =>
    cases m with
    | data =>
      unfold step
      dsimp only
      split
      · exact .read [] rfl rfl (by simp [State.held])
      · split
        · rename_i hc
          subst hc
          rcases resolve_eq_or_length (R := R) (seen ++ [';']) with hself | hshort
          · exact .read _ rfl rfl (by rw [hself]; simp [State.held])
          · refine .lost _ rfl rfl ?_
            simpa [State.held] using hshort
        · rcases resolve_eq_or_length (R := R) seen with hself | hshort
          · refine .read (('&' :: seen) ++ text) htext (by rw [hself, hts, ← List.map_append]) ?_
            rw [List.append_assoc, hheld]
            rfl
          · refine .lost (resolve R seen ++ text) htext (by rw [hts, ← List.map_append]) ?_
            have hlength := congrArg List.length hheld
            simp only [List.length_append, List.length_cons, List.length_nil, State.held] at hlength ⊢
            omega
    | rcdata tag => cases hst
    | rawtext tag => cases hst
    | plaintext => cases hst
  | less =>
    unfold step
    dsimp only
    split
    · exact .mute rfl rfl
    · split
      · rename_i hc
        subst hc
        exact .read [] rfl rfl rfl
      · split
        · exact .mute rfl rfl
        · split
          · exact .mute rfl rfl
          · exact .read ('<' :: text) htext (by rw [hts]; rfl) (by rw [List.cons_append, hheld]; rfl)
  | lessSlash =>
    unfold step
    dsimp only
    split
    · exact .mute rfl rfl
    · split
      · exact .lost [] rfl rfl (by simp [State.held])
      · exact .mute rfl rfl
  | rawLess m => cases hst
  | rawClose m seen => cases hst
  | tag t p => cases hst
  | bang seen => cases hst
  | comment seen => cases hst
  | bogus => cases hst
  | doctype => cases hst

/-- Outside of text the next token is not a character. -/
theorem mute_step {st : State} (hst : st.mute = true) (c : Char) :
    ((step R st c).1.mute = true ∧ (step R st c).2 = []) ∨ ∃ t ts, (step R st c).2 = t :: ts ∧ t.isChar = false := by
  have hemit : ∀ (t : Tag) (b : Bool), ∃ u us, (emitTag t b).2 = u :: us ∧ u.isChar = false := by
    intro t b
    unfold emitTag
    split <;> exact ⟨_, _, rfl, rfl⟩
  have hbogus : ((bogusStep c).1.mute = true ∧ (bogusStep c).2 = []) ∨ ∃ t ts, (bogusStep c).2 = t :: ts ∧ t.isChar = false := by
    unfold bogusStep
    split
    · exact .inr ⟨_, _, rfl, rfl⟩
    · exact .inl ⟨rfl, rfl⟩
  cases st with
  | tag t p =>
    have hbetween : ((betweenStep t c).1.mute = true ∧ (betweenStep t c).2 = []) ∨
        ∃ u us, (betweenStep t c).2 = u :: us ∧ u.isChar = false := by
      unfold betweenStep
      split_ifs <;> first | exact .inl ⟨rfl, rfl⟩ | exact .inr (hemit _ _)
    have hafter : ∀ name, ((afterAttrStep t name c).1.mute = true ∧ (afterAttrStep t name c).2 = []) ∨
        ∃ u us, (afterAttrStep t name c).2 = u :: us ∧ u.isChar = false := by
      intro name
      unfold afterAttrStep
      split_ifs <;> first | exact .inl ⟨rfl, rfl⟩ | exact .inr (hemit _ _)
    unfold step tagStep
    dsimp only
    split <;> (try split_ifs) <;>
      first | exact .inl ⟨rfl, rfl⟩ | exact .inr (hemit _ _) | exact hbetween | exact hafter _
  | bang seen =>
    unfold step bangStep
    dsimp only
    split_ifs <;> first | exact .inl ⟨rfl, rfl⟩ | exact hbogus
  | comment seen =>
    unfold step commentStep
    dsimp only
    split_ifs
    · exact .inr ⟨_, _, rfl, rfl⟩
    · exact .inl ⟨rfl, rfl⟩
  | bogus => exact hbogus
  | doctype =>
    unfold step
    dsimp only
    split_ifs
    · exact .inr ⟨_, _, rfl, rfl⟩
    · exact .inl ⟨rfl, rfl⟩
  | text m => cases m <;> cases hst
  | reference m seen => cases m <;> cases hst
  | less => cases hst
  | lessSlash => cases hst
  | rawLess m => cases hst
  | rawClose m seen => cases hst

theorem lead_mute {st : State} (hst : st.mute = true) (cs : List Char) : lead (tokensFrom R st cs) = 0 := by
  induction cs generalizing st with
  | nil =>
    cases st <;> first | rfl | cases hst
  | cons c cs ih =>
    rw [tokensFrom_cons]
    rcases mute_step (R := R) hst c with ⟨hmute, hts⟩ | ⟨t, ts, hts, ht⟩
    · rw [hts, List.nil_append, ih hmute]
    · rw [hts]
      simp [lead, ht]

section

variable {tag name : List Char} (htag : run R .lessSlash tag = (.text .data, [.endTag name]))

include htag

theorem run_endTag : run R (.text .data) ('<' :: '/' :: tag) = (.text .data, [.endTag name]) := by
  have hless : step R (.text .data) '<' = (.less, []) := rfl
  have hslash : step R .less '/' = (.lessSlash, []) := rfl
  simp only [run, hless, hslash, htag, List.nil_append]

theorem run_less_endTag : run R .less ('<' :: '/' :: tag) = (.text .data, [.char '<', .endTag name]) := by
  have hless : step R .less '<' = (.less, [.char '<']) := rfl
  have hslash : step R .less '/' = (.lessSlash, []) := rfl
  simp only [run, hless, hslash, htag, List.nil_append, List.singleton_append]

theorem run_reference_endTag (seen : List Char) :
    run R (.reference .data seen) ('<' :: '/' :: tag) = (.text .data, (resolve R seen).map .char ++ [.endTag name]) := by
  have hstop : continues seen '<' = false := by
    unfold continues
    split
    · decide
    · decide
    · split <;> decide
    · decide
  have hless : step R (.reference .data seen) '<' = (.less, (resolve R seen).map .char) := by
    simp [step, hstop, textStep]
  have hslash : step R .less '/' = (.lessSlash, []) := rfl
  simp only [run, hless, hslash, htag, List.nil_append]

/-- Before an end tag what is held becomes text, or some of it is lost. -/
theorem endTag_outcome {st : State} (hst : st.textual = true) :
    run R st ('<' :: '/' :: tag) = (.text .data, st.held.map .char ++ [.endTag name]) ∨
      ∀ rest, lead (tokensFrom R st ('<' :: '/' :: tag ++ rest)) < st.held.length := by
  cases st with
  | text m => cases m <;> first | exact .inl (run_endTag htag) | cases hst
  | reference m seen =>
    cases m with
    | data =>
      rcases resolve_eq_or_length (R := R) seen with hself | hshort
      · left
        rw [run_reference_endTag htag, hself]
        rfl
      · right
        intro rest
        rw [tokensFrom_append (run_reference_endTag htag seen), List.append_assoc, lead_chars]
        have hnone : lead ([Token.endTag name] ++ tokensFrom R (.text .data) rest) = 0 := rfl
        simp only [hnone, State.held, List.length_cons]
        omega
    | rcdata tag => cases hst
    | rawtext tag => cases hst
    | plaintext => cases hst
  | less => exact .inl (run_less_endTag htag)
  | lessSlash =>
    right
    intro rest
    rw [List.cons_append, tokensFrom_cons]
    have hbogus : step R .lessSlash '<' = (.bogus, []) := rfl
    rw [hbogus, List.nil_append, lead_mute rfl]
    decide
  | rawLess m => cases hst
  | rawClose m seen => cases hst
  | tag t p => cases hst
  | bang seen => cases hst
  | comment seen => cases hst
  | bogus => cases hst
  | doctype => cases hst

/-- A text before an end tag is not read as more characters than it has. -/
theorem lead_le {st : State} (hst : st.textual = true) (cs rest : List Char) :
    lead (tokensFrom R st (cs ++ ('<' :: '/' :: tag ++ rest))) ≤ st.held.length + cs.length := by
  induction cs generalizing st with
  | nil =>
    rcases endTag_outcome htag hst with hrun | hlost
    · rw [List.nil_append, tokensFrom_append hrun, List.append_assoc, lead_chars]
      have hnone : lead ([Token.endTag name] ++ tokensFrom R (.text .data) rest) = 0 := rfl
      simp only [hnone, List.length_nil, le_refl]
    · have h := hlost rest
      rw [List.nil_append, List.length_nil]
      omega
  | cons c cs ih =>
    rw [List.cons_append, tokensFrom_cons, List.length_cons]
    rcases step_outcome (R := R) hst c with ⟨text, htext, hts, hheld⟩ | ⟨text, htext, hts, hlength⟩ | ⟨hmute, hts⟩
    · have h := ih htext
      have hlength := congrArg List.length hheld
      simp only [List.length_append, List.length_cons, List.length_nil] at hlength
      rw [hts, lead_chars]
      omega
    · have h := ih htext
      rw [hts, lead_chars]
      omega
    · rw [hts, List.nil_append, lead_mute hmute]
      omega

/-- A text of which no character is lost before an end tag is read as itself by the machine on its own. -/
theorem run_of_lead {st : State} (hst : st.textual = true) (cs rest : List Char)
    (h : st.held.length + cs.length ≤ lead (tokensFrom R st (cs ++ ('<' :: '/' :: tag ++ rest)))) :
    run R st (cs ++ '<' :: '/' :: tag) = (.text .data, (st.held ++ cs).map .char ++ [.endTag name]) := by
  induction cs generalizing st with
  | nil =>
    rw [List.nil_append, List.length_nil] at h
    rcases endTag_outcome htag hst with hrun | hlost
    · rw [List.nil_append, List.append_nil]
      exact hrun
    · have hlead := hlost rest
      omega
  | cons c cs ih =>
    rw [List.cons_append, tokensFrom_cons, List.length_cons] at h
    rcases step_outcome (R := R) hst c with ⟨text, htext, hts, hheld⟩ | ⟨text, htext, hts, hlength⟩ | ⟨hmute, hts⟩
    · have hlength := congrArg List.length hheld
      simp only [List.length_append, List.length_cons, List.length_nil] at hlength
      rw [hts, lead_chars] at h
      have hrun := ih htext (by omega)
      have hall : st.held ++ c :: cs = text ++ ((step R st c).1.held ++ cs) := by
        rw [← List.append_assoc, hheld, List.append_assoc, List.singleton_append]
      simp only [List.cons_append, run, hrun, hts, hall, List.map_append, List.append_assoc]
    · have hle := lead_le htag htext cs rest
      rw [hts, lead_chars] at h
      omega
    · rw [hts, List.nil_append, lead_mute hmute] at h
      omega

end

end HtmlTokens
