import Tumult.Theorems.CivilDates
import Tumult.Theorems.ReportItems

/-!
# What a page says

The tokens of a rendered page against the skeleton of the document and its texts. The page is read item by item: the tags of an item
are read as the tags they are, and its text is read back when nothing in it is substituted, normalised or, where it is written
without an escape, taken for markup.
-/

namespace Tumult.Compliance.Html

open HtmlTokens Replace

variable {R : References}

/-! ## Dates -/

theorem length_zeroPadded (width : Nat) (x : Int) (h0 : 0 ≤ x) (h : x < 10 ^ width) (hw : 0 < width) :
    (zeroPadded width x).toList.length = width := by
  have hdigits : x.natAbs.repr.length ≤ width := by
    have hlt : x.natAbs < 10 ^ width := by
      have hcast : ((x.natAbs : Nat) : Int) < ((10 ^ width : Nat) : Int) := by
        rw [Int.natAbs_of_nonneg h0]
        exact_mod_cast h
      exact_mod_cast hcast
    rw [Nat.repr_eq_ofList_toDigits, String.length_ofList]
    exact (Nat.length_toDigits_le_iff (by decide) hw).2 hlt
  have hsign : ¬ x < 0 := by omega
  simp only [zeroPadded, hsign, if_false, String.length_toList, String.length_append, String.length_ofList, List.length_replicate,
    Nat.toString_eq_repr, String.length_empty]
  omega

/-- Instants are in years of at most four digits. -/
theorem year_range {date : Civil.Date} {ns : Int64} (h : date.dayNumber = ns.toInt / NANOS_PER_DAY) :
    0 ≤ date.year ∧ date.year < 10 ^ 4 := by
  have hyear := date.dayNumber_year
  have hlow := ns.le_toInt
  have hhigh := ns.toInt_lt
  have hns : NANOS_PER_DAY = 86400000000000 := rfl
  have hepoch : Civil.leapsBefore 1970 = 477 := by decide
  rw [h, hns, Civil.yearStart, Civil.yearStart, hepoch] at hyear
  unfold Civil.leapsBefore at hyear
  omega

/-- A date is written in ten characters. -/
theorem length_fmtDate (ns : Int64) : (fmtDate ns).toList.length = 10 := by
  obtain ⟨date, hnumber, hdays⟩ := Civil.ofDays_date (ns.toInt / NANOS_PER_DAY)
  have hrange := year_range hnumber
  have hmonth := date.month_valid
  have hday := date.day_valid
  have hlength : Civil.monthLength date.year date.month ≤ 31 := by
    have hleap := Civil.leapDay_cases date.year
    unfold Civil.monthLength
    split <;> omega
  have hyear := length_zeroPadded 4 _ hrange.1 hrange.2 (by decide)
  have hmonths := length_zeroPadded 2 date.month (by omega) (by omega) (by decide)
  have hdays' := length_zeroPadded 2 date.day (by omega) (by omega) (by decide)
  rw [fmtDate, fmtDate_eq hdays]
  simp only [Option.getD_some, isoDate, String.toList_append, List.length_append, hyear, hmonths, hdays']
  rfl

/-! ## Escapes that are read -/

/-- What the escapes write. -/
def escapes : List (Char × List Char) :=
  [('&', "&amp;".toList), ('<', "&lt;".toList), ('>', "&gt;".toList), ('"', "&quot;".toList), ('\'', "&#39;".toList)]

/-- The references of the escapes stand for what is escaped. -/
structure ReadsEscapes (R : References) : Prop where
  amp : R.named ['a', 'm', 'p', ';'] = some ['&']
  lt : R.named ['l', 't', ';'] = some ['<']
  gt : R.named ['g', 't', ';'] = some ['>']
  quot : R.named ['q', 'u', 'o', 't', ';'] = some ['"']
  apostrophe : R.numeric 39 = '\''

/-- Each character is left alone or written as a reference, and neither an ampersand nor a less-than sign is left alone. -/
def IsEscape (f : Char → List Char) : Prop := ∀ c, f c = [c] ∧ c ≠ '&' ∧ c ≠ '<' ∨ (c, f c) ∈ escapes

theorem isEscape_escChar : IsEscape escChar := by
  intro c
  unfold escChar
  split_ifs with hamp hlt hgt hquot hapos
  · exact .inr (by rw [hamp]; decide)
  · exact .inr (by rw [hlt]; decide)
  · exact .inr (by rw [hgt]; decide)
  · exact .inr (by rw [hquot]; decide)
  · exact .inr (by rw [hapos]; decide)
  · exact .inl ⟨rfl, hamp, hlt⟩

/-- Charts do not escape apostrophes. -/
def svgEscChar (c : Char) : List Char := if c = '\'' then [c] else escChar c

theorem isEscape_svgEscChar : IsEscape svgEscChar := by
  intro c
  unfold svgEscChar
  split_ifs with hapos
  · exact .inl ⟨rfl, by rw [hapos]; decide, by rw [hapos]; decide⟩
  · exact isEscape_escChar c

theorem toList_svgEsc (s : String) : (Svg.esc s).toList = s.toList.flatMap svgEscChar := by
  simp only [Svg.esc, toList_replaceChar, List.flatMap_assoc]
  refine congrArg (s.toList.flatMap ·) (funext fun c => ?_)
  unfold svgEscChar escChar
  by_cases hapos : c = '\''
  · subst hapos
    decide
  · rw [if_neg hapos]
    split_ifs with hamp hlt hgt hquot
    · subst hamp; decide
    · subst hlt; decide
    · subst hgt; decide
    · subst hquot; decide
    · simp [hlt, hgt, hquot]

/-- How a character of a text is read. -/
def look : Mode → Char → Char
  | .rcdata _ => shown
  | _ => id

theorem run_escapes (hR : ReadsEscapes R) {m : Mode} (hm : m.refers = true) {e : Char × List Char} (he : e ∈ escapes) :
    run R (.text m) e.2 = (.text m, [.char e.1]) := by
  have hnamed : ∀ (name : List Char) {c : Char}, name.all Char.isAlphanum = true → R.named (name ++ [';']) = some [c] →
      run R (.text m) ('&' :: (name ++ [';'])) = (.text m, [.char c]) := fun _ _ hname h =>
    run_named hm (List.all_eq_true.1 hname) h
  simp only [escapes, List.mem_cons, List.not_mem_nil, or_false] at he
  rcases he with rfl | rfl | rfl | rfl | rfl
  · exact hnamed ['a', 'm', 'p'] (by decide) hR.amp
  · exact hnamed ['l', 't'] (by decide) hR.lt
  · exact hnamed ['g', 't'] (by decide) hR.gt
  · exact hnamed ['q', 'u', 'o', 't'] (by decide) hR.quot
  · have hnumeric : run R (.text m) "&#39;".toList = (.text m, [.char (R.numeric 39)]) := by
      cases m with
      | data => rfl
      | rcdata tag => rfl
      | rawtext tag => cases hm
      | plaintext => cases hm
    rw [hnumeric, hR.apostrophe]

/-- A text that is escaped is read back. -/
theorem run_escape (hR : ReadsEscapes R) {m : Mode} (hm : m.refers = true) {f : Char → List Char} (hf : IsEscape f)
    (cs : List Char) : run R (.text m) (cs.flatMap f) = (.text m, (cs.map (look m)).map .char) := by
  have hone : ∀ c, run R (.text m) (f c) = (.text m, [.char (look m c)]) := by
    intro c
    rcases hf c with ⟨hsame, hamp, hlt⟩ | hmem
    · rw [hsame]
      cases m with
      | data => simp [run, step, textStep, hamp, hlt, look]
      | rcdata tag => simp [run, step, textStep, hamp, hlt, look]
      | rawtext tag => cases hm
      | plaintext => cases hm
    · have hlook : look m c = c := by
        have hnull : ∀ e ∈ escapes, e.1 ≠ '\x00' := by decide
        have hc : c ≠ '\x00' := hnull _ hmem
        cases m <;> simp [look, shown, hc]
      rw [hlook]
      exact run_escapes hR hm hmem
  induction cs with
  | nil => rfl
  | cons c cs ih => exact run_append_of_eq (hone c) ih

/-! ## Text as it is received -/

/-- A part of the page after the substitution and with its line breaks normalised. -/
def received (date : String) (cs : List Char) : List Char := newlines (replaceAll PLACEHOLDER.toList date.toList cs)

variable {date : String}

theorem toList_PLACEHOLDER : PLACEHOLDER.toList =
    '\x7b' :: ['\x7b', 'D', 'A', 'T', 'A', '_', 'A', 'S', '_', 'O', 'F', '\x7d', '\x7d'] := by decide

theorem received_append_left {xs : List Char} (hbrace : '\x7b' ∉ xs) (hreturn : '\r' ∉ xs) (ys : List Char) :
    received date (xs ++ ys) = xs ++ received date ys := by
  unfold received
  rw [toList_PLACEHOLDER, replaceAll_append_left hbrace, newlines_append_left hreturn]

/-- Where the second part begins with a character that is neither of the placeholder nor a line break. -/
theorem received_append {c : Char} (hc : c ∉ PLACEHOLDER.toList) (hnewline : c ≠ '\n') (xs ys : List Char) :
    received date (xs ++ c :: ys) = received date xs ++ received date (c :: ys) := by
  have hne : PLACEHOLDER.toList ≠ [] := by
    rw [toList_PLACEHOLDER]
    exact List.cons_ne_nil _ _
  have hcons : replaceAll PLACEHOLDER.toList date.toList (c :: ys) = c :: replaceAll PLACEHOLDER.toList date.toList ys :=
    replaceAll_append_cons hc hne [] ys
  unfold received
  rw [replaceAll_append_cons hc hne, hcons]
  refine newlines_append ?_ _
  rw [List.head?_cons]
  exact fun h => hnewline (Option.some.inj h)

theorem received_PLACEHOLDER (hdate : NumberText date) : received date PLACEHOLDER.toList = date.toList := by
  unfold received
  rw [toList_PLACEHOLDER, replaceAll_pat, newlines_eq_self_iff]
  intro hmem
  exact absurd (hdate _ hmem) (by decide)

theorem received_flatMap (hdate : NumberText date) {f : Char → List Char} (hf : IsEscape f) (cs : List Char) :
    received date (cs.flatMap f) = (received date cs).flatMap f := by
  have hwrites : ∀ e ∈ escapes, e.1 ∉ PLACEHOLDER.toList ∧ e.1 ≠ '\r' ∧ e.1 ≠ '\n' ∧ e.2 ≠ [] ∧
      e.2.all (· ∉ PLACEHOLDER.toList) = true ∧ '\r' ∉ e.2 ∧ '\n' ∉ e.2 := by decide
  have hspared : ∀ c, (c ∈ PLACEHOLDER.toList ∨ c = '\r' ∨ c = '\n') → f c = [c] := by
    intro c hc
    rcases hf c with hsame | hmem
    · exact hsame.1
    · have h := hwrites _ hmem
      exact absurd hc (not_or.2 ⟨h.1, not_or.2 ⟨h.2.1, h.2.2.1⟩⟩)
  have hother : ∀ c, c ∉ PLACEHOLDER.toList → f c ≠ [] ∧ ∀ d ∈ f c, d ∉ PLACEHOLDER.toList := by
    intro c hc
    rcases hf c with hsame | hmem
    · rw [hsame.1]
      exact ⟨List.cons_ne_nil _ _, fun d hd => by rwa [List.mem_singleton.1 hd]⟩
    · have h := hwrites _ hmem
      exact ⟨h.2.2.2.1, fun d hd => of_decide_eq_true (List.all_eq_true.1 h.2.2.2.2.1 d hd)⟩
  have hlines : ∀ c, c ≠ '\r' → c ≠ '\n' → f c ≠ [] ∧ '\r' ∉ f c ∧ '\n' ∉ f c := by
    intro c hr hn
    rcases hf c with hsame | hmem
    · rw [hsame.1]
      simp [Ne.symm hr, Ne.symm hn]
    · have h := hwrites _ hmem
      exact ⟨h.2.2.2.1, h.2.2.2.2.2⟩
  have hdate' : date.toList.flatMap f = date.toList := by
    have hall : ∀ cs : List Char, (∀ c ∈ cs, isNumberChar c = true) → cs.flatMap f = cs := by
      intro cs hcs
      induction cs with
      | nil => rfl
      | cons c cs ih =>
        obtain ⟨hc, hcs⟩ := List.forall_mem_cons.1 hcs
        have hnot : ∀ e ∈ escapes, isNumberChar e.1 = false := by decide
        have hsame : f c = [c] := by
          rcases hf c with hsame | hmem
          · exact hsame.1
          · rw [hnot _ hmem] at hc
            cases hc
        rw [List.flatMap_cons, hsame, ih hcs, List.singleton_append]
    exact hall _ hdate
  have hne : PLACEHOLDER.toList ≠ [] := by
    rw [toList_PLACEHOLDER]
    exact List.cons_ne_nil _ _
  unfold received
  rw [replaceAll_flatMap ⟨fun c hc => hspared c (.inl hc), hother⟩ hne hdate']
  exact newlinesFrom_flatMap (hspared _ (.inr (.inl rfl))) (hspared _ (.inr (.inr rfl))) hlines false _

/-- A text that is neither substituted nor normalised. -/
def Verbatim (s : String) : Prop := ¬ PLACEHOLDER.toList <:+: s.toList ∧ '\r' ∉ s.toList

instance decidableVerbatim (s : String) : Decidable (Verbatim s) := inferInstanceAs (Decidable (_ ∧ _))

/-- A text that is received as long as it is was not substituted. -/
theorem not_infix_of_length (hdate : date.toList.length = 10) (cs : List Char) (h : cs.length ≤ (received date cs).length) :
    ¬ PLACEHOLDER.toList <:+: cs ∧ received date cs = newlines cs := by
  have hshort : date.toList.length < PLACEHOLDER.toList.length := by
    rw [hdate, toList_PLACEHOLDER]
    decide
  have hno : ¬ PLACEHOLDER.toList <:+: cs := by
    intro hin
    have hlt := length_replaceAll_lt hshort hin
    have hle := length_newlines_le (replaceAll PLACEHOLDER.toList date.toList cs)
    unfold received at h
    omega
  exact ⟨hno, by rw [received, (replaceAll_eq_self_iff hshort cs).2 hno]⟩

theorem length_received_le (hdate : date.toList.length = 10) (cs : List Char) : (received date cs).length ≤ cs.length := by
  have hshort : date.toList.length ≤ PLACEHOLDER.toList.length := by
    rw [hdate, toList_PLACEHOLDER]
    decide
  exact (length_newlines_le _).trans (length_replaceFrom_le hshort 0 cs)

theorem received_eq_self_iff (hdate : date.toList.length = 10) (s : String) : received date s.toList = s.toList ↔ Verbatim s := by
  constructor
  · intro h
    obtain ⟨hno, hnewlines⟩ := not_infix_of_length hdate _ (le_of_eq (congrArg List.length h).symm)
    rw [hnewlines] at h
    exact ⟨hno, (newlines_eq_self_iff _).1 h⟩
  · intro h
    have hshort : date.toList.length < PLACEHOLDER.toList.length := by
      rw [hdate, toList_PLACEHOLDER]
      decide
    rw [received, (replaceAll_eq_self_iff hshort _).2 h.1, (newlines_eq_self_iff _).2 h.2]

/-! ## The tokens of the parts -/

/-- The tokens that parts and texts stand for. -/
def fill (R : References) : List Part → List String → List Token
  | [], _ => []
  | .markup src :: parts, slots => (run R (.text .data) src.toList).2 ++ fill R parts slots
  | .text s :: parts, slots => s.toList.map .char ++ fill R parts slots
  | .hole :: parts, [] => fill R parts []
  | .hole :: parts, slot :: slots => slot.toList.map .char ++ fill R parts slots

/-- A text that is read as itself in its element. -/
def Inert (R : References) (name : String) : Prop :=
  run R (.text .data) (name.toList ++ "</div>".toList) = (.text .data, name.toList.map .char ++ [.endTag "div".toList])

/-- A name without special characters. -/
theorem inert_of_plain {name : String} (h : ∀ c ∈ name.toList, c ≠ '<' ∧ c ≠ '&') : Inert R name := by
  have hend : "</div>".toList = '<' :: '/' :: ['d', 'i', 'v', '>'] := by decide
  exact run_append_of_eq (run_plain h) (by rw [hend]; exact run_endTag rfl)

/-- The texts of an item are read back. -/
structure ItemReads (R : References) (i : Item) : Prop where
  verbatim : ∀ s ∈ i.1.slots, Verbatim s
  inert : ∀ name, i.1 = .name name → Inert R name

/-- Characters before tags are told apart from them. -/
theorem chars_append_inj {xs ys : List Char} {ts us vs : List Token} (hne : ts ≠ []) (hts : ∀ t ∈ ts, t.isChar = false) :
    xs.map Token.char ++ (ts ++ us) = ys.map Token.char ++ (ts ++ vs) ↔ xs = ys ∧ us = vs := by
  obtain ⟨t, ts, rfl⟩ := List.exists_cons_of_ne_nil hne
  have hlead : ∀ ws : List Token, lead (t :: ts ++ ws) = 0 := by
    intro ws
    have ht := hts t List.mem_cons_self
    simp [lead, ht]
  constructor
  · intro h
    have hlength := congrArg lead h
    rw [lead_chars, lead_chars, hlead, hlead] at hlength
    obtain ⟨hchars, hrest⟩ := List.append_inj h (by simpa using hlength)
    exact ⟨List.map_injective_iff.2 (fun a b hab => Token.char.inj hab) hchars, List.append_cancel_left hrest⟩
  · rintro ⟨rfl, rfl⟩
    rfl

theorem Markup.tokensFrom {src : String} (h : Markup R src) (rest : List Char) :
    tokensFrom R (.text .data) (received date (src.toList ++ rest)) =
      (run R (.text .data) src.toList).2 ++ tokensFrom R (.text .data) (received date rest) := by
  obtain ⟨ts, hrun, -, -⟩ := h.reads
  rw [received_append_left h.noBrace h.noReturn, tokensFrom_append hrun, hrun]

theorem Markup.received {src : String} (h : Markup R src) (xs rest : List Char) :
    received date (xs ++ (src.toList ++ rest)) = received date xs ++ received date (src.toList ++ rest) := by
  obtain ⟨cs, hcs⟩ : ∃ cs, src.toList = '<' :: cs := List.head?_eq_some_iff.1 h.starts
  rw [hcs, List.cons_append]
  exact received_append (by rw [toList_PLACEHOLDER]; decide) (by decide) _ _

theorem Plain.received {s : String} (h : Plain s) (rest : List Char) :
    received date (s.toList ++ rest) = s.toList ++ received date rest :=
  received_append_left (fun hmem => (h _ hmem).2.1 rfl) (fun hmem => (h _ hmem).2.2 rfl) rest

theorem Plain.run {s : String} (h : Plain s) : run R (.text .data) s.toList = (.text .data, s.toList.map .char) := by
  refine run_plain fun c hc => ⟨?_, ?_⟩ <;> rintro rfl
  · exact absurd (h _ hc).1 (by decide)
  · exact absurd (h _ hc).1 (by decide)

/-! ## Items that are read -/

section

variable (hR : ReadsEscapes R) (hdate : NumberText date) (hlength : date.toList.length = 10)

include hR hdate hlength

/-- A text that is escaped, between plain texts and before the markup of its item. -/
theorem tokensFrom_escaped {f : Char → List Char} (hf : IsEscape f) (text : String) {before after markup : String}
    (hbefore : Plain before) (hafter : Plain after)
    (hstarts : ∀ c ∈ after.toList.head?, c ∉ PLACEHOLDER.toList ∧ c ≠ '\n') (hmarkup : Markup R markup) (rest : List Char)
    (us : List Token) :
    tokensFrom R (.text .data)
        (received date (before.toList ++ (text.toList.flatMap f ++ (after.toList ++ (markup.toList ++ rest))))) =
        (before.toList ++ (text.toList ++ after.toList)).map .char ++ ((run R (.text .data) markup.toList).2 ++ us) ↔
      Verbatim text ∧ tokensFrom R (.text .data) (received date rest) = us := by
  obtain ⟨ts, hrun, hne, hchars⟩ := hmarkup.reads
  have hsplit : received date (text.toList.flatMap f ++ (after.toList ++ (markup.toList ++ rest))) =
      (received date text.toList).flatMap f ++ (after.toList ++ received date (markup.toList ++ rest)) := by
    rw [← hafter.received, ← received_flatMap hdate hf]
    cases hcs : after.toList with
    | nil => exact hmarkup.received _ _
    | cons c cs =>
      obtain ⟨hc, hnewline⟩ := hstarts c (by rw [hcs, List.head?_cons]; exact rfl)
      exact received_append hc hnewline _ _
  have htext := run_escape hR (m := .data) rfl hf (received date text.toList)
  have hid : (received date text.toList).map (look .data) = received date text.toList := List.map_id _
  rw [hid] at htext
  rw [hbefore.received, hsplit, tokensFrom_append hbefore.run, tokensFrom_append htext, tokensFrom_append hafter.run,
    hmarkup.tokensFrom, hrun]
  have hassoc : before.toList.map Token.char ++ ((received date text.toList).map .char ++ (after.toList.map .char ++
      (ts ++ tokensFrom R (.text .data) (received date rest)))) =
      (before.toList ++ (received date text.toList ++ after.toList)).map .char ++
        (ts ++ tokensFrom R (.text .data) (received date rest)) := by
    simp only [List.map_append, List.append_assoc]
  rw [hassoc, chars_append_inj hne hchars, List.append_cancel_left_eq, List.append_cancel_right_eq, received_eq_self_iff hlength]

omit hR hdate in
/-- A text that is written as it is before the end of its element. -/
theorem tokensFrom_name (hclose : Markup R "</div></div>") (text : String) (rest : List Char) (us : List Token) :
    tokensFrom R (.text .data) (received date (text.toList ++ ("</div></div>".toList ++ rest))) =
        text.toList.map .char ++ ((run R (.text .data) "</div></div>".toList).2 ++ us) ↔
      (Verbatim text ∧ Inert R text) ∧ tokensFrom R (.text .data) (received date rest) = us := by
  have htag : run R .lessSlash ['d', 'i', 'v', '>'] = (.text .data, [.endTag "div".toList]) := rfl
  have hend : "</div>".toList = '<' :: '/' :: ['d', 'i', 'v', '>'] := by decide
  have hends : "</div></div>".toList = '<' :: '/' :: ['d', 'i', 'v', '>'] ++ "</div>".toList := by decide
  have hdiv : run R (.text .data) "</div></div>".toList = (.text .data, [.endTag "div".toList, .endTag "div".toList]) := by
    rw [hends]
    exact run_append_of_eq (run_endTag htag) (by rw [hend]; exact run_endTag htag)
  have hrest : received date ("</div></div>".toList ++ rest) =
      '<' :: '/' :: ['d', 'i', 'v', '>'] ++ ("</div>".toList ++ received date rest) := by
    rw [received_append_left hclose.noBrace hclose.noReturn, hends, List.append_assoc]
  have hread : ∀ cs : List Char,
      run R (.text .data) (cs ++ "</div>".toList) = (.text .data, cs.map .char ++ [.endTag "div".toList]) →
      tokensFrom R (.text .data) (cs ++ ('<' :: '/' :: ['d', 'i', 'v', '>'] ++ ("</div>".toList ++ received date rest))) =
        cs.map .char ++ ([.endTag "div".toList, .endTag "div".toList] ++ tokensFrom R (.text .data) (received date rest)) := by
    intro cs hcs
    have hlast : run R (.text .data) "</div>".toList = (.text .data, [.endTag "div".toList]) := by
      rw [hend]
      exact run_endTag htag
    rw [← hend, ← List.append_assoc, tokensFrom_append hcs, tokensFrom_append hlast, List.append_assoc]
    rfl
  have htags : ∀ t ∈ [Token.endTag "div".toList, .endTag "div".toList], t.isChar = false := by simp [Token.isChar]
  rw [hclose.received, hrest, hdiv]
  constructor
  · intro h
    have hlead := congrArg lead h
    have hnone : lead ([Token.endTag "div".toList, .endTag "div".toList] ++ us) = 0 := rfl
    have htextual : (State.text .data).textual = true := rfl
    have hle := lead_le htag htextual (received date text.toList) ("</div>".toList ++ received date rest)
    have hheld : (State.text .data).held = [] := rfl
    rw [lead_chars, hnone] at hlead
    rw [hlead, hheld] at hle
    obtain ⟨hno, hnewlines⟩ := not_infix_of_length hlength text.toList (by simpa using hle)
    have hshort := length_newlines_le text.toList
    rw [hnewlines] at h hlead
    have hrun := run_of_lead htag htextual (newlines text.toList) ("</div>".toList ++ received date rest) (by
      rw [hlead, hheld]
      simpa using hshort)
    rw [hheld, List.nil_append, ← hend] at hrun
    rw [hread _ hrun, chars_append_inj (by simp) htags] at h
    obtain ⟨hsame, hus⟩ := h
    rw [hsame] at hrun
    exact ⟨⟨⟨hno, (newlines_eq_self_iff _).1 hsame⟩, hrun⟩, hus⟩
  · rintro ⟨⟨hverbatim, hinert⟩, hus⟩
    rw [(received_eq_self_iff hlength text).2 hverbatim, hread _ hinert, hus]

omit hR hdate hlength in
/-- Fixed text before the markup of its item. -/
theorem tokensFrom_fixed (date : String) {s markup : String} (h : Plain s) (hmarkup : Markup R markup) (rest : List Char)
    (us : List Token) :
    tokensFrom R (.text .data) (received date (s.toList ++ (markup.toList ++ rest))) =
        s.toList.map .char ++ ((run R (.text .data) markup.toList).2 ++ us) ↔
      tokensFrom R (.text .data) (received date rest) = us := by
  rw [h.received, tokensFrom_append h.run, hmarkup.tokensFrom, List.append_cancel_left_eq, List.append_cancel_left_eq]

omit hR hlength in
/-- The placeholder is replaced by the date. -/
theorem tokensFrom_caption {before markup : String} (h : Plain before) (hmarkup : Markup R markup) (rest : List Char)
    (us : List Token) :
    tokensFrom R (.text .data) (received date (before.toList ++ (PLACEHOLDER.toList ++ (markup.toList ++ rest)))) =
        before.toList.map .char ++ (date.toList.map .char ++ ((run R (.text .data) markup.toList).2 ++ us)) ↔
      tokensFrom R (.text .data) (received date rest) = us := by
  rw [h.received, hmarkup.received, received_PLACEHOLDER hdate, tokensFrom_append h.run, tokensFrom_append hdate.plain.run,
    hmarkup.tokensFrom, List.append_cancel_left_eq, List.append_cancel_left_eq, List.append_cancel_left_eq]

/-- An item is read as its parts and its texts exactly when its texts are read back. -/
theorem tokensFrom_item {i : Item} (hi : ItemOk R true i) (rest : List Char) (parts : List Part) (ss : List String) :
    tokensFrom R (.text .data) (received date ((i.1.src ++ i.2).toList ++ rest)) =
        fill R (i.1.parts date ++ [.markup i.2] ++ parts) (i.1.slots ++ ss) ↔
      ItemReads R i ∧ tokensFrom R (.text .data) (received date rest) = fill R parts ss := by
  obtain ⟨r, markup⟩ := i
  obtain ⟨hrun, hmarkup⟩ := hi
  have hnone : ∀ c ∈ "".toList.head?, c ∉ PLACEHOLDER.toList ∧ c ≠ '\n' := fun c hc => by cases hc
  have hreads : ItemReads R (r, markup) ↔ (∀ s ∈ r.slots, Verbatim s) ∧ ∀ name, r = .name name → Inert R name :=
    ⟨fun h => ⟨h.verbatim, h.inert⟩, fun h => ⟨h.1, h.2⟩⟩
  rw [hreads]
  cases hrun with
  | fixed h =>
    have hiff := tokensFrom_fixed date h hmarkup rest (fill R parts ss)
    simpa [Run.src, Run.parts, Run.slots, fill] using hiff
  | slot h text =>
    have hiff := tokensFrom_escaped hR hdate hlength isEscape_escChar text h plain_empty hnone hmarkup rest (fill R parts ss)
    simpa [Run.src, Run.parts, Run.slots, fill, toList_esc] using hiff
  | label h hstarts text =>
    have hiff := tokensFrom_escaped hR hdate hlength isEscape_svgEscChar text plain_empty h hstarts hmarkup rest (fill R parts ss)
    simpa [Run.src, Run.parts, Run.slots, fill, toList_svgEsc] using hiff
  | name text =>
    have hiff := tokensFrom_name (R := R) hlength hmarkup text rest (fill R parts ss)
    simpa [Run.src, Run.parts, Run.slots, fill] using hiff
  | caption h =>
    have hiff := tokensFrom_caption hdate h hmarkup rest (fill R parts ss)
    simpa [Run.src, Run.parts, Run.slots, fill] using hiff

theorem tokensFrom_items {items : List Item} (h : ItemsOk R true items) (rest : List Char) (parts : List Part) (ss : List String) :
    tokensFrom R (.text .data) (received date ((srcOf items).toList ++ rest)) =
        fill R (skeletonOf date items ++ parts) (slotsOf items ++ ss) ↔
      (∀ i ∈ items, ItemReads R i) ∧ tokensFrom R (.text .data) (received date rest) = fill R parts ss := by
  induction items with
  | nil => simp [srcOf_nil, skeletonOf, slotsOf]
  | cons i items ih =>
    obtain ⟨hi, hitems⟩ := List.forall_mem_cons.1 h
    have hslots : slotsOf (i :: items) = i.1.slots ++ slotsOf items := List.flatMap_cons
    have hsrc : (srcOf (i :: items)).toList ++ rest = (i.1.src ++ i.2).toList ++ ((srcOf items).toList ++ rest) := by
      rw [srcOf_cons, ← String.append_assoc, String.toList_append, List.append_assoc]
    rw [hsrc, skeletonOf_cons, hslots, List.append_assoc _ (skeletonOf date items), List.append_assoc _ (slotsOf items),
      tokensFrom_item hR hdate hlength hi, ih hitems, List.forall_mem_cons, and_assoc]

end

/-! ## Pages that are read -/

theorem all_cons {p : Char → Bool} {s : String} {cs : List Char} {ss : List String} (h : s = String.ofList cs)
    (hcs : cs.all p = true) (hss : ∀ t ∈ ss, t.toList.all p = true) : ∀ t ∈ s :: ss, t.toList.all p = true :=
  List.forall_mem_cons.2 ⟨by rw [h, String.toList_ofList, hcs], hss⟩

/-- A character of raw text that is received as it is. -/
def isRawChar (c : Char) : Bool := c != '<' && c != '\x00' && c != '_' && c != '\r'

theorem css_raw : ∀ c ∈ CSS.toList, isRawChar c = true := by
  have hlines : ∀ line ∈ CSS_LINES, line.toList.all isRawChar = true := by
    unfold CSS_LINES
    repeat refine all_cons rfl (by decide) ?_
    exact List.forall_mem_nil _
  intro c hc
  simp only [CSS, String.toList_append, String.toList_join, List.flatMap_map, List.mem_append, List.mem_flatMap] at hc
  rcases hc with hc | ⟨line, hline, hc | hc⟩
  · rw [show c = '\n' by simpa using hc]
    decide
  · exact List.all_eq_true.1 (hlines line hline) c hc
  · rw [show c = '\n' by simpa using hc]
    decide

/-- What a literal is read as does not depend on the references. -/
theorem run_literal {s : String} (h : '&' ∉ s.toList) (m : Mode) : run R (.text m) s.toList = run noReferences (.text m) s.toList :=
  run_congr rfl h

theorem run_pageHead : (run R (.text .data) pageHead.toList).1 = .text (.rcdata "title".toList) := by
  rw [run_literal (by decide)]
  decide

theorem run_pageStyle : run R (.text (.rcdata "title".toList)) pageStyle.toList =
    (.text (.rawtext "style".toList), (run R (.text .data) pageStyle.toList).2) := by
  have hamp : '&' ∉ pageStyle.toList := by decide
  rw [run_literal (R := R) hamp .data, run_literal (R := R) hamp]
  decide

theorem run_pageBody : run R (.text (.rawtext "style".toList)) pageBody.toList =
    (.text .data, (run R (.text .data) pageBody.toList).2) := by
  have hamp : '&' ∉ pageBody.toList := by decide
  rw [run_literal (R := R) hamp .data, run_literal (R := R) hamp]
  decide

theorem markup_pageTail : Markup R pageTail := markup_of_ofList rfl (by decide)

/-- In the title a null is not read back. -/
theorem title_reads (hlength : date.toList.length = 10) (title : String) :
    (received date title.toList).map shown = title.toList ↔ Verbatim title ∧ '\x00' ∉ title.toList := by
  have hself : ∀ cs : List Char, cs.map shown = cs ↔ '\x00' ∉ cs := by
    intro cs
    have hone : ∀ c, shown c = id c ↔ c ≠ '\x00' := by
      intro c
      unfold shown
      split_ifs with hc
      · subst hc
        decide
      · exact iff_of_true rfl hc
    calc cs.map shown = cs
      _ ↔ cs.map shown = cs.map id := by rw [List.map_id]
      _ ↔ ∀ c ∈ cs, c ≠ '\x00' := by simp only [List.map_inj_left, hone]
      _ ↔ '\x00' ∉ cs := ⟨fun h hmem => h _ hmem rfl, fun h c hc heq => h (heq ▸ hc)⟩
  constructor
  · intro h
    have hle : title.toList.length ≤ (received date title.toList).length := by
      have hmap := congrArg List.length h
      rw [List.length_map] at hmap
      exact le_of_eq hmap.symm
    obtain ⟨hno, hnewlines⟩ := not_infix_of_length hlength _ hle
    rw [hnewlines] at h
    have hreturn : '\r' ∉ title.toList := by
      intro hmem
      rw [← h] at hmem
      obtain ⟨c, hc, hc'⟩ := List.mem_map.1 hmem
      unfold shown at hc'
      split_ifs at hc' with hnull
      · exact absurd hc' (by decide)
      · subst hc'
        exact not_mem_newlinesFrom false _ hc
    rw [(newlines_eq_self_iff _).2 hreturn] at h
    exact ⟨⟨hno, hreturn⟩, (hself _).1 h⟩
  · rintro ⟨hverbatim, hnull⟩
    rw [(received_eq_self_iff hlength title).2 hverbatim, hself]
    exact hnull

section

variable {F : Type} {Φ : Floats F}

theorem toList_renderHtml (doc : ReportDoc F) : (renderHtml Φ doc).toList =
    pageHead.toList ++ (doc.docMeta.title.toList.flatMap escChar ++ (pageStyle.toList ++ (CSS.toList ++ (pageBody.toList ++
      ((srcOf (docItems Φ doc)).toList ++ (pageTail.toList ++ [])))))) := by
  have hbody := body_eq Φ doc
  have hpage : renderHtml Φ doc = pageHead ++ (esc doc.docMeta.title ++ (pageStyle ++ (CSS ++ (pageBody ++
      (cover doc.docMeta ++ String.join (doc.blocks.map (renderBlock Φ)) ++ pageTail))))) := by
    unfold renderHtml pageHead pageStyle pageBody pageTail
    simp only [String.append_assoc]
  rw [hpage, hbody]
  simp only [String.toList_append, toList_esc, List.append_nil]

/-- A literal of the page between a text and what follows. -/
theorem received_literal {src : List Char} (hstarts : src.head? = some '<') (hbrace : '\x7b' ∉ src) (hreturn : '\r' ∉ src)
    (xs rest : List Char) : received date (xs ++ (src ++ rest)) = received date xs ++ (src ++ received date rest) := by
  obtain ⟨cs, rfl⟩ := List.head?_eq_some_iff.1 hstarts
  rw [← received_append_left hbrace hreturn]
  exact received_append (by rw [toList_PLACEHOLDER]; decide) (by decide) _ _

theorem received_css : received date CSS.toList = CSS.toList := by
  have hmem : '_' ∈ PLACEHOLDER.toList := by decide
  have hunderscore : '_' ∉ CSS.toList := fun h => absurd (css_raw _ h) (by decide)
  have hreturn : '\r' ∉ CSS.toList := fun h => absurd (css_raw _ h) (by decide)
  rw [received, replaceAll_of_not_mem hmem hunderscore, (newlines_eq_self_iff _).2 hreturn]

theorem run_css : run R (.text (.rawtext "style".toList)) CSS.toList = (.text (.rawtext "style".toList), CSS.toList.map .char) := by
  refine run_rawtext fun c hc => ⟨?_, ?_⟩ <;> rintro rfl
  · exact absurd (css_raw _ hc) (by decide)
  · exact absurd (css_raw _ hc) (by decide)

/-- The page carries the document: its tokens are those of the skeleton of its shape with its texts. -/
def Carries (R : References) (Φ : Floats F) (doc : ReportDoc F) : Prop :=
  tokenise R (render Φ doc).toList = fill R (skeleton Φ (docShape doc)) (slots Φ doc)

theorem received_page (hdate : NumberText date) (title : List Char) (body : List Char) :
    received date (pageHead.toList ++ (title.flatMap escChar ++ (pageStyle.toList ++ (CSS.toList ++ (pageBody.toList ++ body))))) =
      pageHead.toList ++ ((received date title).flatMap escChar ++ (pageStyle.toList ++ (CSS.toList ++ (pageBody.toList ++
        received date body)))) := by
  have hhead : '\x7b' ∉ pageHead.toList ∧ '\r' ∉ pageHead.toList := by decide
  have hstyle : pageStyle.toList.head? = some '<' ∧ '\x7b' ∉ pageStyle.toList ∧ '\r' ∉ pageStyle.toList := by decide
  have hbody : pageBody.toList.head? = some '<' ∧ '\x7b' ∉ pageBody.toList ∧ '\r' ∉ pageBody.toList := by decide
  rw [received_append_left hhead.1 hhead.2, received_literal hstyle.1 hstyle.2.1 hstyle.2.2,
    received_literal hbody.1 hbody.2.1 hbody.2.2, received_css, received_flatMap hdate isEscape_escChar]

theorem tokensFrom_page (hR : ReadsEscapes R) (title body : List Char) :
    tokensFrom R (.text .data) (pageHead.toList ++ (title.flatMap escChar ++ (pageStyle.toList ++ (CSS.toList ++ (pageBody.toList ++
        body))))) =
      (run R (.text .data) pageHead.toList).2 ++ ((title.map shown).map .char ++ ((run R (.text .data) pageStyle.toList).2 ++
        (CSS.toList.map .char ++ ((run R (.text .data) pageBody.toList).2 ++ tokensFrom R (.text .data) body)))) := by
  have hhead : run R (.text .data) pageHead.toList = (.text (.rcdata "title".toList), (run R (.text .data) pageHead.toList).2) :=
    Prod.ext run_pageHead rfl
  rw [tokensFrom_append hhead, tokensFrom_append (run_escape hR rfl isEscape_escChar title), tokensFrom_append run_pageStyle,
    tokensFrom_append run_css, tokensFrom_append run_pageBody]
  rfl

theorem pageStyle_tags : (run R (.text .data) pageStyle.toList).2 ≠ [] ∧
    ∀ t ∈ (run R (.text .data) pageStyle.toList).2, t.isChar = false := by
  have hcheck : (run noReferences (.text .data) pageStyle.toList).2 ≠ [] ∧
      ((run noReferences (.text .data) pageStyle.toList).2.all fun t => !t.isChar) = true := by decide
  rw [run_literal (by decide)]
  exact ⟨hcheck.1, fun t ht => by simpa using List.all_eq_true.1 hcheck.2 t ht⟩

theorem carries_iff_items (hR : ReadsEscapes R) (hΦ : NumberTexts Φ) (doc : ReportDoc F) :
    Carries R Φ doc ↔ (Verbatim doc.docMeta.title ∧ '\x00' ∉ doc.docMeta.title.toList) ∧ ∀ i ∈ docItems Φ doc, ItemReads R i := by
  have hdate := numberText_fmtDate doc.docMeta.dataAsOfNs
  have hlength := length_fmtDate doc.docMeta.dataAsOfNs
  have hitems := tokensFrom_items hR hdate hlength (itemsOk_doc (R := R) hΦ doc) (pageTail.toList ++ []) [.markup pageTail] []
  have htail : tokensFrom R (.text .data) (received (fmtDate doc.docMeta.dataAsOfNs) (pageTail.toList ++ [])) =
      fill R [.markup pageTail] [] := by
    rw [markup_pageTail.tokensFrom]
    rfl
  have hfill : fill R (skeleton Φ doc) (slots Φ doc) = (run R (.text .data) pageHead.toList).2 ++
      (doc.docMeta.title.toList.map .char ++ ((run R (.text .data) pageStyle.toList).2 ++ (CSS.toList.map .char ++
        ((run R (.text .data) pageBody.toList).2 ++
          fill R (skeletonOf (fmtDate doc.docMeta.dataAsOfNs) (docItems Φ doc) ++ [.markup pageTail])
            (slotsOf (docItems Φ doc) ++ []))))) := by
    rw [List.append_nil]
    rfl
  rw [Carries, skeleton_docShape, tokenise, render, finalize, String.toList_ofList, ← received, toList_renderHtml,
    received_page hdate, tokensFrom_page hR, hfill, List.append_cancel_left_eq,
    chars_append_inj pageStyle_tags.1 pageStyle_tags.2, List.append_cancel_left_eq, List.append_cancel_left_eq, hitems,
    and_iff_left htail, title_reads hlength]

/-! ## Signatures -/

theorem itemsOk_no_name {items : List Item} (h : ItemsOk R false items) {i : Item} (hi : i ∈ items) (name : String) :
    i.1 ≠ .name name := by
  intro hname
  have hrun := (h i hi).run
  rw [hname] at hrun
  cases hrun

/-- The names that are written as they are are those of signatures. -/
theorem names_doc (hΦ : NumberTexts Φ) (doc : ReportDoc F) (Q : String → Prop) :
    (∀ i ∈ docItems Φ doc, ∀ name, i.1 = .name name → Q name) ↔
      ∀ roles, Block.signoff roles ∈ doc.blocks → ∀ r ∈ roles, r.2 ≠ "" → Q r.2 := by
  have hsig : ∀ role name, ∀ i ∈ sigItems role name, ∀ text, i.1 = .name text → name ≠ "" ∧ name = text := by
    intro role name i hi text htext
    simp only [sigItems, List.mem_cons, List.not_mem_nil, or_false] at hi
    rcases hi with rfl | rfl | rfl
    · cases htext
    · cases htext
    · dsimp only at htext
      split at htext
      · cases htext
      · exact ⟨‹_›, Run.name.inj htext⟩
  have hblank : ∀ {markup text : String}, (blank markup).1 ≠ .name text := fun h => by cases h
  constructor
  · intro h roles hroles r hr hne
    refine h (.name r.2, "</div></div>") ?_ _ rfl
    refine List.mem_append_right _ (List.mem_flatMap.2 ⟨_, hroles, ?_⟩)
    refine List.mem_append_left _ (List.mem_cons_of_mem _ (List.mem_flatMap.2 ⟨r, hr, ?_⟩))
    simp [sigItems, hne]
  · intro h i hi name hname
    rcases List.mem_append.1 hi with hi | hi
    · exact absurd hname (itemsOk_no_name (itemsOk_cover (R := noReferences) doc.docMeta) hi name)
    · obtain ⟨block, hblock, hi⟩ := List.mem_flatMap.1 hi
      have hok := itemsOk_block (R := noReferences) hΦ block
      cases block with
      | signoff roles =>
        simp only [blockItems, List.cons_append, List.mem_cons, List.mem_append, List.mem_flatMap, List.not_mem_nil, or_false] at hi
        rcases hi with rfl | ⟨r, hr, hi⟩ | rfl
        · exact absurd hname hblank
        · obtain ⟨hne, rfl⟩ := hsig r.1 r.2 i hi name hname
          exact h roles hblock r hr hne
        · exact absurd hname hblank
      | _ => exact absurd hname (itemsOk_no_name hok hi name)

/-! ## What a page carries -/

/-- A page carries its document exactly when no text has the placeholder or a carriage return, the title has no null, and the names
of signatures are read as themselves. -/
theorem carries_iff (hR : ReadsEscapes R) (hΦ : NumberTexts Φ) (doc : ReportDoc F) :
    Carries R Φ doc ↔ (∀ s ∈ slots Φ doc, Verbatim s) ∧ '\x00' ∉ doc.docMeta.title.toList ∧
      ∀ roles, Block.signoff roles ∈ doc.blocks → ∀ r ∈ roles, r.2 ≠ "" → Inert R r.2 := by
  have hreads : (∀ i ∈ docItems Φ doc, ItemReads R i) ↔ (∀ s ∈ slotsOf (docItems Φ doc), Verbatim s) ∧
      ∀ i ∈ docItems Φ doc, ∀ name, i.1 = .name name → Inert R name := by
    constructor
    · intro h
      refine ⟨fun s hs => ?_, fun i hi => (h i hi).inert⟩
      obtain ⟨i, hi, hs⟩ := List.mem_flatMap.1 hs
      exact (h i hi).verbatim s hs
    · intro h i hi
      exact ⟨fun s hs => h.1 s (List.mem_flatMap.2 ⟨i, hi, hs⟩), h.2 i hi⟩
  rw [carries_iff_items hR hΦ, hreads, names_doc hΦ, slots, List.forall_mem_cons]
  constructor
  · rintro ⟨⟨htitle, hnull⟩, hslots, hnames⟩
    exact ⟨⟨htitle, hslots⟩, hnull, hnames⟩
  · rintro ⟨⟨htitle, hslots⟩, hnull, hnames⟩
    exact ⟨⟨htitle, hnull⟩, hslots, hnames⟩

end

/-! ## A page with a signature -/

/-- The references of the escapes, which can be written without a semicolon, and the first numbers. -/
def basicReferences : References where
  named name := ([(['a', 'm', 'p'], '&'), (['l', 't'], '<'), (['g', 't'], '>'), (['q', 'u', 'o', 't'], '"')].find? fun e =>
    name = e.1 || name = e.1 ++ [';']).map fun e => [e.2]
  numeric := Char.ofNat
  named_nil := by decide
  named_length {name text} h := by
    obtain ⟨e, he, rfl⟩ := Option.map_eq_some_iff.1 h
    have hname := List.find?_some he
    have hmem := List.mem_of_find?_eq_some he
    have hpos : ∀ e ∈ [(['a', 'm', 'p'], '&'), (['l', 't'], '<'), (['g', 't'], '>'), (['q', 'u', 'o', 't'], '"')],
        0 < e.1.length := by decide
    have hlength : 0 < e.1.length := hpos e hmem
    rw [Bool.or_eq_true, decide_eq_true_eq, decide_eq_true_eq] at hname
    rcases hname with rfl | rfl
    · exact hlength
    · simp

theorem readsEscapes_basicReferences : ReadsEscapes basicReferences := ⟨rfl, rfl, rfl, rfl, rfl⟩

/-- Floating-point numbers of which only `NaN` is seen. -/
def nanFloats : Floats Unit where
  lit _ := ()
  infinity := ()
  negInfinity := ()
  pi := ()
  add _ _ := ()
  sub _ _ := ()
  mul _ _ := ()
  div _ _ := ()
  neg _ := ()
  max _ _ := ()
  min _ _ := ()
  abs _ := ()
  fract _ := ()
  cos _ := ()
  sin _ := ()
  sum _ := ()
  lt _ _ := false
  le _ _ := false
  eq _ _ := false
  asI64 _ := 0
  display _ := "NaN"
  fixed _ _ := "NaN"

theorem numberTexts_nanFloats : NumberTexts nanFloats := by
  have hnan : NumberText "NaN" := by
    intro c hc
    exact List.all_eq_true.1 (show "NaN".toList.all isNumberChar = true by decide) c hc
  exact ⟨fun _ => hnan, fun _ _ => hnan⟩

/-- A report with a paragraph and a signature. -/
def signedDoc (text name : String) : ReportDoc Unit :=
  ⟨⟨"D-1", "Quarter <1>", .executiveDigest, "1.0", "Internal", 0, 0, none, none, none⟩,
    [.paragraph text, .signoff [("Owner", name), ("Deputy", "")]]⟩

theorem slots_signed (text : String) {name : String} (h : name ≠ "") : slots nanFloats (signedDoc text name) =
    ["Quarter <1>", "Internal", "Quarter <1>", "D-1", "1.0", text, "Owner", name, "Deputy"] := by
  have hsig : sigItems "Owner" name = [blank ("<div class='sig'><div class='sig-line'></div>" ++ "<div class='sig-role'>"),
      (.slot "" "Owner", "</div><div class='sig-name'>"), (.name name, "</div></div>")] := by
    rw [sigItems, if_neg h]
  have hblock : blockItems nanFloats (.signoff [("Owner", name), ("Deputy", "")]) =
      blank "<div class='signoff'>" :: (sigItems "Owner" name ++ (sigItems "Deputy" "" ++ [])) ++ [blank "</div>"] := rfl
  have hdoc : docItems nanFloats (signedDoc text name) = coverItems (signedDoc text name).docMeta ++
      ([blank "<p>", (.slot "" text, "</p>")] ++ (blockItems nanFloats (.signoff [("Owner", name), ("Deputy", "")]) ++ [])) := rfl
  rw [slots, hdoc, hblock, hsig]
  rfl

theorem carries_signed : Carries basicReferences nanFloats (signedDoc "up & running" "Ada") :=
  (carries_iff readsEscapes_basicReferences numberTexts_nanFloats _).2 (by
    rw [slots_signed _ (by decide)]
    refine ⟨by decide, by decide, fun roles hroles r hr hne => ?_⟩
    obtain rfl : roles = [("Owner", "Ada"), ("Deputy", "")] := by simpa [signedDoc] using hroles
    rcases List.mem_cons.1 hr with rfl | hr
    · exact inert_of_plain (by simp)
    · rw [List.mem_singleton.1 hr] at hne
      exact absurd rfl hne)

/-- A name in markup is read as markup, and a text with the placeholder is read with the date instead. -/
theorem signed_markup_not_carried : ¬ Carries basicReferences nanFloats (signedDoc "up & running" "<b>Ada</b>") ∧
    ¬ Carries basicReferences nanFloats (signedDoc PLACEHOLDER "Ada") := by
  have hitems : ∀ text name, Carries basicReferences nanFloats (signedDoc text name) →
      ∀ i ∈ docItems nanFloats (signedDoc text name), ItemReads basicReferences i := fun text name h =>
    ((carries_iff_items readsEscapes_basicReferences numberTexts_nanFloats _).1 h).2
  constructor
  · intro h
    have hnames := (names_doc numberTexts_nanFloats _ (Inert basicReferences)).1 fun i hi => (hitems _ _ h i hi).inert
    have hblock : Block.signoff [("Owner", "<b>Ada</b>"), ("Deputy", "")] ∈ (signedDoc "up & running" "<b>Ada</b>").blocks := by
      simp [signedDoc]
    have hinert := hnames _ hblock ("Owner", "<b>Ada</b>") List.mem_cons_self (by decide)
    have hmarkup : ¬ Inert basicReferences "<b>Ada</b>" := by
      unfold Inert
      decide
    exact hmarkup hinert
  · intro h
    have hmem : (.slot "" PLACEHOLDER, "</p>") ∈ docItems nanFloats (signedDoc PLACEHOLDER "Ada") :=
      List.mem_append_right _ (List.mem_flatMap.2
        ⟨.paragraph PLACEHOLDER, List.mem_cons_self, List.mem_cons_of_mem _ List.mem_cons_self⟩)
    have hverbatim := (hitems _ _ h _ hmem).verbatim PLACEHOLDER List.mem_cons_self
    exact hverbatim.1 (List.infix_refl _)

end Tumult.Compliance.Html
