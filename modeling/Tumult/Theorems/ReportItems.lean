import Tumult.Theorems.ReportMarkup

/-!
# The tags of a report

The markup of the items is made of whole tags, none of which depends on a text of the document, and the fixed text between them has
no special characters.
-/

namespace Tumult.Compliance.Html

open HtmlTokens

variable {R : References}

/-! ## Markup -/

/-- Whole tags, at least one, without anything between them. -/
structure Markup (R : References) (src : String) : Prop where
  reads : ∃ ts, run R (.text .data) src.toList = (.text .data, ts) ∧ ts ≠ [] ∧ ∀ t ∈ ts, t.isChar = false
  starts : src.toList.head? = some '<'
  noBrace : '\x7b' ∉ src.toList
  noReturn : '\r' ∉ src.toList

theorem Markup.append {s t : String} (hs : Markup R s) (ht : Markup R t) : Markup R (s ++ t) := by
  obtain ⟨⟨ts, hts, hne, hchars⟩, hstarts, hbrace, hreturn⟩ := hs
  obtain ⟨⟨us, hus, -, hchars'⟩, hstarts', hbrace', hreturn'⟩ := ht
  refine ⟨⟨ts ++ us, ?_, by simp [hne], ?_⟩, ?_, ?_, ?_⟩
  · rw [String.toList_append]
    exact run_append_of_eq hts hus
  · intro t ht
    exact (List.mem_append.1 ht).elim (hchars t) (hchars' t)
  · rw [String.toList_append, List.head?_append, hstarts]
    rfl
  · rw [String.toList_append, List.mem_append]
    exact fun h => h.elim hbrace hbrace'
  · rw [String.toList_append, List.mem_append]
    exact fun h => h.elim hreturn hreturn'

/-- No reference is known. -/
def noReferences : References where
  named _ := none
  numeric _ := '?'
  named_nil := rfl
  named_length h := by cases h

def isMarkup (cs : List Char) : Bool :=
  let r := run noReferences (.text .data) cs
  decide (r.1 = .text .data) && decide (r.2 ≠ []) && r.2.all (fun t => !t.isChar) && decide (cs.head? = some '<') &&
    decide ('\x7b' ∉ cs) && decide ('\r' ∉ cs) && decide ('&' ∉ cs)

/-- A literal is markup when the list of its characters is. -/
theorem markup_of_ofList {s : String} {cs : List Char} (h : s = String.ofList cs) (hcs : isMarkup cs = true) : Markup R s := by
  simp only [isMarkup, Bool.and_eq_true, decide_eq_true_eq, List.all_eq_true, Bool.not_eq_true'] at hcs
  obtain ⟨⟨⟨⟨⟨⟨hstate, hne⟩, hchars⟩, hstarts⟩, hbrace⟩, hreturn⟩, hamp⟩ := hcs
  have hrun : run R (.text .data) cs = run noReferences (.text .data) cs := run_congr rfl hamp
  rw [← String.toList_inj, String.toList_ofList] at h
  refine ⟨⟨(run noReferences (.text .data) cs).2, ?_, hne, hchars⟩, ?_, ?_, ?_⟩
  · rw [h, hrun]
    exact Prod.ext hstate rfl
  · rw [h, hstarts]
  · rw [h]
    exact hbrace
  · rw [h]
    exact hreturn

/-- A value of an attribute that is written as it is. -/
def ValueOk (s : String) : Prop := ∀ c ∈ s.toList, c ≠ '\'' ∧ c ≠ '\x00' ∧ c ≠ '\x7b' ∧ c ≠ '\r'

def isValueChar (c : Char) : Bool := c != '\'' && c != '\x00' && c != '\x7b' && c != '\r'

theorem valueOk_of_ofList {s : String} {cs : List Char} (h : s = String.ofList cs) (hcs : cs.all isValueChar = true) :
    ValueOk s := by
  intro c hc
  rw [h, String.toList_ofList] at hc
  have hvalue := List.all_eq_true.1 hcs c hc
  simpa [isValueChar, and_assoc] using hvalue

theorem valueOk_append {s t : String} (hs : ValueOk s) (ht : ValueOk t) : ValueOk (s ++ t) := by
  intro c hc
  rw [String.toList_append, List.mem_append] at hc
  exact hc.elim (hs c) (ht c)

/-- Names of attributes, all of them different. -/
def areNames (names : List String) : Bool :=
  names.all (fun n => decide (n ≠ "") && n.toList.all HtmlTokens.isNameChar) && decide (names.map fun n => lower n.toList).Nodup

/-- A start tag with attributes is markup if the names are names and no value has a quote. -/
theorem markup_openTag {name close : String} {attrs : List (String × String)} {f : Bool} (names : List String)
    (hclose : close.toList = if f then ['/', '>'] else ['>'])
    (hname : ∃ c cs, name = String.ofList (c :: cs) ∧ c.isAlpha = true ∧ cs.all HtmlTokens.isNameChar = true ∧
      modeAfter (lower (c :: cs)) = .data)
    (hfst : attrs.map Prod.fst = names) (hattrs : areNames names = true) (hvalues : ∀ a ∈ attrs, ValueOk a.2) :
    Markup R (Svg.openTag name attrs close) := by
  obtain ⟨c, cs, rfl, hc, hcs, hmode⟩ := hname
  rw [List.all_eq_true] at hcs
  obtain ⟨hnames, hdistinct⟩ : (∀ a ∈ attrs, a.1 ≠ "" ∧ ∀ d ∈ a.1.toList, HtmlTokens.isNameChar d = true) ∧
      (attrs.map fun a => lower a.1.toList).Nodup := by
    subst hfst
    simp only [areNames, Bool.and_eq_true, List.all_map, List.all_eq_true, decide_eq_true_eq, List.map_map,
      Function.comp_apply] at hattrs
    exact hattrs
  have htext : (Svg.openTag (String.ofList (c :: cs)) attrs close).toList =
      openText (c :: cs) (attrs.map fun a => (a.1.toList, a.2.toList)) f := by
    have hattr : ∀ a : String × String, (" " ++ a.1 ++ "='" ++ a.2 ++ "'").toList = attrText (a.1.toList, a.2.toList) := by
      intro a
      simp [attrText]
    simp only [Svg.openTag, String.toList_append, String.toList_join, String.toList_ofList, List.flatMap_map, hattr, hclose,
      openText, List.append_assoc]
    rfl
  have hrun := run_openText (R := R) hc hcs (attrs.map fun a => (a.1.toList, a.2.toList)) (by
    intro a ha
    obtain ⟨b, hb, rfl⟩ := List.mem_map.1 ha
    exact ⟨by simpa using (hnames b hb).1, (hnames b hb).2, fun d hd => ⟨(hvalues b hb d hd).1, (hvalues b hb d hd).2.1⟩⟩) (by
    rw [List.map_map]
    exact hdistinct) f
  rw [hmode, ← htext] at hrun
  have hno : ∀ d : Char, HtmlTokens.isNameChar d = false → d ∉ [' ', '=', '\'', '<', '/', '>'] → (∀ a ∈ attrs, d ∉ a.2.toList) →
      d ∉ (Svg.openTag (String.ofList (c :: cs)) attrs close).toList := by
    intro d hd hsyntax hvalue
    have hchar : ∀ e ∈ c :: cs, HtmlTokens.isNameChar e = true :=
      List.forall_mem_cons.2 ⟨by simp [HtmlTokens.isNameChar, Char.isAlphanum, hc], hcs⟩
    rw [htext]
    refine not_mem_openText hd hsyntax hchar ?_ f
    intro a ha
    obtain ⟨b, hb, rfl⟩ := List.mem_map.1 ha
    exact ⟨(hnames b hb).2, hvalue b hb⟩
  refine ⟨⟨_, hrun, by simp, by simp [Token.isChar]⟩, ?_, ?_, ?_⟩
  · rw [htext]
    rfl
  · exact hno _ (by decide) (by decide) fun a ha hmem => (hvalues a ha _ hmem).2.2.1 rfl
  · exact hno _ (by decide) (by decide) fun a ha hmem => (hvalues a ha _ hmem).2.2.2 rfl

/-! ## The tags of charts -/

section

open Svg

theorem markup_svgTag {width height : String} (hw : ValueOk width) (hh : ValueOk height) : Markup R (svgTag width height) := by
  have hxmlns : ValueOk "http://www.w3.org/2000/svg" := valueOk_of_ofList rfl (by decide)
  have hbox : ValueOk ("0 0 " ++ width ++ " " ++ height) :=
    valueOk_append (valueOk_append (valueOk_append (valueOk_of_ofList rfl (by decide)) hw) (valueOk_of_ofList rfl (by decide))) hh
  exact markup_openTag ["xmlns", "width", "height", "viewBox"] (f := false) rfl ⟨_, _, rfl, by decide, by decide, by decide⟩ rfl
    (by decide) (by simp [hxmlns, hw, hh, hbox])

theorem markup_textTag {x y size fill : String} (hx : ValueOk x) (hy : ValueOk y) (hsize : ValueOk size) (hfill : ValueOk fill) :
    Markup R (textTag x y size fill) := by
  have hfont : ValueOk FONT.2 := valueOk_of_ofList rfl (by decide)
  exact markup_openTag ["x", "y", "font-size", "fill", "font-family"] (f := false) rfl ⟨_, _, rfl, by decide, by decide, by decide⟩
    rfl (by decide) (by simp [hx, hy, hsize, hfill, hfont])

theorem markup_rectTag {x y width height fill : String} (hx : ValueOk x) (hy : ValueOk y) (hw : ValueOk width) (hh : ValueOk height)
    (hfill : ValueOk fill) : Markup R (rectTag x y width height fill) :=
  markup_openTag ["x", "y", "width", "height", "fill"] (f := true) rfl ⟨_, _, rfl, by decide, by decide, by decide⟩ rfl
    (by decide) (by simp [hx, hy, hw, hh, hfill])

theorem markup_circleTag {cx cy r fill : String} (hcx : ValueOk cx) (hcy : ValueOk cy) (hr : ValueOk r) (hfill : ValueOk fill) :
    Markup R (circleTag cx cy r fill) :=
  markup_openTag ["cx", "cy", "r", "fill"] (f := true) rfl ⟨_, _, rfl, by decide, by decide, by decide⟩ rfl (by decide)
    (by simp [hcx, hcy, hr, hfill])

theorem markup_lineTag {x1 y1 x2 y2 : String} (hx1 : ValueOk x1) (hy1 : ValueOk y1) (hx2 : ValueOk x2) (hy2 : ValueOk y2) :
    Markup R (lineTag x1 y1 x2 y2) := by
  have hstroke : ValueOk "#999" := valueOk_of_ofList rfl (by decide)
  have hwidth : ValueOk "0.7" := valueOk_of_ofList rfl (by decide)
  exact markup_openTag ["x1", "y1", "x2", "y2", "stroke", "stroke-width"] (f := true) rfl
    ⟨_, _, rfl, by decide, by decide, by decide⟩ rfl (by decide) (by simp [hx1, hy1, hx2, hy2, hstroke, hwidth])

theorem markup_pathTag {d fill : String} (hd : ValueOk d) (hfill : ValueOk fill) : Markup R (pathTag d fill) :=
  markup_openTag ["d", "fill"] (f := true) rfl ⟨_, _, rfl, by decide, by decide, by decide⟩ rfl (by decide)
    (by simp [hd, hfill])

theorem markup_polylineTag {points stroke : String} (hpoints : ValueOk points) (hstroke : ValueOk stroke) :
    Markup R (polylineTag points stroke) := by
  have hnone : ValueOk "none" := valueOk_of_ofList rfl (by decide)
  have hwidth : ValueOk "1.6" := valueOk_of_ofList rfl (by decide)
  exact markup_openTag ["points", "fill", "stroke", "stroke-width"] (f := true) rfl ⟨_, _, rfl, by decide, by decide, by decide⟩ rfl
    (by decide) (by simp [hpoints, hnone, hstroke, hwidth])

theorem valueOk_color (i : Nat) : ValueOk (color i) := by
  have hall : ∀ c ∈ PALETTE, ValueOk c := by
    have hcheck : ∀ c ∈ PALETTE, c.toList.all isValueChar = true := by decide
    intro c hc
    exact valueOk_of_ofList (String.ofList_toList).symm (hcheck c hc)
  have hmem : color i ∈ PALETTE := by
    unfold color
    rw [List.getD_eq_getElem _ _ (Nat.mod_lt i (by decide))]
    exact List.getElem_mem _
  exact hall _ hmem

end

/-! ## Numbers -/

def isNumberChar (c : Char) : Bool := c.isAlphanum || c = '-' || c = '.'

def NumberText (s : String) : Prop := ∀ c ∈ s.toList, isNumberChar c = true

/-- How floating-point numbers are written: with digits, signs and points, or as `NaN` and `inf`. -/
structure NumberTexts {F : Type} (Φ : Floats F) : Prop where
  display : ∀ x, NumberText (Φ.display x)
  fixed : ∀ digits x, NumberText (Φ.fixed digits x)

theorem NumberText.valueOk {s : String} (h : NumberText s) : ValueOk s := by
  intro c hc
  refine ⟨?_, ?_, ?_, ?_⟩ <;> rintro rfl <;> exact absurd (h _ hc) (by decide)

theorem NumberText.plain {s : String} (h : NumberText s) : Plain s := by
  intro c hc
  have hne : ∀ d : Char, isNumberChar d = false → c ≠ d := by
    rintro d hd rfl
    rw [h c hc] at hd
    cases hd
  refine ⟨?_, hne _ (by decide), hne _ (by decide)⟩
  unfold escChar
  rw [if_neg (hne _ (by decide)), if_neg (hne _ (by decide)), if_neg (hne _ (by decide)), if_neg (hne _ (by decide)),
    if_neg (hne _ (by decide))]

theorem numberText_append {s t : String} (hs : NumberText s) (ht : NumberText t) : NumberText (s ++ t) := by
  intro c hc
  rw [String.toList_append, List.mem_append] at hc
  exact hc.elim (hs c) (ht c)

theorem numberText_dash : NumberText "-" := by
  intro c hc
  rw [show c = '-' by simpa using hc]
  decide

theorem numberText_nat (n : Nat) : NumberText n.repr := by
  intro c hc
  rw [Nat.repr_eq_ofList_toDigits, String.toList_ofList] at hc
  have hdigit := Nat.isDigit_of_mem_toDigits (by decide) (by decide) hc
  simp [isNumberChar, Char.isAlphanum, hdigit]

theorem numberText_int (i : Int) : NumberText (toString i) := by
  rw [Int.toString_eq_repr, Int.repr_eq_if]
  split
  · exact numberText_nat _
  · exact numberText_append numberText_dash (numberText_nat _)

theorem numberText_trimEndMatches (p : Char → Bool) {cs : List Char} (h : ∀ c ∈ cs, isNumberChar c = true) :
    ∀ c ∈ Text.trimEndMatches p cs, isNumberChar c = true := by
  obtain ⟨tail, htail, -⟩ := Text.trimEndMatches_split p cs
  intro c hc
  refine h c ?_
  rw [htail]
  exact List.mem_append_left _ hc

theorem numberText_fmtNum {F : Type} {Φ : Floats F} (hΦ : NumberTexts Φ) (v : F) : NumberText (Svg.fmtNum Φ v) := by
  unfold Svg.fmtNum
  split
  · exact numberText_int _
  · intro c hc
    rw [String.toList_ofList] at hc
    exact numberText_trimEndMatches _ (numberText_trimEndMatches _ (hΦ.fixed 1 v)) c hc

theorem numberText_zeroPadded (width : Nat) (x : Int) : NumberText (zeroPadded width x) := by
  have hsign : NumberText (if x < 0 then "-" else "") := by
    split
    · exact numberText_dash
    · intro c hc
      cases hc
  have hzeros : ∀ n, NumberText (String.ofList (List.replicate n '0')) := by
    intro n c hc
    rw [String.toList_ofList] at hc
    rw [List.eq_of_mem_replicate hc]
    decide
  exact numberText_append (numberText_append hsign (hzeros _)) (numberText_nat _)

theorem numberText_fmtDate (ns : Int64) : NumberText (fmtDate ns) := by
  unfold fmtDate Compliance.fmtDate
  cases dateOf ns with
  | none => intro c hc; cases hc
  | some date =>
    exact numberText_append (numberText_append (numberText_append (numberText_append (numberText_zeroPadded _ _)
      numberText_dash) (numberText_zeroPadded _ _)) numberText_dash) (numberText_zeroPadded _ _)

theorem plain_fmtDatetime (ns : Int64) : Plain (fmtDatetime ns) := by
  have hspace : Plain " " := plain_of_ofList rfl (by decide)
  have hcolon : Plain ":" := plain_of_ofList rfl (by decide)
  have hutc : Plain " UTC" := plain_of_ofList rfl (by decide)
  have hdate := (numberText_fmtDate ns).plain
  unfold fmtDate at hdate
  unfold fmtDatetime Compliance.fmtDatetime
  cases hns : Compliance.fmtDate ns with
  | none => intro c hc; cases hc
  | some date =>
    rw [hns] at hdate
    have hnumber : ∀ x, Plain (zeroPadded 2 x) := fun x => (numberText_zeroPadded 2 x).plain
    exact plain_append (plain_append (plain_append (plain_append (plain_append hdate hspace) (hnumber _)) hcolon) (hnumber _)) hutc

/-! ## Items -/

/-- Fixed text is plain, and where a text is before it, it does not begin with a character of the placeholder. A name, where there
may be one, stands before the end of its element. -/
inductive RunOk : Bool → Run → String → Prop where
  | fixed {b : Bool} {s : String} (h : Plain s) (markup : String) : RunOk b (.fixed s) markup
  | slot {b : Bool} {before : String} (h : Plain before) (text markup : String) : RunOk b (.slot before text) markup
  | label {b : Bool} {after : String} (h : Plain after) (hstarts : ∀ c ∈ after.toList.head?, c ∉ PLACEHOLDER.toList ∧ c ≠ '\n')
    (text markup : String) : RunOk b (.label text after) markup
  | name (text : String) : RunOk true (.name text) "</div></div>"
  | caption {b : Bool} {before : String} (h : Plain before) (markup : String) : RunOk b (.caption before) markup

structure ItemOk (R : References) (b : Bool) (i : Item) : Prop where
  run : RunOk b i.1 i.2
  markup : Markup R i.2

/-- The items are in order; `b` says whether there may be names. -/
def ItemsOk (R : References) (b : Bool) (items : List Item) : Prop := ∀ i ∈ items, ItemOk R b i

variable {b : Bool}

theorem itemsOk_nil : ItemsOk R b [] := by
  intro i hi
  cases hi

theorem itemsOk_cons {i : Item} {items : List Item} (hi : ItemOk R b i) (hitems : ItemsOk R b items) : ItemsOk R b (i :: items) :=
  List.forall_mem_cons.2 ⟨hi, hitems⟩

theorem itemsOk_append {items items' : List Item} (h : ItemsOk R b items) (h' : ItemsOk R b items') :
    ItemsOk R b (items ++ items') :=
  List.forall_mem_append.2 ⟨h, h'⟩

theorem itemsOk_flatMap {α : Type} {f : α → List Item} {l : List α} (h : ∀ a ∈ l, ItemsOk R b (f a)) :
    ItemsOk R b (l.flatMap f) := by
  intro i hi
  obtain ⟨a, ha, hi⟩ := List.mem_flatMap.1 hi
  exact h a ha i hi

theorem plain_empty : Plain "" := fun _ hc => by cases hc

theorem itemOk_blank {markup : String} (h : Markup R markup) : ItemOk R b (blank markup) := ⟨.fixed plain_empty _, h⟩

theorem itemsOk_blank {markup : String} (h : Markup R markup) : ItemsOk R b [blank markup] :=
  itemsOk_cons (itemOk_blank h) itemsOk_nil

theorem itemOk_fixed {s markup : String} (hs : Plain s) (h : Markup R markup) : ItemOk R b (.fixed s, markup) := ⟨.fixed hs _, h⟩

/-- A slot that fills the text of its element. -/
theorem itemOk_slot {text markup : String} (h : Markup R markup) : ItemOk R b (.slot "" text, markup) :=
  ⟨.slot plain_empty _ _, h⟩

theorem itemOk_label {text markup : String} (h : Markup R markup) : ItemOk R b (.label text "", markup) :=
  ⟨.label plain_empty (fun _ hc => by cases hc) _ _, h⟩

/-! ## The items of charts -/

section

open Svg

variable {F : Type} {Φ : Floats F} (hΦ : NumberTexts Φ)

theorem markup_closeText : Markup R "</text>" := markup_of_ofList rfl (by decide)

theorem markup_closeSvg : Markup R "</svg>" := markup_of_ofList rfl (by decide)

include hΦ

theorem itemsOk_bar (max : F) (row : String × F) (i : Nat) : ItemsOk R b (barItems Φ max row i) := by
  have hzero : ValueOk "0" := valueOk_of_ofList rfl (by decide)
  have hsize : ValueOk "9.5" := valueOk_of_ofList rfl (by decide)
  have hgrey : ValueOk "#333" := valueOk_of_ofList rfl (by decide)
  have hheight : ValueOk "14" := valueOk_of_ofList rfl (by decide)
  have hfixed : ∀ digits x, ValueOk (Φ.fixed digits x) := fun digits x => (hΦ.fixed digits x).valueOk
  have hdisplay : ∀ x, ValueOk (Φ.display x) := fun x => (hΦ.display x).valueOk
  refine itemsOk_cons (itemOk_blank (markup_textTag hzero (hfixed _ _) hsize hgrey)) (itemsOk_cons (itemOk_label ?_)
    (itemsOk_cons (itemOk_fixed (numberText_fmtNum hΦ _).plain markup_closeText) itemsOk_nil))
  exact (markup_closeText.append (markup_rectTag (hdisplay _) (hfixed _ _) (hfixed _ _) hheight (valueOk_color i))).append
    (markup_textTag (hfixed _ _) (hfixed _ _) hsize hgrey)

theorem itemsOk_bars (rows : List (String × F)) : ItemsOk R b (barsItems Φ rows) := by
  have hwidth : ValueOk "480" := valueOk_of_ofList rfl (by decide)
  refine itemsOk_append (itemsOk_cons (itemOk_blank (markup_svgTag hwidth (hΦ.fixed _ _).valueOk)) ?_)
    (itemsOk_blank markup_closeSvg)
  exact itemsOk_flatMap fun row _ => itemsOk_bar hΦ _ _ _

theorem itemsOk_arc (total angle v : F) (i : Nat) : ItemsOk R b (arcItems Φ total angle v i) := by
  have hfixed : ∀ digits x, ValueOk (Φ.fixed digits x) := fun digits x => (hΦ.fixed digits x).valueOk
  have hdisplay : ∀ x, ValueOk (Φ.display x) := fun x => (hΦ.display x).valueOk
  have hwhite : ValueOk "#fff" := valueOk_of_ofList rfl (by decide)
  have hmarkup : arc Φ total angle v i = "" ∨ Markup R (arc Φ total angle v i) := by
    unfold arc
    dsimp only
    split
    · exact .inr ((markup_circleTag (hdisplay _) (hdisplay _) (hdisplay _) (valueOk_color i)).append
        (markup_circleTag (hdisplay _) (hdisplay _) (hdisplay _) hwhite))
    · split
      · right
        have hpoint : ∀ x y : F, ValueOk (Φ.fixed 2 x ++ " " ++ Φ.fixed 2 y) := fun x y =>
          valueOk_append (valueOk_append (hfixed _ _) (valueOk_of_ofList rfl (by decide))) (hfixed _ _)
        have hlarge : ValueOk (if Φ.lt Φ.pi (Φ.mul (Φ.div v total) (Φ.mul (Φ.lit 2) Φ.pi)) then "1" else "0") := by
          split <;> exact valueOk_of_ofList rfl (by decide)
        refine markup_pathTag ?_ (valueOk_color i)
        have hcat : ∀ {s t u : String}, ValueOk s → ValueOk t → ValueOk u → ValueOk (s ++ t ++ u) := fun hs ht hu =>
          valueOk_append (valueOk_append hs ht) hu
        have hspace : ValueOk " " := valueOk_of_ofList rfl (by decide)
        have harc : ValueOk " A" := valueOk_of_ofList rfl (by decide)
        have hflag : ValueOk " 0 " := valueOk_of_ofList rfl (by decide)
        have hone : ValueOk " 1 " := valueOk_of_ofList rfl (by decide)
        have hmove : ValueOk "M" := valueOk_of_ofList rfl (by decide)
        have hline : ValueOk " L" := valueOk_of_ofList rfl (by decide)
        have hclose : ValueOk " Z" := valueOk_of_ofList rfl (by decide)
        have hr := hdisplay (Φ.lit 56)
        have hir := hdisplay (Φ.lit 30)
        exact hcat (hcat (hcat (hcat (hcat (hcat (hcat (hcat (hcat (hcat hmove (hpoint _ _) harc) hr hspace) hr hflag) hlarge hone)
          (hpoint _ _) hline) (hpoint _ _) harc) hir hspace) hir hflag) hlarge hflag) (hpoint _ _) hclose
      · exact .inl rfl
  unfold arcItems
  split
  · exact itemsOk_nil
  · exact itemsOk_blank (hmarkup.resolve_left ‹_›)

theorem itemsOk_legend (total v : F) (label : String) (i : Nat) : ItemsOk R b (legendItems Φ total v label i) := by
  have hx : ValueOk "150" := valueOk_of_ofList rfl (by decide)
  have hten : ValueOk "10" := valueOk_of_ofList rfl (by decide)
  have hlabel : ValueOk "166" := valueOk_of_ofList rfl (by decide)
  have hgrey : ValueOk "#333" := valueOk_of_ofList rfl (by decide)
  have hpercent : Plain (" — " ++ fmtNum Φ (Φ.mul (Φ.div v total) (Φ.lit 100)) ++ "%") :=
    plain_append (plain_append (plain_of_ofList rfl (by decide)) (numberText_fmtNum hΦ _).plain) (plain_of_ofList rfl (by decide))
  refine itemsOk_cons (itemOk_blank ((markup_rectTag hx (hΦ.fixed _ _).valueOk hten hten (valueOk_color i)).append
    (markup_textTag hlabel (hΦ.fixed _ _).valueOk hten hgrey)))
    (itemsOk_cons ⟨.label hpercent ?_ _ _, markup_closeText⟩ itemsOk_nil)
  intro c hc
  rw [String.append_assoc, String.toList_append, List.head?_append] at hc
  have hspace : ' ' = c := by simpa using hc
  rw [← hspace]
  decide

theorem itemsOk_donutFrom (total : F) (i : Nat) (angle : F) (slices : List (String × F)) :
    ItemsOk R b (donutItemsFrom Φ total i angle slices) := by
  induction slices generalizing i angle with
  | nil => exact itemsOk_nil
  | cons slice slices ih =>
    exact itemsOk_append (itemsOk_append (itemsOk_arc hΦ _ _ _ _) (itemsOk_legend hΦ _ _ _ _)) (ih _ _)

theorem itemsOk_donut (slices : List (String × F)) : ItemsOk R b (donutItems Φ slices) := by
  have hwidth : ValueOk "400" := valueOk_of_ofList rfl (by decide)
  have hheight : ValueOk "140" := valueOk_of_ofList rfl (by decide)
  unfold donutItems
  dsimp only
  split
  · exact itemsOk_nil
  · exact itemsOk_append (itemsOk_cons (itemOk_blank (markup_svgTag hwidth hheight)) (itemsOk_donutFrom hΦ _ _ _ _))
      (itemsOk_blank markup_closeSvg)

theorem itemsOk_axes (s : Scale F) : ItemsOk R b (axesItems Φ s) := by
  have hx : ValueOk "2" := valueOk_of_ofList rfl (by decide)
  have hsize : ValueOk "8" := valueOk_of_ofList rfl (by decide)
  have hgrey : ValueOk "#666" := valueOk_of_ofList rfl (by decide)
  have hfixed : ∀ digits x, ValueOk (Φ.fixed digits x) := fun digits x => (hΦ.fixed digits x).valueOk
  have hdisplay : ∀ x, ValueOk (Φ.display x) := fun x => (hΦ.display x).valueOk
  have hline : ∀ x1 y1 x2 y2 : F, Markup R (lineTag (Φ.display x1) (Φ.display y1) (Φ.display x2) (Φ.display y2)) := fun _ _ _ _ =>
    markup_lineTag (hdisplay _) (hdisplay _) (hdisplay _) (hdisplay _)
  have htext : ∀ y : F, Markup R (textTag "2" (Φ.fixed 1 y) "8" "#666") := fun _ => markup_textTag hx (hfixed _ _) hsize hgrey
  exact itemsOk_cons (itemOk_blank (((hline _ _ _ _).append (hline _ _ _ _)).append (htext _)))
    (itemsOk_cons (itemOk_fixed (numberText_fmtNum hΦ _).plain (markup_closeText.append (htext _)))
      (itemsOk_cons (itemOk_fixed (numberText_fmtNum hΦ _).plain markup_closeText) itemsOk_nil))

theorem valueOk_points (points : List (F × F)) (x y : F × F → F) :
    ValueOk (" ".intercalate (points.map fun p => Φ.fixed 1 (x p) ++ "," ++ Φ.fixed 1 (y p))) := by
  have hspace : ValueOk " " := valueOk_of_ofList rfl (by decide)
  have hcomma : ValueOk "," := valueOk_of_ofList rfl (by decide)
  have hpoint : ∀ p, ValueOk (Φ.fixed 1 (x p) ++ "," ++ Φ.fixed 1 (y p)) := fun p =>
    valueOk_append (valueOk_append (hΦ.fixed _ _).valueOk hcomma) (hΦ.fixed _ _).valueOk
  induction points with
  | nil => exact fun _ hc => by cases hc
  | cons p points ih =>
    cases points with
    | nil => exact hpoint p
    | cons q points =>
      rw [List.map_cons, String.intercalate_cons_of_ne_nil (by simp)]
      exact valueOk_append (valueOk_append (hpoint p) hspace) ih

theorem itemsOk_line (s : Scale F) (name : String) (points : List (F × F)) (i : Nat) :
    ItemsOk R b (lineItems Φ s name points i) := by
  have hradius : ValueOk "2.2" := valueOk_of_ofList rfl (by decide)
  have hsize : ValueOk "9" := valueOk_of_ofList rfl (by decide)
  have hfixed : ∀ digits x, ValueOk (Φ.fixed digits x) := fun digits x => (hΦ.fixed digits x).valueOk
  unfold lineItems
  cases points.getLast? with
  | none => exact itemsOk_nil
  | some last =>
    refine itemsOk_append (itemsOk_cons (itemOk_blank (markup_polylineTag (valueOk_points hΦ _ _ _) (valueOk_color i))) ?_)
      (itemsOk_cons (itemOk_blank (markup_textTag (hfixed _ _) (hfixed _ _) hsize (valueOk_color i)))
        (itemsOk_cons (itemOk_label markup_closeText) itemsOk_nil))
    intro item hitem
    obtain ⟨p, -, rfl⟩ := List.mem_map.1 hitem
    exact itemOk_blank (markup_circleTag (hfixed _ _) (hfixed _ _) hradius (valueOk_color i))

theorem itemsOk_lines (series : List (String × List (F × F))) : ItemsOk R b (linesItems Φ series) := by
  unfold linesItems
  dsimp only
  split
  · exact itemsOk_nil
  · refine itemsOk_append (itemsOk_append (itemsOk_cons (itemOk_blank (markup_svgTag (hΦ.fixed _ _).valueOk (hΦ.fixed _ _).valueOk))
      (itemsOk_axes hΦ _)) ?_) (itemsOk_blank markup_closeSvg)
    exact itemsOk_flatMap fun x _ => itemsOk_line hΦ _ _ _ _

theorem itemsOk_chart (spec : ChartSpec F) : ItemsOk R b (chartItems Φ spec) := by
  cases spec with
  | bars rows => exact itemsOk_bars hΦ rows
  | donut slices => exact itemsOk_donut hΦ slices
  | lines series => exact itemsOk_lines hΦ series

end

/-! ## The items of blocks -/

theorem markup_closeDiv : Markup R "</div>" := markup_of_ofList rfl (by decide)

theorem markup_closeCell : Markup R "</td></tr>" := markup_of_ofList rfl (by decide)

theorem itemsOk_cell {close : String} (hclose : Markup R close) (cell : Cell) : ItemsOk R b (cellItems close cell) := by
  have hspan : Markup R "</span>" := markup_of_ofList rfl (by decide)
  have hspace : Plain " " := plain_of_ofList rfl (by decide)
  have hopen : ∀ color : String, ValueOk color → Markup R ("<span class='glyph' style='color:" ++ color ++ "'>") := by
    intro color hcolor
    have hglyph : ValueOk "glyph" := valueOk_of_ofList rfl (by decide)
    have hstyle : ValueOk ("color:" ++ color) := valueOk_append (valueOk_of_ofList rfl (by decide)) hcolor
    have htag : "<span class='glyph' style='color:" ++ color ++ "'>" =
        Svg.openTag "span" [("class", "glyph"), ("style", "color:" ++ color)] ">" := by
      apply String.toList_injective
      simp [Svg.openTag]
    rw [htag]
    exact markup_openTag ["class", "style"] (f := false) rfl ⟨_, _, rfl, by decide, by decide, by decide⟩ rfl (by decide)
      (by simp [hglyph, hstyle])
  cases cell with
  | text t => exact itemsOk_cons (itemOk_slot hclose) itemsOk_nil
  | status s =>
    obtain ⟨hshape, hcolor⟩ : Plain (Cell.glyph s).1 ∧ ValueOk (Cell.glyph s).2 := by
      unfold Cell.glyph
      dsimp only
      split_ifs <;> exact ⟨plain_of_ofList rfl (by decide), valueOk_of_ofList rfl (by decide)⟩
    exact itemsOk_cons (itemOk_blank (hopen _ hcolor)) (itemsOk_cons (itemOk_fixed hshape hspan)
      (itemsOk_cons ⟨.slot hspace _ _, hclose⟩ itemsOk_nil))

theorem itemsOk_kpi (kpi : String × String × Option String) : ItemsOk R b (kpiItems kpi) := by
  have hlabel : Markup R "<div class='kpi'><div class='kpi-label'>" := markup_of_ofList rfl (by decide)
  have hvalue : Markup R "<div class='kpi-value'>" := markup_of_ofList rfl (by decide)
  have hsub : Markup R "<div class='kpi-sub'>" := markup_of_ofList rfl (by decide)
  refine itemsOk_append (itemsOk_append (itemsOk_cons (itemOk_blank hlabel)
    (itemsOk_cons (itemOk_slot (markup_closeDiv.append hvalue)) (itemsOk_cons (itemOk_slot markup_closeDiv) itemsOk_nil))) ?_)
    (itemsOk_blank markup_closeDiv)
  cases kpi.2.2 with
  | none => exact itemsOk_nil
  | some s => exact itemsOk_cons (itemOk_blank hsub) (itemsOk_cons (itemOk_slot markup_closeDiv) itemsOk_nil)

/-- The start tag of a cell with its class. -/
theorem markup_numClass (numericCols : List Nat) (i : Nat) :
    Markup R ("<th" ++ numClass numericCols i ++ ">") ∧ Markup R ("<td" ++ numClass numericCols i ++ ">") := by
  have hnum : ValueOk "num" := valueOk_of_ofList rfl (by decide)
  have htag : ∀ name : String, "<" ++ name ++ numClass numericCols i ++ ">" =
      Svg.openTag name (if i ∈ numericCols then [("class", "num")] else []) ">" := by
    intro name
    apply String.toList_injective
    unfold numClass
    split <;> simp [Svg.openTag]
  have hth : "<th" = "<" ++ "th" := by decide
  have htd : "<td" = "<" ++ "td" := by decide
  rw [hth, htd, htag, htag]
  split
  · exact ⟨markup_openTag ["class"] (f := false) rfl ⟨_, _, rfl, by decide, by decide, by decide⟩ rfl (by decide) (by simp [hnum]),
      markup_openTag ["class"] (f := false) rfl ⟨_, _, rfl, by decide, by decide, by decide⟩ rfl (by decide) (by simp [hnum])⟩
  · exact ⟨markup_openTag [] (f := false) rfl ⟨_, _, rfl, by decide, by decide, by decide⟩ rfl (by decide) (by simp),
      markup_openTag [] (f := false) rfl ⟨_, _, rfl, by decide, by decide, by decide⟩ rfl (by decide) (by simp)⟩

theorem itemsOk_head (numericCols : List Nat) (headers : List String) : ItemsOk R b (headItems numericCols headers) := by
  have hclose : Markup R "</th>" := markup_of_ofList rfl (by decide)
  exact itemsOk_flatMap fun h _ =>
    itemsOk_cons (itemOk_blank (markup_numClass _ _).1) (itemsOk_cons (itemOk_slot hclose) itemsOk_nil)

theorem itemsOk_row (numericCols : List Nat) (row : List Cell) : ItemsOk R b (rowItems numericCols row) := by
  have hopen : Markup R "<tr>" := markup_of_ofList rfl (by decide)
  have hcell : Markup R "</td>" := markup_of_ofList rfl (by decide)
  have hclose : Markup R "</tr>" := markup_of_ofList rfl (by decide)
  exact itemsOk_append (itemsOk_cons (itemOk_blank hopen) (itemsOk_flatMap fun c _ =>
    itemsOk_cons (itemOk_blank (markup_numClass _ _).2) (itemsOk_cell hcell _))) (itemsOk_blank hclose)

theorem itemsOk_sig (role name : String) : ItemsOk R true (sigItems role name) := by
  have hline : Markup R "<div class='sig'><div class='sig-line'></div>" := markup_of_ofList rfl (by decide)
  have hrole : Markup R "<div class='sig-role'>" := markup_of_ofList rfl (by decide)
  have hname : Markup R "</div><div class='sig-name'>" := markup_of_ofList rfl (by decide)
  have hclose : Markup R "</div></div>" := markup_of_ofList rfl (by decide)
  have hblank : Plain "Name / date" := plain_of_ofList rfl (by decide)
  refine itemsOk_cons (itemOk_blank (hline.append hrole)) (itemsOk_cons (itemOk_slot hname) (itemsOk_cons ⟨?_, hclose⟩ itemsOk_nil))
  dsimp only
  split
  · exact .fixed hblank _
  · exact .name _

section

variable {F : Type} {Φ : Floats F} (hΦ : NumberTexts Φ)

include hΦ

theorem itemsOk_col (widths : Option (List F)) : ItemsOk R b (colItems Φ widths) := by
  have hopen : Markup R "<colgroup>" := markup_of_ofList rfl (by decide)
  have hclose : Markup R "</colgroup>" := markup_of_ofList rfl (by decide)
  have hcol : ∀ x : F, Markup R ("<col style='width:" ++ Φ.fixed 1 x ++ "%'>") := by
    intro x
    have hvalue : ValueOk ("width:" ++ Φ.fixed 1 x ++ "%") :=
      valueOk_append (valueOk_append (valueOk_of_ofList rfl (by decide)) (hΦ.fixed 1 x).valueOk) (valueOk_of_ofList rfl (by decide))
    have htag : "<col style='width:" ++ Φ.fixed 1 x ++ "%'>" =
        Svg.openTag "col" [("style", "width:" ++ Φ.fixed 1 x ++ "%")] ">" := by
      apply String.toList_injective
      simp [Svg.openTag]
    rw [htag]
    exact markup_openTag ["style"] (f := false) rfl ⟨_, _, rfl, by decide, by decide, by decide⟩ rfl (by decide) (by simp [hvalue])
  have hmarkup : colgroup Φ widths = "" ∨ Markup R (colgroup Φ widths) := by
    unfold colgroup
    cases widths with
    | none => exact .inl rfl
    | some ws =>
      dsimp only
      split
      · exact .inl rfl
      · right
        generalize Φ.sum ws = total
        have hcols : ∀ vs : List F, ∀ cols,
            cols = String.join (vs.map fun w => "<col style='width:" ++ Φ.fixed 1 (Φ.mul (Φ.div w total) (Φ.lit 100)) ++ "%'>") →
              cols = "" ∨ Markup R cols := by
          rintro vs _ rfl
          induction vs with
          | nil => exact .inl rfl
          | cons v vs ih =>
            right
            rw [List.map_cons, String.join_cons]
            rcases ih with hnone | hsome
            · rw [hnone, String.append_empty]
              exact hcol _
            · exact (hcol _).append hsome
        rcases hcols ws _ rfl with hnone | hsome
        · rw [hnone, String.append_empty]
          exact hopen.append hclose
        · exact (hopen.append hsome).append hclose
  unfold colItems
  split
  · exact itemsOk_nil
  · exact itemsOk_blank (hmarkup.resolve_left ‹_›)

def Block.isSignoff : Block F → Bool
  | .signoff _ => true
  | _ => false

theorem itemsOk_block (block : Block F) : ItemsOk R (Block.isSignoff block) (blockItems Φ block) := by
  have htext : ∀ {opening closing text : String}, Markup R opening → Markup R closing →
      ItemsOk R false [blank opening, (.slot "" text, closing)] := fun ho hc =>
    itemsOk_cons (itemOk_blank ho) (itemsOk_cons (itemOk_slot hc) itemsOk_nil)
  cases block with
  | h1 text => exact htext (markup_of_ofList rfl (by decide)) (markup_of_ofList rfl (by decide +kernel))
  | h2 text => exact htext (markup_of_ofList rfl (by decide)) (markup_of_ofList rfl (by decide +kernel))
  | h3 text => exact htext (markup_of_ofList rfl (by decide)) (markup_of_ofList rfl (by decide +kernel))
  | paragraph text => exact htext (markup_of_ofList rfl (by decide)) (markup_of_ofList rfl (by decide +kernel))
  | kpis kpis =>
    have hopen : Markup R "<div class='kpis'>" := markup_of_ofList rfl (by decide)
    exact itemsOk_append (itemsOk_cons (itemOk_blank hopen) (itemsOk_flatMap fun kpi _ => itemsOk_kpi kpi))
      (itemsOk_blank markup_closeDiv)
  | keyValues kvs =>
    have hopen : Markup R "<table class='docmeta'><tbody>" := markup_of_ofList rfl (by decide)
    have hrow : Markup R "<tr><th>" := markup_of_ofList rfl (by decide)
    have hvalue : Markup R "</th><td>" := markup_of_ofList rfl (by decide)
    have hclose : Markup R "</tbody></table>" := markup_of_ofList rfl (by decide)
    exact itemsOk_append (itemsOk_cons (itemOk_blank hopen) (itemsOk_flatMap fun kv _ =>
      itemsOk_append (htext hrow hvalue) (itemsOk_cell markup_closeCell kv.2))) (itemsOk_blank hclose)
  | table headers rows numericCols widths =>
    have hopen : Markup R "<table class='data'>" := markup_of_ofList rfl (by decide)
    have hhead : Markup R "<thead><tr>" := markup_of_ofList rfl (by decide)
    have hbody : Markup R "</tr></thead><tbody>" := markup_of_ofList rfl (by decide)
    have hclose : Markup R "</tbody></table>" := markup_of_ofList rfl (by decide)
    exact itemsOk_append (itemsOk_append (itemsOk_append (itemsOk_cons (itemOk_blank hopen) (itemsOk_col hΦ widths))
      (itemsOk_cons (itemOk_blank hhead) (itemsOk_head _ _))) (itemsOk_cons (itemOk_blank hbody)
        (itemsOk_flatMap fun row _ => itemsOk_row numericCols row))) (itemsOk_blank hclose)
  | bullets items =>
    have hopen : Markup R "<ul>" := markup_of_ofList rfl (by decide)
    have hclose : Markup R "</ul>" := markup_of_ofList rfl (by decide)
    have hitem : Markup R "<li>" := markup_of_ofList rfl (by decide)
    have hend : Markup R "</li>" := markup_of_ofList rfl (by decide)
    exact itemsOk_append (itemsOk_cons (itemOk_blank hopen) (itemsOk_flatMap fun i _ => htext hitem hend)) (itemsOk_blank hclose)
  | chart spec =>
    have hopen : Markup R "<figure>" := markup_of_ofList rfl (by decide)
    have hcaption : Markup R "<figcaption>" := markup_of_ofList rfl (by decide)
    have hclose : Markup R "</figcaption></figure>" := markup_of_ofList rfl (by decide)
    have hsource : Plain "Source: Tumult · data as of " := plain_of_ofList rfl (by decide)
    exact itemsOk_append (itemsOk_cons (itemOk_blank hopen) (itemsOk_chart hΦ spec))
      (itemsOk_cons (itemOk_blank hcaption) (itemsOk_cons ⟨.caption hsource _, hclose⟩ itemsOk_nil))
  | pageBreak => exact itemsOk_blank (markup_of_ofList rfl (by decide))
  | footnote text => exact htext (markup_of_ofList rfl (by decide)) (markup_of_ofList rfl (by decide +kernel))
  | signoff roles =>
    have hopen : Markup R "<div class='signoff'>" := markup_of_ofList rfl (by decide)
    exact itemsOk_append (itemsOk_cons (itemOk_blank hopen) (itemsOk_flatMap fun r _ => itemsOk_sig r.1 r.2))
      (itemsOk_blank markup_closeDiv)

end

/-! ## The items of the cover -/

theorem itemsOk_control {label : String} {run : Run} (hlabel : Plain label) (hrun : RunOk b run "</td></tr>") :
    ItemsOk R b (controlItems label run) := by
  have hrow : Markup R "<tr><th>" := markup_of_ofList rfl (by decide)
  have hvalue : Markup R "</th><td>" := markup_of_ofList rfl (by decide)
  exact itemsOk_cons (itemOk_blank hrow) (itemsOk_cons (itemOk_fixed hlabel hvalue)
    (itemsOk_cons ⟨hrun, markup_closeCell⟩ itemsOk_nil))

theorem runOk_subtitle (m : DocMeta) (markup : String) : RunOk b (subtitleRun m) markup := by
  have hdigest : Plain "Executive Resilience Digest" := plain_of_ofList rfl (by decide)
  have hgame : Plain "Game-Day Experiment Report — " := plain_of_ofList rfl (by decide)
  have hunknown : Plain "unknown run" := plain_of_ofList rfl (by decide)
  have hpack : Plain "Compliance Evidence Pack — " := plain_of_ofList rfl (by decide)
  have hframework : Plain "framework" := plain_of_ofList rfl (by decide)
  unfold subtitleRun
  cases m.template with
  | executiveDigest => exact .fixed hdigest _
  | gameDay =>
    cases m.experimentId with
    | none => exact .fixed (plain_append hgame hunknown) _
    | some id => exact .slot hgame _ _
  | evidencePack =>
    cases m.framework with
    | none => exact .fixed (plain_append hpack hframework) _
    | some framework => exact .slot hpack _ _

theorem plain_periodLine (m : DocMeta) : Plain (periodLine m) := by
  have hasof : Plain "Data as of " := plain_of_ofList rfl (by decide)
  have hperiod : Plain "Reporting period: " := plain_of_ofList rfl (by decide)
  have hdash : Plain " – " := plain_of_ofList rfl (by decide)
  have hdate : ∀ ns, Plain (fmtDate ns) := fun ns => (numberText_fmtDate ns).plain
  unfold periodLine
  cases m.period with
  | none => exact plain_append hasof (hdate _)
  | some p => exact plain_append (plain_append (plain_append hperiod (hdate _)) hdash) (hdate _)

theorem itemsOk_cover (m : DocMeta) : ItemsOk R b (coverItems m) := by
  have hsection : Markup R "<section class='cover'>" := markup_of_ofList rfl (by decide)
  have hwordmark : Markup R "<div class='wordmark'>" := markup_of_ofList rfl (by decide)
  have haccent : Markup R "</div><div class='accent-rule'></div>" := markup_of_ofList rfl (by decide)
  have hmid : Markup R "<div class='cover-mid'>" := markup_of_ofList rfl (by decide)
  have hclass : Markup R "<span class='doc-class'>" := markup_of_ofList rfl (by decide)
  have hspan : Markup R "</span>" := markup_of_ofList rfl (by decide)
  have htitle : Markup R "<h1 class='display'>" := markup_of_ofList rfl (by decide)
  have hh1 : Markup R "</h1>" := markup_of_ofList rfl (by decide)
  have hsub : Markup R "<div class='cover-sub'>" := markup_of_ofList rfl (by decide)
  have hperiod : Markup R "<div class='cover-period'>" := markup_of_ofList rfl (by decide)
  have htable : Markup R "<table class='docmeta'><tbody>" := markup_of_ofList rfl (by decide)
  have hclose : Markup R "</tbody></table></section>" := markup_of_ofList rfl (by decide)
  have hbrand : Plain "KRÖNIKA" := plain_of_ofList rfl (by decide)
  have hdash : Plain " – " := plain_of_ofList rfl (by decide)
  have hdate : ∀ ns, Plain (fmtDate ns) := fun ns => (numberText_fmtDate ns).plain
  have hslot : ∀ text, RunOk b (.slot "" text) "</td></tr>" := fun text => .slot plain_empty _ _
  have hoption : ∀ {α : Type} {o : Option α} {f : α → List Item}, (∀ a, ItemsOk R b (f a)) → ItemsOk R b (o.elim [] f) := by
    intro α o f hf
    cases o with
    | none => exact itemsOk_nil
    | some a => exact hf a
  refine itemsOk_append (itemsOk_append (itemsOk_append (itemsOk_append (itemsOk_append (itemsOk_append (itemsOk_append
    (itemsOk_append ?_ ?_) ?_) ?_) ?_) ?_) ?_) ?_) (itemsOk_blank hclose)
  · have hmeta := (markup_closeDiv.append markup_closeDiv).append htable
    exact itemsOk_cons (itemOk_blank (hsection.append hwordmark))
      (itemsOk_cons (itemOk_fixed hbrand ((haccent.append hmid).append hclass))
        (itemsOk_cons (itemOk_slot (hspan.append htitle)) (itemsOk_cons (itemOk_slot (hh1.append hsub))
          (itemsOk_cons ⟨runOk_subtitle _ _, markup_closeDiv.append hperiod⟩
            (itemsOk_cons (itemOk_fixed (plain_periodLine m) hmeta) itemsOk_nil)))))
  · exact itemsOk_control (plain_of_ofList rfl (by decide)) (hslot _)
  · exact itemsOk_control (plain_of_ofList rfl (by decide)) (hslot _)
  · exact itemsOk_control (plain_of_ofList rfl (by decide)) (.fixed (plain_fmtDatetime _) _)
  · exact itemsOk_control (plain_of_ofList rfl (by decide)) (.fixed (hdate _) _)
  · exact hoption fun p => itemsOk_control (plain_of_ofList rfl (by decide))
      (.fixed (plain_append (plain_append (hdate _) hdash) (hdate _)) _)
  · exact hoption fun f => itemsOk_control (plain_of_ofList rfl (by decide)) (hslot _)
  · exact hoption fun e => itemsOk_control (plain_of_ofList rfl (by decide)) (hslot _)

/-! ## The items of a document -/

theorem RunOk.names {r : Run} {markup : String} (h : RunOk b r markup) : RunOk true r markup := by
  cases h with
  | fixed h => exact .fixed h _
  | slot h => exact .slot h _ _
  | label h hstarts => exact .label h hstarts _ _
  | name text => exact .name text
  | caption h => exact .caption h _

theorem ItemsOk.names {items : List Item} (h : ItemsOk R b items) : ItemsOk R true items :=
  fun i hi => ⟨(h i hi).run.names, (h i hi).markup⟩

theorem itemsOk_doc {F : Type} {Φ : Floats F} (hΦ : NumberTexts Φ) (doc : ReportDoc F) : ItemsOk R true (docItems Φ doc) :=
  itemsOk_append (itemsOk_cover _) (itemsOk_flatMap fun block _ => (itemsOk_block hΦ block).names)

end Tumult.Compliance.Html
