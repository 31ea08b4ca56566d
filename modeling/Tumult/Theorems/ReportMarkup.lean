import Tumult.Lib.HtmlTokens
import Tumult.Compliance.Html

/-!
# The markup of a report

What a page says, apart from how it is written: the runs of text between tags, with what the document holds in them. The page is the
one that the items spell, and what is not a slot is a matter of the shape of the document.
-/

namespace Tumult.Compliance.Html

variable {F : Type} (Φ : Floats F)

/-! ## Items -/

/-- A run of text between tags: fixed, around a slot, a slot that is written as it is, or the caption of a chart. -/
inductive Run where
  | fixed (s : String)
  | slot (before text : String)
  | label (text after : String)
  | name (text : String)
  | caption (before : String)

/-- How a run is written. -/
def Run.src : Run → String
  | .fixed s => s
  | .slot before text => before ++ esc text
  | .label text after => Svg.esc text ++ after
  | .name text => text
  | .caption before => before ++ PLACEHOLDER

/-- A run of text and the markup after it. -/
abbrev Item : Type := Run × String

def blank (markup : String) : Item := (.fixed "", markup)

def srcOf (items : List Item) : String := String.join (items.map fun i => i.1.src ++ i.2)

/-! ## The items of a document -/

def subtitleRun (m : DocMeta) : Run :=
  match m.template with
  | .executiveDigest => .fixed "Executive Resilience Digest"
  | .gameDay =>
    m.experimentId.elim (.fixed ("Game-Day Experiment Report — " ++ "unknown run")) (.slot "Game-Day Experiment Report — ")
  | .evidencePack => m.framework.elim (.fixed ("Compliance Evidence Pack — " ++ "framework")) (.slot "Compliance Evidence Pack — ")

/-- A row of document control. -/
def controlItems (label : String) (run : Run) : List Item :=
  [blank "<tr><th>", (.fixed label, "</th><td>"), (run, "</td></tr>")]

def coverItems (m : DocMeta) : List Item :=
  [blank ("<section class='cover'>" ++ "<div class='wordmark'>"),
    (.fixed "KRÖNIKA", "</div><div class='accent-rule'></div>" ++ "<div class='cover-mid'>" ++ "<span class='doc-class'>"),
    (.slot "" m.classification, "</span>" ++ "<h1 class='display'>"),
    (.slot "" m.title, "</h1>" ++ "<div class='cover-sub'>"),
    (subtitleRun m, "</div>" ++ "<div class='cover-period'>"),
    (.fixed (periodLine m), "</div>" ++ "</div>" ++ "<table class='docmeta'><tbody>")] ++
  controlItems "Document" (.slot "" m.docId) ++ controlItems "Version" (.slot "" m.version) ++
  controlItems "Generated" (.fixed (fmtDatetime m.generatedAtNs)) ++ controlItems "Data as of" (.fixed (fmtDate m.dataAsOfNs)) ++
  (m.period.elim [] fun p => controlItems "Period" (.fixed (fmtDate p.1 ++ " – " ++ fmtDate p.2))) ++
  (m.framework.elim [] fun f => controlItems "Framework" (.slot "" f)) ++
  (m.experimentId.elim [] fun e => controlItems "Experiment" (.slot "" e)) ++ [blank "</tbody></table></section>"]

/-- A cell and the markup after it. -/
def cellItems (close : String) : Cell → List Item
  | .text t => [(.slot "" t, close)]
  | .status s =>
    [blank ("<span class='glyph' style='color:" ++ (Cell.glyph s).2 ++ "'>"), (.fixed (Cell.glyph s).1, "</span>"),
      (.slot " " s, close)]

def kpiItems (kpi : String × String × Option String) : List Item :=
  [blank "<div class='kpi'><div class='kpi-label'>", (.slot "" kpi.1, "</div>" ++ "<div class='kpi-value'>"),
    (.slot "" kpi.2.1, "</div>")] ++
  (kpi.2.2.elim [] fun s => [blank "<div class='kpi-sub'>", (.slot "" s, "</div>")]) ++ [blank "</div>"]

def headItems (numericCols : List Nat) (headers : List String) : List Item :=
  headers.zipIdx.flatMap fun h => [blank ("<th" ++ numClass numericCols h.2 ++ ">"), (.slot "" h.1, "</th>")]

def rowItems (numericCols : List Nat) (row : List Cell) : List Item :=
  blank "<tr>" :: (row.zipIdx.flatMap fun c => blank ("<td" ++ numClass numericCols c.2 ++ ">") :: cellItems "</td>" c.1) ++
    [blank "</tr>"]

def colItems (widths : Option (List F)) : List Item := if colgroup Φ widths = "" then [] else [blank (colgroup Φ widths)]

def sigItems (role name : String) : List Item :=
  [blank ("<div class='sig'><div class='sig-line'></div>" ++ "<div class='sig-role'>"),
    (.slot "" role, "</div><div class='sig-name'>"),
    (if name = "" then .fixed "Name / date" else .name name, "</div></div>")]

section

open Svg

def barItems (max : F) (row : String × F) (i : Nat) : List Item :=
  let y := Φ.add (Φ.mul (Φ.lit i) (rowH Φ)) (Φ.lit 4)
  let w := Φ.max (Φ.mul (Φ.div row.2 max) (barMaxW Φ)) (Φ.lit 1)
  let ty := Φ.fixed 1 (Φ.add y (Φ.lit 11))
  let tx := Φ.fixed 1 (Φ.add (Φ.add (labelW Φ) w) (Φ.lit 6))
  [blank (textTag "0" ty "9.5" "#333"),
    (.label (truncate row.1 30) "", "</text>" ++ rectTag (Φ.display (labelW Φ)) (Φ.fixed 1 y) (Φ.fixed 1 w) "14" (color i) ++
      textTag tx ty "9.5" "#333"),
    (.fixed (fmtNum Φ row.2), "</text>")]

def barsItems (rows : List (String × F)) : List Item :=
  let max := Φ.max ((rows.map Prod.snd).foldl Φ.max (Φ.lit 0)) (Φ.lit (1 / 10 ^ 9))
  let h := Φ.fixed 0 (Φ.add (Φ.mul (Φ.lit rows.length) (rowH Φ)) (Φ.lit 8))
  blank (svgTag "480" h) :: (rows.zipIdx.flatMap fun row => barItems Φ max row.1 row.2) ++ [blank "</svg>"]

def arcItems (total angle v : F) (i : Nat) : List Item := if arc Φ total angle v i = "" then [] else [blank (arc Φ total angle v i)]

def legendItems (total v : F) (label : String) (i : Nat) : List Item :=
  let frac := Φ.div v total
  let ly := Φ.add (Φ.lit 20) (Φ.mul (Φ.lit i) (Φ.lit 18))
  [blank (rectTag "150" (Φ.fixed 1 (Φ.sub ly (Φ.lit 9))) "10" "10" (color i) ++ textTag "166" (Φ.fixed 1 ly) "10" "#333"),
    (.label label (" — " ++ fmtNum Φ (Φ.mul frac (Φ.lit 100)) ++ "%"), "</text>")]

def donutItemsFrom (total : F) : Nat → F → List (String × F) → List Item
  | _, _, [] => []
  | i, angle, (label, v) :: slices =>
    arcItems Φ total angle v i ++ legendItems Φ total v label i ++
      donutItemsFrom total (i + 1) (Φ.add angle (Φ.mul (Φ.div v total) (Φ.mul (Φ.lit 2) Φ.pi))) slices

def donutItems (slices : List (String × F)) : List Item :=
  let total := Φ.sum (slices.map Prod.snd)
  if Φ.le total (Φ.lit 0) then []
  else blank (svgTag "400" "140") :: donutItemsFrom Φ total 0 (Φ.neg (Φ.div Φ.pi (Φ.lit 2))) slices ++ [blank "</svg>"]

def axesItems (s : Scale F) : List Item :=
  let zy := sy Φ s s.y0
  let ex := Φ.sub (chartW Φ) (mr Φ)
  [blank (lineTag (Φ.display (ml Φ)) (Φ.display zy) (Φ.display ex) (Φ.display zy) ++
      lineTag (Φ.display (ml Φ)) (Φ.display (mt Φ)) (Φ.display (ml Φ)) (Φ.display zy) ++
      textTag "2" (Φ.fixed 1 (Φ.add (sy Φ s s.y1) (Φ.lit 7))) "8" "#666"),
    (.fixed (fmtNum Φ s.y1), "</text>" ++ textTag "2" (Φ.fixed 1 zy) "8" "#666"), (.fixed (fmtNum Φ s.y0), "</text>")]

def lineItems (s : Scale F) (name : String) (points : List (F × F)) (i : Nat) : List Item :=
  match points.getLast? with
  | none => []
  | some last =>
    let path := points.map fun p => Φ.fixed 1 (sx Φ s p.1) ++ "," ++ Φ.fixed 1 (sy Φ s p.2)
    blank (polylineTag (" ".intercalate path) (color i)) :: (points.map fun p => blank (marker Φ s i p)) ++
      [blank (textTag (Φ.fixed 1 (Φ.add (sx Φ s last.1) (Φ.lit 5))) (Φ.fixed 1 (Φ.add (sy Φ s last.2) (Φ.lit 3))) "9" (color i)),
        (.label name "", "</text>")]

def linesItems (series : List (String × List (F × F))) : List Item :=
  let xs := series.flatMap fun s => s.2.map Prod.fst
  let ys := series.flatMap fun s => s.2.map Prod.snd
  if xs.isEmpty || ys.isEmpty then []
  else
    let s := scaleOf Φ xs ys
    blank (svgTag (Φ.fixed 0 (chartW Φ)) (Φ.fixed 0 (chartH Φ))) :: axesItems Φ s ++
      (series.zipIdx.flatMap fun x => lineItems Φ s x.1.1 x.1.2 x.2) ++ [blank "</svg>"]

def chartItems : ChartSpec F → List Item
  | .bars rows => barsItems Φ rows
  | .donut slices => donutItems Φ slices
  | .lines series => linesItems Φ series

end

def blockItems : Block F → List Item
  | .h1 text => [blank "<h1 class='section'>", (.slot "" text, "</h1>")]
  | .h2 text => [blank "<h2>", (.slot "" text, "</h2>")]
  | .h3 text => [blank "<h3>", (.slot "" text, "</h3>")]
  | .paragraph text => [blank "<p>", (.slot "" text, "</p>")]
  | .kpis kpis => blank "<div class='kpis'>" :: kpis.flatMap kpiItems ++ [blank "</div>"]
  | .keyValues kvs =>
    blank "<table class='docmeta'><tbody>" ::
      (kvs.flatMap fun kv => [blank "<tr><th>", (.slot "" kv.1, "</th><td>")] ++ cellItems "</td></tr>" kv.2) ++
      [blank "</tbody></table>"]
  | .table headers rows numericCols widths =>
    blank "<table class='data'>" :: colItems Φ widths ++ blank "<thead><tr>" :: headItems numericCols headers ++
      blank "</tr></thead><tbody>" :: rows.flatMap (rowItems numericCols) ++ [blank "</tbody></table>"]
  | .bullets items => blank "<ul>" :: (items.flatMap fun i => [blank "<li>", (.slot "" i, "</li>")]) ++ [blank "</ul>"]
  | .chart spec =>
    blank "<figure>" :: chartItems Φ spec ++
      [blank "<figcaption>", (.caption "Source: Tumult · data as of ", "</figcaption></figure>")]
  | .pageBreak => [blank "<div class='pagebreak'></div>"]
  | .footnote text => [blank "<p class='footnote'>", (.slot "" text, "</p>")]
  | .signoff roles => blank "<div class='signoff'>" :: (roles.flatMap fun r => sigItems r.1 r.2) ++ [blank "</div>"]

/-- The body of a page. -/
def docItems (doc : ReportDoc F) : List Item := coverItems doc.docMeta ++ doc.blocks.flatMap (blockItems Φ)

/-! ## The page is what the items spell -/

theorem srcOf_nil : srcOf [] = "" := rfl

theorem srcOf_cons (i : Item) (items : List Item) : srcOf (i :: items) = i.1.src ++ (i.2 ++ srcOf items) := by
  unfold srcOf
  rw [List.map_cons, String.join_cons, String.append_assoc]

theorem srcOf_append (items items' : List Item) : srcOf (items ++ items') = srcOf items ++ srcOf items' := by
  unfold srcOf
  rw [List.map_append, String.join_append]

theorem srcOf_flatMap {α : Type} (f : α → List Item) (l : List α) :
    srcOf (l.flatMap f) = String.join (l.map fun a => srcOf (f a)) := by
  induction l with
  | nil => rfl
  | cons a l ih => rw [List.flatMap_cons, srcOf_append, ih, List.map_cons, String.join_cons]

theorem srcOf_blank (markup : String) : srcOf [blank markup] = markup := by
  simp [srcOf, blank, Run.src]

/-- Markup that may be empty. -/
theorem srcOf_ite_blank (markup : String) : srcOf (if markup = "" then [] else [blank markup]) = markup := by
  split
  · rename_i hempty
    rw [hempty, srcOf_nil]
  · exact srcOf_blank markup

section

open Svg

theorem bar_eq (max : F) (row : String × F) (i : Nat) : bar Φ max row i = srcOf (barItems Φ max row i) := by
  simp only [bar, barItems, srcOf_cons, srcOf_nil, blank, Run.src, String.append_assoc, String.empty_append, String.append_empty]

theorem bars_eq (rows : List (String × F)) : bars Φ rows = srcOf (barsItems Φ rows) := by
  simp only [bars, barsItems, srcOf_cons, srcOf_append, srcOf_nil, srcOf_flatMap, bar_eq, blank, Run.src, String.append_assoc,
    String.empty_append, String.append_empty]

theorem legend_eq (total v : F) (label : String) (i : Nat) : legend Φ total v label i = srcOf (legendItems Φ total v label i) := by
  have hclose : "%</text>" = "%" ++ "</text>" := by decide
  simp only [legend, legendItems, srcOf_cons, srcOf_nil, blank, Run.src, String.append_assoc, String.empty_append,
    String.append_empty, hclose]

theorem donutFrom_eq (total : F) (i : Nat) (angle : F) (slices : List (String × F)) :
    donutFrom Φ total i angle slices = srcOf (donutItemsFrom Φ total i angle slices) := by
  induction slices generalizing i angle with
  | nil => rfl
  | cons slice slices ih => simp only [donutFrom, donutItemsFrom, srcOf_append, arcItems, srcOf_ite_blank, legend_eq, ih]

theorem donut_eq (slices : List (String × F)) : donut Φ slices = srcOf (donutItems Φ slices) := by
  unfold donut donutItems
  dsimp only
  split
  · rfl
  · simp only [srcOf_cons, srcOf_append, srcOf_nil, donutFrom_eq, blank, Run.src, String.append_assoc, String.empty_append,
      String.append_empty]

theorem axes_eq (s : Scale F) : axes Φ s = srcOf (axesItems Φ s) := by
  simp only [axes, axesItems, srcOf_cons, srcOf_nil, blank, Run.src, String.append_assoc, String.empty_append, String.append_empty]

theorem line_eq (s : Scale F) (name : String) (points : List (F × F)) (i : Nat) :
    line Φ s name points i = srcOf (lineItems Φ s name points i) := by
  unfold line lineItems
  cases points.getLast? with
  | none => rfl
  | some last =>
    have hmarkers : srcOf (points.map fun p => blank (marker Φ s i p)) = String.join (points.map (marker Φ s i)) := by
      simp only [srcOf, blank, Run.src, List.map_map, Function.comp_def, String.empty_append]
    simp only [List.cons_append, srcOf_cons, srcOf_append, hmarkers]
    simp only [srcOf_nil, blank, Run.src, String.append_assoc, String.empty_append, String.append_empty]

theorem lines_eq (series : List (String × List (F × F))) : lines Φ series = srcOf (linesItems Φ series) := by
  unfold lines linesItems
  dsimp only
  split
  · rfl
  · simp only [List.cons_append, srcOf_cons, srcOf_append, srcOf_nil, srcOf_flatMap, axes_eq, line_eq, blank, Run.src,
      String.append_assoc, String.empty_append, String.append_empty]

theorem renderSvg_eq (spec : ChartSpec F) : renderSvg Φ spec = srcOf (chartItems Φ spec) := by
  cases spec with
  | bars rows => exact bars_eq Φ rows
  | donut slices => exact donut_eq Φ slices
  | lines series => exact lines_eq Φ series

end

theorem cellHtml_append (cell : Cell) (close rest : String) :
    cellHtml cell ++ (close ++ rest) = srcOf (cellItems close cell) ++ rest := by
  have hclose : "</span> " = "</span>" ++ " " := by decide
  unfold cellHtml
  cases cell with
  | text t =>
    simp only [cellItems, srcOf_cons, srcOf_nil, Run.src, String.append_assoc, String.empty_append, String.append_empty]
  | status s =>
    simp only [cellItems, srcOf_cons, srcOf_nil, blank, Run.src, String.append_assoc, String.empty_append,
      String.append_empty, hclose]

theorem cellHtml_close (cell : Cell) (close : String) : cellHtml cell ++ close = srcOf (cellItems close cell) := by
  have h := cellHtml_append cell close ""
  rwa [String.append_empty, String.append_empty] at h

theorem kpiHtml_eq (kpi : String × String × Option String) : kpiHtml kpi = srcOf (kpiItems kpi) := by
  obtain ⟨label, value, sub⟩ := kpi
  unfold kpiHtml
  cases sub <;> simp only [kpiItems, Option.elim_none, Option.elim_some, srcOf_cons, srcOf_append, srcOf_nil, blank, Run.src,
    String.append_assoc, String.empty_append, String.append_empty]

theorem srcOf_colItems (widths : Option (List F)) : srcOf (colItems Φ widths) = colgroup Φ widths := srcOf_ite_blank _

theorem headHtml_eq (numericCols : List Nat) (headers : List String) :
    headHtml numericCols headers = srcOf (headItems numericCols headers) := by
  simp only [headHtml, headItems, srcOf_flatMap, srcOf_cons, srcOf_nil, blank, Run.src, String.append_assoc, String.empty_append,
    String.append_empty]

theorem rowHtml_eq (numericCols : List Nat) (row : List Cell) : rowHtml numericCols row = srcOf (rowItems numericCols row) := by
  simp only [rowHtml, rowItems, List.cons_append, srcOf_flatMap, srcOf_cons, srcOf_append, srcOf_nil, blank, Run.src,
    cellHtml_close, String.append_assoc, String.empty_append, String.append_empty]

theorem sigHtml_eq (role name : String) : sigHtml role name = srcOf (sigItems role name) := by
  unfold sigHtml sigItems
  split <;> simp only [srcOf_cons, srcOf_nil, blank, Run.src, String.append_assoc, String.empty_append, String.append_empty]

theorem renderBlock_eq (block : Block F) : renderBlock Φ block = srcOf (blockItems Φ block) := by
  have hcaption : "<figcaption>Source: Tumult · data as of " = "<figcaption>" ++ "Source: Tumult · data as of " := by decide
  have hkpi : kpiHtml = fun kpi => srcOf (kpiItems kpi) := funext kpiHtml_eq
  have hrow : ∀ numericCols, rowHtml numericCols = fun row => srcOf (rowItems numericCols row) := fun numericCols =>
    funext (rowHtml_eq numericCols)
  unfold renderBlock
  cases block with
  | kpis kpis =>
    simp only [blockItems, List.cons_append, srcOf_flatMap, srcOf_cons, srcOf_append, srcOf_nil, blank, Run.src, hkpi,
      String.append_assoc, String.empty_append, String.append_empty]
  | keyValues kvs =>
    simp only [blockItems, List.cons_append, srcOf_flatMap, srcOf_cons, srcOf_append, srcOf_nil, blank, Run.src,
      cellHtml_close, String.append_assoc, String.empty_append, String.append_empty]
  | table headers rows numericCols widths =>
    simp only [blockItems, List.cons_append, srcOf_flatMap, srcOf_cons, srcOf_append, srcOf_nil, srcOf_colItems,
      headHtml_eq, hrow, blank, Run.src, String.append_assoc, String.empty_append, String.append_empty]
  | bullets items =>
    simp only [blockItems, List.cons_append, srcOf_flatMap, srcOf_cons, srcOf_append, srcOf_nil, blank, Run.src,
      String.append_assoc, String.empty_append, String.append_empty]
  | chart spec =>
    simp only [blockItems, List.cons_append, srcOf_cons, srcOf_append, srcOf_nil, renderSvg_eq, blank, Run.src, hcaption,
      String.append_assoc, String.empty_append, String.append_empty]
  | signoff roles =>
    simp only [blockItems, List.cons_append, srcOf_flatMap, srcOf_cons, srcOf_append, srcOf_nil, sigHtml_eq, blank, Run.src,
      String.append_assoc, String.empty_append, String.append_empty]
  | _ =>
    simp only [blockItems, srcOf_cons, srcOf_nil, blank, Run.src, String.append_assoc, String.empty_append,
      String.append_empty]

/-! ## Escapes -/

def escChar (c : Char) : List Char :=
  if c = '&' then "&amp;".toList else if c = '<' then "&lt;".toList else if c = '>' then "&gt;".toList
  else if c = '"' then "&quot;".toList else if c = '\'' then "&#39;".toList else [c]

theorem toList_replaceChar (c : Char) (replacement : List Char) (s : String) :
    (SqlUtil.replaceChar c replacement s).toList = s.toList.flatMap fun d => if d = c then replacement else [d] := by
  rw [SqlUtil.replaceChar, String.toList_ofList]

theorem toList_esc (s : String) : (esc s).toList = s.toList.flatMap escChar := by
  simp only [esc, toList_replaceChar, List.flatMap_assoc]
  refine congrArg (s.toList.flatMap ·) (funext fun c => ?_)
  unfold escChar
  split_ifs with hamp hlt hgt hquot hapos
  · subst hamp; decide
  · subst hlt; decide
  · subst hgt; decide
  · subst hquot; decide
  · subst hapos; decide
  · simp [hlt, hgt, hquot, hapos]

theorem esc_append (s t : String) : esc (s ++ t) = esc s ++ esc t := by
  apply String.toList_injective
  simp only [toList_esc, String.toList_append, List.flatMap_append]

/-- Text without special characters, without what begins the placeholder and without carriage returns. -/
def Plain (s : String) : Prop := ∀ c ∈ s.toList, escChar c = [c] ∧ c ≠ '\x7b' ∧ c ≠ '\r'

def isPlainChar (c : Char) : Bool := decide (escChar c = [c]) && c != '\x7b' && c != '\r'

/-- A literal is plain when the list of its characters is. -/
theorem plain_of_ofList {s : String} {cs : List Char} (h : s = String.ofList cs) (hcs : cs.all isPlainChar = true) : Plain s := by
  intro c hc
  rw [h, String.toList_ofList] at hc
  have hplain := List.all_eq_true.1 hcs c hc
  simpa [isPlainChar, and_assoc] using hplain

theorem plain_append {s t : String} (hs : Plain s) (ht : Plain t) : Plain (s ++ t) := by
  intro c hc
  rw [String.toList_append, List.mem_append] at hc
  exact hc.elim (hs c) (ht c)

/-- Text without special characters is not changed. -/
theorem esc_of_plain {s : String} (h : Plain s) : esc s = s := by
  apply String.toList_injective
  rw [toList_esc]
  unfold Plain at h
  generalize s.toList = cs at h
  induction cs with
  | nil => rfl
  | cons c cs ih =>
    obtain ⟨hc, hcs⟩ := List.forall_mem_cons.1 h
    rw [List.flatMap_cons, hc.1, ih hcs, List.singleton_append]

theorem subtitle_eq (m : DocMeta) : esc (subtitle m) = (subtitleRun m).src := by
  have hdigest : Plain "Executive Resilience Digest" := plain_of_ofList rfl (by decide)
  have hgame : Plain "Game-Day Experiment Report — " := plain_of_ofList rfl (by decide)
  have hunknown : Plain "unknown run" := plain_of_ofList rfl (by decide)
  have hpack : Plain "Compliance Evidence Pack — " := plain_of_ofList rfl (by decide)
  have hframework : Plain "framework" := plain_of_ofList rfl (by decide)
  unfold subtitle subtitleRun
  cases m.template with
  | executiveDigest => exact esc_of_plain hdigest
  | gameDay =>
    cases m.experimentId with
    | none => exact esc_of_plain (plain_append hgame hunknown)
    | some id => exact (esc_append _ _).trans (congrArg (· ++ esc id) (esc_of_plain hgame))
  | evidencePack =>
    cases m.framework with
    | none => exact esc_of_plain (plain_append hpack hframework)
    | some framework => exact (esc_append _ _).trans (congrArg (· ++ esc framework) (esc_of_plain hpack))

theorem cover_eq (m : DocMeta) : cover m = srcOf (coverItems m) := by
  have hmark : "<div class='wordmark'>KRÖNIKA</div><div class='accent-rule'></div>" =
      "<div class='wordmark'>" ++ ("KRÖNIKA" ++ "</div><div class='accent-rule'></div>") := by decide
  have hdocument : "<tr><th>Document</th><td>" = "<tr><th>" ++ ("Document" ++ "</th><td>") := by decide
  have hversion : "<tr><th>Version</th><td>" = "<tr><th>" ++ ("Version" ++ "</th><td>") := by decide
  have hgenerated : "<tr><th>Generated</th><td>" = "<tr><th>" ++ ("Generated" ++ "</th><td>") := by decide
  have hasof : "<tr><th>Data as of</th><td>" = "<tr><th>" ++ ("Data as of" ++ "</th><td>") := by decide
  have hperiod : "<tr><th>Period</th><td>" = "<tr><th>" ++ ("Period" ++ "</th><td>") := by decide
  have hframework : "<tr><th>Framework</th><td>" = "<tr><th>" ++ ("Framework" ++ "</th><td>") := by decide
  have hexperiment : "<tr><th>Experiment</th><td>" = "<tr><th>" ++ ("Experiment" ++ "</th><td>") := by decide
  unfold cover coverItems controlItems
  rw [subtitle_eq]
  cases m.period <;> cases m.framework <;> cases m.experimentId <;>
    simp only [Option.elim_none, Option.elim_some, List.cons_append, List.nil_append, srcOf_cons, srcOf_nil, blank, Run.src, hmark,
      hdocument, hversion, hgenerated, hasof, hperiod, hframework, hexperiment, String.append_assoc, String.empty_append,
      String.append_empty]

theorem body_eq (doc : ReportDoc F) :
    cover doc.docMeta ++ String.join (doc.blocks.map (renderBlock Φ)) = srcOf (docItems Φ doc) := by
  have hblocks : doc.blocks.map (renderBlock Φ) = doc.blocks.map fun block => srcOf (blockItems Φ block) :=
    List.map_congr_left fun block _ => renderBlock_eq Φ block
  rw [hblocks, docItems, srcOf_append, srcOf_flatMap, cover_eq]

/-! ## Shapes -/

/-- A part of a page: markup, fixed text, or a hole for a text of the document. -/
inductive Part where
  | markup (src : String)
  | text (s : String)
  | hole

def Run.parts (date : String) : Run → List Part
  | .fixed s => [.text s]
  | .slot before _ => [.text before, .hole]
  | .label _ after => [.hole, .text after]
  | .name _ => [.hole]
  | .caption before => [.text before, .text date]

def Run.slots : Run → List String
  | .slot _ text | .label text _ | .name text => [text]
  | .fixed _ | .caption _ => []

def skeletonOf (date : String) (items : List Item) : List Part := items.flatMap fun i => i.1.parts date ++ [.markup i.2]

def slotsOf (items : List Item) : List String := items.flatMap fun i => i.1.slots

/-- One status for all that are shown alike. -/
def statusKind (s : String) : String :=
  if (Cell.glyph s).1 = "●" then "ok" else if (Cell.glyph s).1 = "▲" then "fair" else if (Cell.glyph s).1 = "×" then "poor" else ""

def cellShape : Cell → Cell
  | .text _ => .text ""
  | .status s => .status (statusKind s)

def chartShape : ChartSpec F → ChartSpec F
  | .bars rows => .bars (rows.map fun row => ("", row.2))
  | .donut slices => .donut (slices.map fun slice => ("", slice.2))
  | .lines series => .lines (series.map fun s => ("", s.2))

/-- A block without its texts. -/
def blockShape : Block F → Block F
  | .h1 _ => .h1 ""
  | .h2 _ => .h2 ""
  | .h3 _ => .h3 ""
  | .paragraph _ => .paragraph ""
  | .kpis kpis => .kpis (kpis.map fun kpi => ("", "", kpi.2.2.map fun _ => ""))
  | .keyValues kvs => .keyValues (kvs.map fun kv => ("", cellShape kv.2))
  | .table headers rows numericCols widths =>
    .table (headers.map fun _ => "") (rows.map fun row => row.map cellShape) numericCols widths
  | .bullets items => .bullets (items.map fun _ => "")
  | .chart spec => .chart (chartShape spec)
  | .pageBreak => .pageBreak
  | .footnote _ => .footnote ""
  | .signoff roles => .signoff (roles.map fun r => ("", if r.2 = "" then "" else "-"))

def metaShape (m : DocMeta) : DocMeta :=
  { m with
    docId := ""
    title := ""
    version := ""
    classification := ""
    framework := m.framework.map fun _ => ""
    experimentId := m.experimentId.map fun _ => "" }

/-- The shape of a document: all but its texts. -/
def docShape (doc : ReportDoc F) : ReportDoc F := ⟨metaShape doc.docMeta, doc.blocks.map blockShape⟩

def pageHead : String := "<!DOCTYPE html><html lang='en'><head><meta charset='utf-8'>" ++ "<title>"

def pageStyle : String := "</title><style>"

def pageBody : String := "</style></head>" ++ "<body><main class='page'>"

def pageTail : String := "</main></body></html>"

/-- The parts of a page. -/
def skeleton (doc : ReportDoc F) : List Part :=
  [.markup pageHead, .hole, .markup pageStyle, .text CSS, .markup pageBody] ++
    skeletonOf (fmtDate doc.docMeta.dataAsOfNs) (docItems Φ doc) ++ [.markup pageTail]

/-- The texts of a document in the order of the page; labels of bars are shortened. -/
def slots (doc : ReportDoc F) : List String := doc.docMeta.title :: slotsOf (docItems Φ doc)

/-! ## The skeleton is a matter of shape -/

theorem skeletonOf_append (date : String) (items items' : List Item) :
    skeletonOf date (items ++ items') = skeletonOf date items ++ skeletonOf date items' := List.flatMap_append

theorem skeletonOf_cons (date : String) (i : Item) (items : List Item) :
    skeletonOf date (i :: items) = i.1.parts date ++ [.markup i.2] ++ skeletonOf date items := List.flatMap_cons

theorem skeletonOf_flatMap {α : Type} (date : String) (f : α → List Item) (l : List α) :
    skeletonOf date (l.flatMap f) = l.flatMap fun a => skeletonOf date (f a) := List.flatMap_assoc

variable {Φ} {date : String}

theorem glyph_statusKind (s : String) : Cell.glyph (statusKind s) = Cell.glyph s := by
  have hcases : Cell.glyph s = ("●", "#009E73") ∨ Cell.glyph s = ("▲", "#E69F00") ∨ Cell.glyph s = ("×", "#D55E00") ∨
      Cell.glyph s = ("○", "#6B7280") := by
    unfold Cell.glyph
    dsimp only
    split_ifs <;> simp
  unfold statusKind
  rcases hcases with h | h | h | h <;> rw [h] <;> decide

theorem skeletonOf_cell (close : String) (cell : Cell) :
    skeletonOf date (cellItems close (cellShape cell)) = skeletonOf date (cellItems close cell) := by
  cases cell with
  | text t => rfl
  | status s =>
    have hglyph := glyph_statusKind s
    simp only [cellShape, cellItems, skeletonOf_cons, hglyph]
    rfl

theorem skeletonOf_kpi (kpi : String × String × Option String) :
    skeletonOf date (kpiItems ("", "", kpi.2.2.map fun _ => "")) = skeletonOf date (kpiItems kpi) := by
  obtain ⟨label, value, sub⟩ := kpi
  cases sub <;> rfl

theorem skeletonOf_head (numericCols : List Nat) (headers : List String) :
    skeletonOf date (headItems numericCols (headers.map fun _ => "")) = skeletonOf date (headItems numericCols headers) := by
  unfold headItems
  rw [skeletonOf_flatMap, skeletonOf_flatMap, List.zipIdx_map, List.flatMap_map]
  rfl

theorem skeletonOf_row (numericCols : List Nat) (row : List Cell) :
    skeletonOf date (rowItems numericCols (row.map cellShape)) = skeletonOf date (rowItems numericCols row) := by
  unfold rowItems
  simp only [List.cons_append, skeletonOf_cons, skeletonOf_append, skeletonOf_flatMap, List.zipIdx_map, List.flatMap_map,
    Prod.map_fst, Prod.map_snd, id_eq, skeletonOf_cell]

theorem skeletonOf_sig (role name : String) :
    skeletonOf date (sigItems "" (if name = "" then "" else "-")) = skeletonOf date (sigItems role name) := by
  by_cases h : name = "" <;> simp only [h, sigItems, if_true, if_false] <;> rfl

theorem skeletonOf_donutFrom (total : F) (i : Nat) (angle : F) (slices : List (String × F)) :
    skeletonOf date (donutItemsFrom Φ total i angle (slices.map fun slice => ("", slice.2))) =
      skeletonOf date (donutItemsFrom Φ total i angle slices) := by
  induction slices generalizing i angle with
  | nil => rfl
  | cons slice slices ih =>
    simp only [List.map_cons, donutItemsFrom, skeletonOf_append, ih]
    rfl

theorem skeletonOf_line (s : Svg.Scale F) (name : String) (points : List (F × F)) (i : Nat) :
    skeletonOf date (lineItems Φ s "" points i) = skeletonOf date (lineItems Φ s name points i) := by
  unfold lineItems
  cases points.getLast? with
  | none => rfl
  | some last =>
    simp only [List.cons_append, skeletonOf_cons, skeletonOf_append]
    rfl

theorem skeletonOf_chart (spec : ChartSpec F) :
    skeletonOf date (chartItems Φ (chartShape spec)) = skeletonOf date (chartItems Φ spec) := by
  cases spec with
  | bars rows =>
    simp only [chartShape, chartItems, barsItems, List.cons_append, skeletonOf_cons, skeletonOf_append, skeletonOf_flatMap,
      List.zipIdx_map, List.flatMap_map, List.map_map, List.length_map, Function.comp_def]
    rfl
  | donut slices =>
    simp only [chartShape, chartItems, donutItems, List.map_map, Function.comp_def]
    split
    · rfl
    · simp only [List.cons_append, skeletonOf_cons, skeletonOf_append, skeletonOf_donutFrom]
  | lines series =>
    simp only [chartShape, chartItems, linesItems, List.flatMap_map]
    split
    · rfl
    · have hline : ∀ (s : Svg.Scale F) (x : (String × List (F × F)) × Nat),
          skeletonOf date (lineItems Φ s "" x.1.2 x.2) = skeletonOf date (lineItems Φ s x.1.1 x.1.2 x.2) := fun s x =>
        skeletonOf_line s x.1.1 x.1.2 x.2
      simp only [List.cons_append, skeletonOf_cons, skeletonOf_append, skeletonOf_flatMap, List.zipIdx_map, List.flatMap_map,
        Prod.map_fst, Prod.map_snd, id_eq, hline]

theorem skeletonOf_block (block : Block F) :
    skeletonOf date (blockItems Φ (blockShape block)) = skeletonOf date (blockItems Φ block) := by
  cases block with
  | kpis kpis =>
    simp only [blockShape, blockItems, List.cons_append, skeletonOf_cons, skeletonOf_append, skeletonOf_flatMap, List.flatMap_map,
      skeletonOf_kpi]
  | keyValues kvs =>
    simp only [blockShape, blockItems, List.cons_append, List.nil_append, skeletonOf_cons, skeletonOf_append, skeletonOf_flatMap,
      List.flatMap_map, skeletonOf_cell]
    rfl
  | table headers rows numericCols widths =>
    simp only [blockShape, blockItems, List.cons_append, skeletonOf_cons, skeletonOf_append, skeletonOf_flatMap, List.flatMap_map,
      skeletonOf_head, skeletonOf_row]
  | bullets items =>
    simp only [blockShape, blockItems, List.cons_append, skeletonOf_cons, skeletonOf_append, skeletonOf_flatMap, List.flatMap_map]
    rfl
  | chart spec => simp only [blockShape, blockItems, List.cons_append, skeletonOf_cons, skeletonOf_append, skeletonOf_chart]
  | signoff roles =>
    have hsig : ∀ r : String × String, skeletonOf date (sigItems "" (if r.2 = "" then "" else "-")) =
        skeletonOf date (sigItems r.1 r.2) := fun r => skeletonOf_sig r.1 r.2
    simp only [blockShape, blockItems, List.cons_append, skeletonOf_cons, skeletonOf_append, skeletonOf_flatMap, List.flatMap_map,
      hsig]
  | _ => rfl

theorem skeletonOf_cover (m : DocMeta) : skeletonOf date (coverItems (metaShape m)) = skeletonOf date (coverItems m) := by
  obtain ⟨docId, title, template, version, classification, generatedAtNs, dataAsOfNs, period, framework, experimentId⟩ := m
  cases template <;> cases period <;> cases framework <;> cases experimentId <;> rfl

/-- The skeleton of a page is determined by the shape of the document. -/
theorem skeleton_docShape (doc : ReportDoc F) : skeleton Φ (docShape doc) = skeleton Φ doc := by
  have hitems : ∀ date : String, skeletonOf date (docItems Φ (docShape doc)) = skeletonOf date (docItems Φ doc) := by
    intro date
    simp only [docItems, docShape, skeletonOf_append, skeletonOf_flatMap, List.flatMap_map, skeletonOf_cover, skeletonOf_block]
  unfold skeleton
  rw [hitems]
  rfl

end Tumult.Compliance.Html
