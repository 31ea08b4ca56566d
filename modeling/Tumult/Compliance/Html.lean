import Tumult.Lib.Replace
import Tumult.Compliance.Dates
import Tumult.Compliance.Svg

/-!
# Reports as pages

The print-styled page of a report, and the substitution of its placeholder.
-/

namespace Tumult.Compliance.Html

open SqlUtil (replaceChar)

variable {F : Type} (Φ : Floats F)

def esc (s : String) : String :=
  replaceChar '\'' "&#39;".toList (replaceChar '"' "&quot;".toList (replaceChar '>' "&gt;".toList (replaceChar '<' "&lt;".toList
    (replaceChar '&' "&amp;".toList s))))

/-- `fmt_date`; the arithmetic of dates does not overflow. -/
def fmtDate (ns : Int64) : String := (Compliance.fmtDate ns).getD ""

def fmtDatetime (ns : Int64) : String := (Compliance.fmtDatetime ns).getD ""

def subtitle (m : DocMeta) : String :=
  match m.template with
  | .executiveDigest => "Executive Resilience Digest"
  | .gameDay => "Game-Day Experiment Report — " ++ m.experimentId.getD "unknown run"
  | .evidencePack => "Compliance Evidence Pack — " ++ m.framework.getD "framework"

def periodLine (m : DocMeta) : String :=
  match m.period with
  | none => "Data as of " ++ fmtDate m.dataAsOfNs
  | some (f, t) => "Reporting period: " ++ fmtDate f ++ " – " ++ fmtDate t

/-- The cover block. -/
def cover (m : DocMeta) : String :=
  "<section class='cover'>" ++ "<div class='wordmark'>KRÖNIKA</div><div class='accent-rule'></div>" ++ "<div class='cover-mid'>" ++
    "<span class='doc-class'>" ++ esc m.classification ++ "</span>" ++ "<h1 class='display'>" ++ esc m.title ++ "</h1>" ++
    "<div class='cover-sub'>" ++ esc (subtitle m) ++ "</div>" ++ "<div class='cover-period'>" ++ periodLine m ++ "</div>" ++
    "</div>" ++ "<table class='docmeta'><tbody>" ++ "<tr><th>Document</th><td>" ++ esc m.docId ++ "</td></tr>" ++
    "<tr><th>Version</th><td>" ++ esc m.version ++ "</td></tr>" ++ "<tr><th>Generated</th><td>" ++ fmtDatetime m.generatedAtNs ++
    "</td></tr>" ++ "<tr><th>Data as of</th><td>" ++ fmtDate m.dataAsOfNs ++ "</td></tr>" ++
    (m.period.elim "" fun p => "<tr><th>Period</th><td>" ++ fmtDate p.1 ++ " – " ++ fmtDate p.2 ++ "</td></tr>") ++
    (m.framework.elim "" fun f => "<tr><th>Framework</th><td>" ++ esc f ++ "</td></tr>") ++
    (m.experimentId.elim "" fun e => "<tr><th>Experiment</th><td>" ++ esc e ++ "</td></tr>") ++ "</tbody></table></section>"

def cellHtml : Cell → String
  | .text t => esc t
  | .status s => "<span class='glyph' style='color:" ++ (Cell.glyph s).2 ++ "'>" ++ (Cell.glyph s).1 ++ "</span> " ++ esc s

def kpiHtml (kpi : String × String × Option String) : String :=
  "<div class='kpi'><div class='kpi-label'>" ++ esc kpi.1 ++ "</div>" ++ "<div class='kpi-value'>" ++ esc kpi.2.1 ++ "</div>" ++
    (kpi.2.2.elim "" fun s => "<div class='kpi-sub'>" ++ esc s ++ "</div>") ++ "</div>"

/-- The widths of the columns in percent; none unless their sum is positive. -/
def colgroup (widths : Option (List F)) : String :=
  match widths with
  | none => ""
  | some ws =>
    let total := Φ.sum ws
    let cols := ws.map fun w => "<col style='width:" ++ Φ.fixed 1 (Φ.mul (Φ.div w total) (Φ.lit 100)) ++ "%'>"
    if Φ.le total (Φ.lit 0) then "" else "<colgroup>" ++ String.join cols ++ "</colgroup>"

/-- The class of a numeric column. -/
def numClass (numericCols : List Nat) (i : Nat) : String := if i ∈ numericCols then " class='num'" else ""

def headHtml (numericCols : List Nat) (headers : List String) : String :=
  String.join (headers.zipIdx.map fun h => "<th" ++ numClass numericCols h.2 ++ ">" ++ esc h.1 ++ "</th>")

def rowHtml (numericCols : List Nat) (row : List Cell) : String :=
  "<tr>" ++ String.join (row.zipIdx.map fun c => "<td" ++ numClass numericCols c.2 ++ ">" ++ cellHtml c.1 ++ "</td>") ++ "</tr>"

/-- A signature line. The name is not escaped. -/
def sigHtml (role name : String) : String :=
  "<div class='sig'><div class='sig-line'></div>" ++ "<div class='sig-role'>" ++ esc role ++ "</div><div class='sig-name'>" ++
    (if name = "" then "Name / date" else name) ++ "</div></div>"

def PLACEHOLDER : String := "\x7b\x7bDATA_AS_OF\x7d\x7d"

def renderBlock : Block F → String
  | .h1 text => "<h1 class='section'>" ++ esc text ++ "</h1>"
  | .h2 text => "<h2>" ++ esc text ++ "</h2>"
  | .h3 text => "<h3>" ++ esc text ++ "</h3>"
  | .paragraph text => "<p>" ++ esc text ++ "</p>"
  | .kpis kpis => "<div class='kpis'>" ++ String.join (kpis.map kpiHtml) ++ "</div>"
  | .keyValues kvs =>
    "<table class='docmeta'><tbody>" ++
      String.join (kvs.map fun kv => "<tr><th>" ++ esc kv.1 ++ "</th><td>" ++ cellHtml kv.2 ++ "</td></tr>") ++ "</tbody></table>"
  | .table headers rows numericCols widths =>
    "<table class='data'>" ++ colgroup Φ widths ++ "<thead><tr>" ++ headHtml numericCols headers ++ "</tr></thead><tbody>" ++
      String.join (rows.map (rowHtml numericCols)) ++ "</tbody></table>"
  | .bullets items => "<ul>" ++ String.join (items.map fun i => "<li>" ++ esc i ++ "</li>") ++ "</ul>"
  | .chart spec =>
    "<figure>" ++ Svg.renderSvg Φ spec ++ "<figcaption>Source: Tumult · data as of " ++ PLACEHOLDER ++ "</figcaption></figure>"
  | .pageBreak => "<div class='pagebreak'></div>"
  | .footnote text => "<p class='footnote'>" ++ esc text ++ "</p>"
  | .signoff roles => "<div class='signoff'>" ++ String.join (roles.map fun r => sigHtml r.1 r.2) ++ "</div>"

def CSS_LINES : List String :=
  [
    "@page \x7b size: A4; margin: 20mm 18mm; \x7d",
    "* \x7b box-sizing: border-box; \x7d",
    "body \x7b margin: 0; background: #e8eaec; font: 10.5pt/1.55 'Inter', system-ui, sans-serif;",
    "       color: #1a1d21; font-variant-numeric: lining-nums tabular-nums; \x7d",
    ".page \x7b max-width: 210mm; margin: 24px auto; background: #fff; padding: 20mm 18mm;",
    "        box-shadow: 0 1px 4px rgba(0,0,0,.18); \x7d",
    "@media print \x7b body \x7b background: #fff; \x7d .page \x7b margin: 0; box-shadow: none; max-width: none; \x7d \x7d",
    "h1.section \x7b font: 600 16pt 'Source Serif 4', Georgia, serif; margin: 1.4em 0 .5em;",
    "             border-bottom: 1.5px solid #1a1d21; padding-bottom: 4px; \x7d",
    "h2 \x7b font: 600 12pt 'Source Serif 4', Georgia, serif; margin: 1.2em 0 .35em; \x7d",
    "p \x7b margin: .45em 0; \x7d",
    ".cover \x7b border-bottom: 2.5px solid #1a1d21; padding-bottom: 18px; margin-bottom: 8px;",
    "         min-height: 200mm; display: flex; flex-direction: column; \x7d",
    ".wordmark \x7b font-size: 9pt; font-weight: 700; letter-spacing: .3em; \x7d",
    ".accent-rule \x7b height: 1.5px; background: #0072B2; margin: 6px 0 90px; \x7d",
    ".cover-mid \x7b flex: 1; \x7d",
    ".doc-class \x7b display: inline-block; font-size: 7.5pt; letter-spacing: .18em; text-transform: uppercase;",
    "             color: #444; border: 1px solid #6b7280; border-radius: 9pt; padding: 3px 9px;",
    "             margin-bottom: 16px; \x7d",
    "h1.display \x7b font: 700 26pt/1.15 'Source Serif 4', Georgia, serif; margin: 0 0 8px; \x7d",
    ".cover-sub \x7b font-size: 12pt; color: #4b5563; margin-bottom: 8px; \x7d",
    ".cover-period \x7b font-size: 11.5pt; font-weight: 600; margin-bottom: 26px; \x7d",
    ".glyph \x7b font-size: 8.5pt; \x7d",
    "table.docmeta \x7b border-collapse: collapse; font-size: 9.5pt; \x7d",
    "table.docmeta th \x7b text-align: left; font-weight: 500; color: #6b7280; padding: 2px 24px 2px 0;",
    "                   font-variant: small-caps; letter-spacing: .08em; \x7d",
    "table.docmeta td \x7b padding: 2px 0; \x7d",
    ".kpis \x7b display: flex; flex-wrap: wrap; gap: 10px; margin: 10px 0 14px; \x7d",
    ".kpi \x7b border: 1px solid #d8dce0; border-radius: 4px; padding: 10px 16px; min-width: 110px; \x7d",
    ".kpi-label \x7b font-size: 8pt; letter-spacing: .14em; text-transform: uppercase; color: #6b7280; \x7d",
    ".kpi-value \x7b font: 600 17pt 'Source Serif 4', Georgia, serif; margin-top: 2px; \x7d",
    ".kpi-sub \x7b font-size: 8.5pt; color: #6b7280; \x7d",
    "table.data \x7b border-collapse: collapse; width: 100%; margin: 10px 0 14px; font-size: 9.5pt; \x7d",
    "table.data thead \x7b display: table-header-group; \x7d",
    "table.data th \x7b text-align: left; font-weight: 600; font-size: 8pt; letter-spacing: .1em;",
    "                text-transform: uppercase; color: #6b7280; border-bottom: 1.2px solid #1a1d21;",
    "                padding: 4px 10px 4px 0; \x7d",
    "table.data td \x7b border-bottom: 0.6px solid #e3e6e9; padding: 5px 10px 5px 0; \x7d",
    "table.data .num, table.data th.num \x7b text-align: right; \x7d",
    "ul \x7b margin: .4em 0 .8em; padding-left: 1.3em; \x7d",
    "li \x7b margin: .2em 0; \x7d",
    "figure \x7b margin: 12px 0 16px; \x7d",
    "figcaption \x7b font-size: 8pt; color: #6b7280; margin-top: 4px; \x7d",
    ".pagebreak \x7b break-after: page; \x7d",
    ".footnote \x7b font-size: 8pt; color: #6b7280; border-top: 0.6px solid #d8dce0;",
    "            padding-top: 6px; margin-top: 24px; \x7d",
    ".signoff \x7b display: flex; gap: 40px; margin-top: 48px; \x7d",
    ".sig \x7b flex: 1; \x7d",
    ".sig-line \x7b border-bottom: 1px solid #1a1d21; height: 28px; \x7d",
    ".sig-role \x7b font-size: 8pt; letter-spacing: .12em; text-transform: uppercase; color: #6b7280;",
    "            margin-top: 4px; \x7d",
    ".sig-name \x7b font-size: 9pt; color: #6b7280; \x7d"
  ]

def CSS : String := "\n" ++ String.join (CSS_LINES.map (· ++ "\n"))

/-- Render the document as a self-contained print-styled HTML page. -/
def renderHtml (doc : ReportDoc F) : String :=
  "<!DOCTYPE html><html lang='en'><head><meta charset='utf-8'>" ++ "<title>" ++ esc doc.docMeta.title ++ "</title><style>" ++ CSS ++
    "</style></head>" ++ "<body><main class='page'>" ++ cover doc.docMeta ++ String.join (doc.blocks.map (renderBlock Φ)) ++
    "</main></body></html>"

/-- Substitute the data-as-of placeholder in chart captions. -/
def finalize (html : String) (doc : ReportDoc F) : String :=
  String.ofList (Replace.replaceAll PLACEHOLDER.toList (fmtDate doc.docMeta.dataAsOfNs).toList html.toList)

/-- Render in one step. -/
def render (doc : ReportDoc F) : String := finalize (renderHtml Φ doc) doc

end Tumult.Compliance.Html
