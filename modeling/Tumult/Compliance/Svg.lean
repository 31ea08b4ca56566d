import Tumult.Api.SqlUtil
import Tumult.Compliance.Report

/-!
# Charts

Bars, donuts and lines as SVG texts.
-/

namespace Tumult.Compliance.Svg

open SqlUtil (replaceChar)

variable {F : Type} (Φ : Floats F)

/-- Okabe-Ito palette, black last for neutral series. -/
def PALETTE : List String := ["#0072B2", "#E69F00", "#009E73", "#D55E00", "#56B4E9", "#CC79A7", "#F0E442", "#000000"]

def color (i : Nat) : String := PALETTE.getD (i % PALETTE.length) ""

def esc (s : String) : String :=
  replaceChar '"' "&quot;".toList (replaceChar '>' "&gt;".toList (replaceChar '<' "&lt;".toList (replaceChar '&' "&amp;".toList s)))

/-- The attribute of the font. -/
def FONT : String × String := ("font-family", "Inter, sans-serif")

/-! ## Elements -/

/-- A start tag with its attributes in single quotes. -/
def openTag (name : String) (attrs : List (String × String)) (close : String) : String :=
  "<" ++ name ++ String.join (attrs.map fun a => " " ++ a.1 ++ "='" ++ a.2 ++ "'") ++ close

def svgTag (width height : String) : String :=
  openTag "svg" [("xmlns", "http://www.w3.org/2000/svg"), ("width", width), ("height", height),
    ("viewBox", "0 0 " ++ width ++ " " ++ height)] ">"

def textTag (x y size fill : String) : String :=
  openTag "text" [("x", x), ("y", y), ("font-size", size), ("fill", fill), FONT] ">"

def rectTag (x y width height fill : String) : String :=
  openTag "rect" [("x", x), ("y", y), ("width", width), ("height", height), ("fill", fill)] "/>"

def circleTag (cx cy r fill : String) : String := openTag "circle" [("cx", cx), ("cy", cy), ("r", r), ("fill", fill)] "/>"

def lineTag (x1 y1 x2 y2 : String) : String :=
  openTag "line" [("x1", x1), ("y1", y1), ("x2", x2), ("y2", y2), ("stroke", "#999"), ("stroke-width", "0.7")] "/>"

def pathTag (d fill : String) : String := openTag "path" [("d", d), ("fill", fill)] "/>"

def polylineTag (points stroke : String) : String :=
  openTag "polyline" [("points", points), ("fill", "none"), ("stroke", stroke), ("stroke-width", "1.6")] "/>"

example : circleTag "1" "2" "2.2" "#fff" = "<circle cx='1' cy='2' r='2.2' fill='#fff'/>" := by decide

/-! ## Labels and numbers -/

/-- Ellipsize a label to `max` characters. -/
def truncate (s : String) (max : Nat) : String :=
  if s.toList.length ≤ max then s
  else String.ofList (Text.trimEndMatches Text.isWhitespace (s.toList.take (max - 1))) ++ "…"

/-- Trim trailing zeros for compact chart labels. -/
def fmtNum (v : F) : String :=
  if Φ.eq (Φ.fract v) (Φ.lit 0) && Φ.lt (Φ.abs v) (Φ.lit (10 ^ 15)) then toString (Φ.asI64 v)
  else String.ofList (Text.trimEndMatches (· = '.') (Text.trimEndMatches (· = '0') (Φ.fixed 1 v).toList))

/-! ## Bars -/

def labelW : F := Φ.lit 170

def barMaxW : F := Φ.lit 240

def rowH : F := Φ.lit 22

/-- One row: its label, its bar and its value. -/
def bar (max : F) (row : String × F) (i : Nat) : String :=
  let y := Φ.add (Φ.mul (Φ.lit i) (rowH Φ)) (Φ.lit 4)
  let w := Φ.max (Φ.mul (Φ.div row.2 max) (barMaxW Φ)) (Φ.lit 1)
  let ty := Φ.fixed 1 (Φ.add y (Φ.lit 11))
  let tx := Φ.fixed 1 (Φ.add (Φ.add (labelW Φ) w) (Φ.lit 6))
  textTag "0" ty "9.5" "#333" ++ esc (truncate row.1 30) ++ "</text>" ++
    rectTag (Φ.display (labelW Φ)) (Φ.fixed 1 y) (Φ.fixed 1 w) "14" (color i) ++ textTag tx ty "9.5" "#333" ++ fmtNum Φ row.2 ++
    "</text>"

/-- Horizontal bars in caller order, with direct value labels at bar ends. -/
def bars (rows : List (String × F)) : String :=
  let max := Φ.max ((rows.map Prod.snd).foldl Φ.max (Φ.lit 0)) (Φ.lit (1 / 10 ^ 9))
  let h := Φ.fixed 0 (Φ.add (Φ.mul (Φ.lit rows.length) (rowH Φ)) (Φ.lit 8))
  svgTag "480" h ++ String.join (rows.zipIdx.map fun row => bar Φ max row.1 row.2) ++ "</svg>"

/-! ## Donuts -/

/-- The slice as a full circle or as an arc; none when it is empty. -/
def arc (total angle v : F) (i : Nat) : String :=
  let cx := Φ.lit 70
  let cy := Φ.lit 70
  let r := Φ.lit 56
  let ir := Φ.lit 30
  let frac := Φ.div v total
  let sweep := Φ.mul frac (Φ.mul (Φ.lit 2) Φ.pi)
  if Φ.lt (Φ.lit (999999 / 1000000)) frac then
    circleTag (Φ.display cx) (Φ.display cy) (Φ.display r) (color i) ++ circleTag (Φ.display cx) (Φ.display cy) (Φ.display ir) "#fff"
  else if Φ.lt (Φ.lit 0) frac then
    let a1 := angle
    let a2 := Φ.add angle sweep
    let large := if Φ.lt Φ.pi sweep then "1" else "0"
    let p := fun a rad => Φ.fixed 2 (Φ.add cx (Φ.mul rad (Φ.cos a))) ++ " " ++ Φ.fixed 2 (Φ.add cy (Φ.mul rad (Φ.sin a)))
    pathTag ("M" ++ p a1 r ++ " A" ++ Φ.display r ++ " " ++ Φ.display r ++ " 0 " ++ large ++ " 1 " ++ p a2 r ++ " L" ++ p a2 ir ++
      " A" ++ Φ.display ir ++ " " ++ Φ.display ir ++ " 0 " ++ large ++ " 0 " ++ p a1 ir ++ " Z") (color i)
  else ""

/-- The entry of a slice in the legend. -/
def legend (total v : F) (label : String) (i : Nat) : String :=
  let frac := Φ.div v total
  let ly := Φ.add (Φ.lit 20) (Φ.mul (Φ.lit i) (Φ.lit 18))
  rectTag "150" (Φ.fixed 1 (Φ.sub ly (Φ.lit 9))) "10" "10" (color i) ++ textTag "166" (Φ.fixed 1 ly) "10" "#333" ++ esc label ++
    " — " ++ fmtNum Φ (Φ.mul frac (Φ.lit 100)) ++ "%</text>"

/-- The slices from an index and an angle on. -/
def donutFrom (total : F) : Nat → F → List (String × F) → String
  | _, _, [] => ""
  | i, angle, (label, v) :: slices =>
    arc Φ total angle v i ++ legend Φ total v label i ++
      donutFrom total (i + 1) (Φ.add angle (Φ.mul (Φ.div v total) (Φ.mul (Φ.lit 2) Φ.pi))) slices

/-- Donut with a legend; shares as glyph, label and percentage. -/
def donut (slices : List (String × F)) : String :=
  let total := Φ.sum (slices.map Prod.snd)
  if Φ.le total (Φ.lit 0) then ""
  else svgTag "400" "140" ++ donutFrom Φ total 0 (Φ.neg (Φ.div Φ.pi (Φ.lit 2))) slices ++ "</svg>"

/-! ## Lines -/

/-- The rectangle of the points and that of the drawing. -/
structure Scale (F : Type) where
  x0 : F
  x1 : F
  y0 : F
  y1 : F

def chartW : F := Φ.lit 480

def chartH : F := Φ.lit 160

def ml : F := Φ.lit 40

def mr : F := Φ.lit 90

def mt : F := Φ.lit 10

def mb : F := Φ.lit 22

/-- The range of the points, with the vertical one padded. -/
def scaleOf (xs ys : List F) : Scale F :=
  let y0 := ys.foldl Φ.min Φ.infinity
  let y1 := ys.foldl Φ.max Φ.negInfinity
  let pad := Φ.max (Φ.mul (Φ.sub y1 y0) (Φ.lit (15 / 100))) (Φ.lit 2)
  let low := if Φ.le (Φ.lit 0) y0 then Φ.max (Φ.sub y0 pad) (Φ.lit 0) else Φ.sub y0 pad
  let high := Φ.add y1 pad
  { x0 := xs.foldl Φ.min Φ.infinity
    x1 := xs.foldl Φ.max Φ.negInfinity
    y0 := low
    y1 := if Φ.lt (Φ.abs (Φ.sub high low)) (Φ.lit (1 / 10 ^ 9)) then Φ.add low (Φ.lit 1) else high }

def sx (s : Scale F) (x : F) : F :=
  Φ.add (ml Φ)
    (Φ.mul (Φ.div (Φ.sub x s.x0) (Φ.max (Φ.sub s.x1 s.x0) (Φ.lit (1 / 10 ^ 9)))) (Φ.sub (Φ.sub (chartW Φ) (ml Φ)) (mr Φ)))

def sy (s : Scale F) (y : F) : F :=
  Φ.add (mt Φ) (Φ.mul (Φ.sub (Φ.lit 1) (Φ.div (Φ.sub y s.y0) (Φ.sub s.y1 s.y0))) (Φ.sub (Φ.sub (chartH Φ) (mt Φ)) (mb Φ)))

/-- Axes and the labels of the least and the greatest value. -/
def axes (s : Scale F) : String :=
  let zy := sy Φ s s.y0
  let ex := Φ.sub (chartW Φ) (mr Φ)
  lineTag (Φ.display (ml Φ)) (Φ.display zy) (Φ.display ex) (Φ.display zy) ++
    lineTag (Φ.display (ml Φ)) (Φ.display (mt Φ)) (Φ.display (ml Φ)) (Φ.display zy) ++
    textTag "2" (Φ.fixed 1 (Φ.add (sy Φ s s.y1) (Φ.lit 7))) "8" "#666" ++ fmtNum Φ s.y1 ++ "</text>" ++
    textTag "2" (Φ.fixed 1 zy) "8" "#666" ++ fmtNum Φ s.y0 ++ "</text>"

/-- The marker of a point. -/
def marker (s : Scale F) (i : Nat) (p : F × F) : String :=
  circleTag (Φ.fixed 1 (sx Φ s p.1)) (Φ.fixed 1 (sy Φ s p.2)) "2.2" (color i)

/-- The polyline of a series, its markers and its name; a series without points is left out. -/
def line (s : Scale F) (name : String) (points : List (F × F)) (i : Nat) : String :=
  match points.getLast? with
  | none => ""
  | some last =>
    let path := points.map fun p => Φ.fixed 1 (sx Φ s p.1) ++ "," ++ Φ.fixed 1 (sy Φ s p.2)
    polylineTag (" ".intercalate path) (color i) ++ String.join (points.map (marker Φ s i)) ++
      textTag (Φ.fixed 1 (Φ.add (sx Φ s last.1) (Φ.lit 5))) (Φ.fixed 1 (Φ.add (sy Φ s last.2) (Φ.lit 3))) "9" (color i) ++
      esc name ++ "</text>"

/-- Multi-series lines with direct end-of-line series labels. -/
def lines (series : List (String × List (F × F))) : String :=
  let xs := series.flatMap fun s => s.2.map Prod.fst
  let ys := series.flatMap fun s => s.2.map Prod.snd
  if xs.isEmpty || ys.isEmpty then ""
  else
    let s := scaleOf Φ xs ys
    svgTag (Φ.fixed 0 (chartW Φ)) (Φ.fixed 0 (chartH Φ)) ++ axes Φ s ++
      String.join (series.zipIdx.map fun x => line Φ s x.1.1 x.1.2 x.2) ++ "</svg>"

/-- Render a chart spec to a standalone SVG string. -/
def renderSvg : ChartSpec F → String
  | .bars rows => bars Φ rows
  | .donut slices => donut Φ slices
  | .lines series => lines Φ series

end Tumult.Compliance.Svg
