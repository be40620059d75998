import LatencyReport.Figure
import LatencyReport.Plot

/-!
# `Picture` — figures as they are drawn

A picture has a chart for each panel of its figure, one below the other. The charts share the axis of the message sizes.
The axis of the values starts at zero in each of them, and ends a tenth above the greatest value, or at one if no value is
above zero.

How a picture becomes the content of a file is not decided here. That is asked of a **renderer**, which is given the path
and the picture and answers with what is put into the file and with what went wrong. It may fail before there is anything
to put there, as it does without a font, and it may fail with a part of the picture drawn, which is then put into the file
all the same. It knows of no other file. What is the same in all pictures, such as fonts, margins and the names of the
axes, is its own.

## Contents

* `ChartLine`, `Chart`, `Picture`; `Figure.picture` — what is drawn of a figure;
* `Rendering`, `Renderer` — what becomes of a picture;
* `drawPicture` — a picture drawn into its file.
-/

namespace LatencyReport

/-- A line of a chart. -/
structure ChartLine where
  label : String
  color : Color
  points : List (Float × Float)

/-- The lines of one statistic, and where the axis of their values ends. -/
structure Chart where
  caption : String
  top : Float
  lines : List ChartLine

/-- A picture, with its size and the ends of the axis of the message sizes. -/
structure Picture where
  width : UInt32
  height : UInt32
  title : String
  span : Float × Float
  charts : List Chart

/-- A curve as a line, with the series and the color of its legend. -/
def Curve.line (curve : Curve) (legend : Series × Color) : ChartLine where
  label := legend.1.text
  color := legend.2
  points := curve.points.map fun (size, value) => (size.toFloat, value)

/-- Where the axis of the values ends. -/
def Panel.top (panel : Panel) : Float :=
  let greatest := (panel.curves.flatMap fun curve => curve.points.map (·.2)).foldl max 0.0
  if 0.0 < greatest then greatest * 1.1 else 1.0

/-- A panel as a chart, with its legend. -/
def Panel.chart (panel : Panel) (legend : List (Series × Color)) : Chart where
  caption := panel.statistic.title
  top := panel.top
  lines := List.zipWith Curve.line panel.curves legend

/-- What is drawn of a figure. -/
def Figure.picture (figure : Figure) (width height : UInt32) (span : Float × Float) : Picture where
  width
  height
  title := figure.title
  span
  charts := List.zipWith Panel.chart figure.panels figure.legends

/-- What becomes of a picture. -/
structure Rendering where
  /-- What is put into the file of the picture, if anything is. -/
  content? : Option (List UInt8)
  /-- Why the picture could not be drawn, if it could not. -/
  failure? : Option Failure

/-- Whether the picture could be drawn. -/
def Rendering.answer (rendering : Rendering) : Except Failure Unit :=
  match rendering.failure? with
  | none => .ok ()
  | some failure => .error failure

/-- Something that draws pictures. -/
structure Renderer where
  render : Path → Picture → Rendering
  /-- What is said of the file of a picture that cannot be written. -/
  complain : Path → OsError → Failure

/-- The renderer that has no font, and so draws nothing. -/
def Renderer.withoutFont : Renderer where
  render _ _ := { content? := none, failure? := some .noFont }
  complain _ cause := .other cause.message

/-- Draws a picture into its file. If it could not be drawn, nothing is said of the file. -/
def drawPicture {m : Type → Type} [Monad m] [MonadFiles m] (r : Renderer) (path : Path) (picture : Picture) :
    m (Except Failure Unit) := do
  let rendering := r.render path picture
  match rendering.content? with
  | none => return rendering.answer
  | some content =>
    match ← writeFile path content with
    | .error cause => return .error (rendering.failure?.getD (r.complain path cause))
    | .ok () => return rendering.answer

end LatencyReport
