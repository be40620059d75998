import LatencyReport.Picture

/-!
# `Comparison` — phases of several mechanisms, over message sizes

A comparison draws its series over all message sizes, and, if it has a threshold, once more for the sizes up to it
and for those above it. Each picture has its own title and its own file, named for the comparison and the range; the
values that it shows are written **before it is drawn**. The figures have nothing to do with each other; they are drawn
one after the other, and the first that fails is the last.

## Contents

* `Comparison` — name, title, series, threshold and the size of a picture;
* `Comparison.ranges`, `Comparison.figures` — what it draws;
* `Comparison.drawFigure`, `Comparison.drawFigures` — writing the values and drawing the picture;
* `Comparison.draw`, `Comparison.toPlot` — the comparison as a plot.
-/

namespace LatencyReport

/-- A comparison of phases. -/
structure Comparison where
  name : String
  title : String
  selections : List Selection
  threshold : Option UInt64 := none
  width : UInt32 := 1500
  height : UInt32 := 1000
deriving DecidableEq, Repr

/-- A figure with the ends of its axis, and the name of its files without their ending. -/
structure FigureJob where
  stem : String
  range : Range
  figure : Figure
  span : Float × Float

/-- The file of a picture. -/
def plotPicturePath (dir : Path) (stem : String) : Path :=
  dir.join (.ofString (stem ++ ".png"))

namespace Comparison

/-- The series that are drawn. -/
def series (c : Comparison) : List Series :=
  Series.ofSelections c.selections

/-- The ranges of message sizes that have a figure. -/
def ranges (c : Comparison) : List Range :=
  .all :: match c.threshold with
    | none => []
    | some threshold => [.atMost threshold, .above threshold]

/-- The title of the figure of a range. -/
def figureTitle (c : Comparison) : Range → String
  | .all => c.title
  | range => c.title ++ " (" ++ range.text ++ ")"

/-- The name of the files of a range. -/
def stem (c : Comparison) (range : Range) : String :=
  c.name ++ "_" ++ range.slug

/-- The figure of a range. -/
def figure (c : Comparison) (d : Dataset) (range : Range) : Figure :=
  .ofPartition (c.figureTitle range) (d.partition range) c.series

/-- The figure of a range, to be drawn. -/
def job (c : Comparison) (d : Dataset) (range : Range) : FigureJob :=
  ⟨c.stem range, range, c.figure d range, (d.partition range).span⟩

/-- The figures of a dataset. -/
def figures (c : Comparison) (d : Dataset) : List FigureJob :=
  c.ranges.map (c.job d)

/-- The picture of a figure. -/
def picture (c : Comparison) (job : FigureJob) : Picture :=
  job.figure.picture c.width c.height job.span

variable {m : Type → Type} [Monad m] [MonadFiles m] [MonadJournal m]

/-- Writes the values of a figure, and draws its picture. -/
def drawFigure (c : Comparison) (r : Renderer) (dir : Path) (job : FigureJob) : m (Except Failure Path) := do
  match ← writePlotData dir job.stem job.figure.toJson with
  | .error failure => return .error failure
  | .ok _ =>
    let path := plotPicturePath dir job.stem
    match ← drawPicture r path (c.picture job) with
    | .error failure => return .error failure
    | .ok () =>
      log (.pictureWritten path)
      return .ok path

/-- Draws figures one after the other, and gives the files of their pictures. -/
def drawFigures (c : Comparison) (r : Renderer) (dir : Path) : List FigureJob → m (Except Failure (List Path))
  | [] => pure (.ok [])
  | job :: rest => do
    match ← c.drawFigure r dir job with
    | .error failure => return .error failure
    | .ok path =>
      match ← c.drawFigures r dir rest with
      | .error failure => return .error failure
      | .ok paths => return .ok (path :: paths)

/-- Tells what is worth a warning in selections. -/
def tellSelections (selections : List Selection) : m Unit :=
  tell (selections.flatMap Selection.events)

/-- Draws the figures of a dataset. -/
def draw (c : Comparison) (r : Renderer) (d : Dataset) (dir : Path) : m (Except Failure (List Path)) := do
  tellSelections c.selections
  log (.seriesChosen c.name c.series.length)
  c.drawFigures r dir (c.figures d)

/-- The comparison as a plot of a dataset. -/
def toPlot (c : Comparison) (r : Renderer) (d : Dataset) : Plot m where
  name := c.name
  draw := c.draw r d

end Comparison

end LatencyReport
