import LatencyReport.Json.Writer
import LatencyReport.Palette
import LatencyReport.Partition

/-!
# `Figure` — what a picture of latencies shows

A figure has one panel for each statistic, and a panel one curve for each series **that has a point** in the
partition. The three panels of a figure show the same curves in the same order; only the values differ. The curves get
their colors from one palette, panel by panel, so a series has one color in the whole figure.

## Contents

* `Curve`, `Panel`, `Figure`;
* `Figure.ofPartition` — what is shown of a partition;
* `Panel.legend`, `Figure.legends` — the series of the curves, and their colors;
* `Figure.toJson` — the figure as data.
-/

namespace LatencyReport

/-- The points of one series. -/
structure Curve where
  series : Series
  points : List (UInt64 × Float)

/-- The curves of one statistic. -/
structure Panel where
  statistic : Statistic
  curves : List Curve

/-- A titled picture. -/
structure Figure where
  title : String
  panels : List Panel

/-- What is shown of one statistic. -/
def Panel.ofPartition (p : Partition) (series : List Series) (statistic : Statistic) : Panel where
  statistic
  curves := (series.map fun s => ⟨s, p.points s statistic⟩).filter fun (curve : Curve) => !curve.points.isEmpty

namespace Figure

/-- What is shown of a partition. -/
def ofPartition (title : String) (p : Partition) (series : List Series) : Figure where
  title
  panels := Statistic.all.map (Panel.ofPartition p series)

end Figure

/-- The series of the curves. -/
def Panel.series (panel : Panel) : List Series :=
  panel.curves.map (·.series)

/-- The series of the curves, each with its color, and the colors after the panel was drawn. -/
def Panel.legend (panel : Panel) (c : Colors) : List (Series × Color) × Colors :=
  let (colors, next) := c.colorAll panel.series
  (panel.series.zip colors, next)

namespace Figure

/-- The legends of panels that are drawn one after the other. -/
def legendsFrom (c : Colors) : List Panel → List (List (Series × Color))
  | [] => []
  | panel :: rest =>
    let (legend, next) := panel.legend c
    legend :: legendsFrom next rest

/-- The legends of the panels. The first panel starts with no color handed out. -/
def legends (figure : Figure) : List (List (Series × Color)) :=
  legendsFrom {} figure.panels

end Figure

/-- A series as data. -/
def Series.toJson (s : Series) : Json :=
  .obj [("label", .str s.label.name), ("phase", .str s.phase.column)]

/-- A curve as data. -/
def Curve.toJson (c : Curve) : Json :=
  .obj [("series", c.series.toJson),
    ("points", .arr (c.points.map fun (size, value) => .arr [.int size.toNat, .float value]))]

/-- A panel as data. -/
def Panel.toJson (p : Panel) : Json :=
  .obj [("statistic", .str p.statistic.name), ("series", .arr (p.curves.map Curve.toJson))]

/-- A figure as data. -/
def Figure.toJson (f : Figure) : Json :=
  .obj [("title", .str f.title), ("statistics", .arr (f.panels.map Panel.toJson))]

end LatencyReport
