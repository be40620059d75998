import LatencyReport.Comparison
import LatencyReport.Json

/-!
# `Config` — what a report is asked to do

A configuration names the report, the directories that it reads from and writes to, and its plots. As data it is a
record of its fields; a plot says first which kind of plot it is, and what is not set is left out.

## Contents

* `Settings`, `Config`;
* `Selection.toJson`, `Comparison.toJson`, `Config.toJson` — the configuration as data.
-/

namespace LatencyReport

/-- Where a report reads and writes. -/
structure Settings where
  dataDir : String := "results"
  plotDir : String := "plots"
  /-- Whether the table of all summaries is written too. -/
  summary : Bool := true
deriving DecidableEq, Repr

/-- What a report is asked to do. -/
structure Config where
  name : String
  settings : Settings := {}
  plots : List Comparison
deriving DecidableEq, Repr

/-- A selection as data. -/
def Selection.toJson (s : Selection) : Json :=
  .obj (("label", .str s.label.name) :: match s.phases with
    | none => []
    | some phases => [("phases", .arr (phases.map fun p => .str p.column))])

namespace Comparison

/-- The name of this kind of plot. -/
def kind : String := "PhaseCompare"

/-- The fields of a comparison as data. -/
def members (c : Comparison) : List (String × Json) :=
  [("name", .str c.name), ("title", .str c.title), ("series", .arr (c.selections.map Selection.toJson))] ++
    (match c.threshold with
      | none => []
      | some n => [("threshold", .int n.toNat)]) ++
    [("dimensions", .arr [.int c.width.toNat, .int c.height.toNat])]

/-- A comparison as data. -/
def toJson (c : Comparison) : Json :=
  .obj c.members

/-- A comparison as data, with the kind of plot that it is. -/
def toTaggedJson (c : Comparison) : Json :=
  .obj (("type", .str kind) :: c.members)

end Comparison

/-- Settings as data. -/
def Settings.toJson (s : Settings) : Json :=
  .obj [("data_dir", .str s.dataDir), ("plot_dir", .str s.plotDir), ("summary", .bool s.summary)]

/-- A configuration as data. -/
def Config.toJson (c : Config) : Json :=
  .obj [("name", .str c.name), ("settings", c.settings.toJson), ("plots", .arr (c.plots.map Comparison.toTaggedJson))]

end LatencyReport
