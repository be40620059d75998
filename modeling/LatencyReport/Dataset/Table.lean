import LatencyReport.Dataset
import LatencyReport.Json.Writer

/-!
# `Dataset.Table` — a dataset as a table and as data

The table has one line for every phase of every row: the row's label and message size, the phase, and the three
numbers in their shortest form. None of these holds a comma, a quotation mark or a line end, so a line is **its cells
with commas between them**. The names of the columns come with the first line: a table without lines is empty.

## Contents

* `Dataset.tableLines`, `Dataset.table`, `Dataset.writeTable` — the table;
* `Row.toJson`, `Dataset.toJson` — the data.
-/

namespace LatencyReport

/-- The names of the columns of the table. -/
def tableColumns : List String :=
  ["label", "message_size", "phase", "mean_us", "p99_us", "max_us"]

/-- A number in the table. -/
def numberCell (x : Float) : String :=
  String.ofList (Decimal.Layout.table.number x)

/-- The cells of one phase of a row. -/
def Row.cells (row : Row) (phase : Phase) (summary : Summary) : List String :=
  [row.experiment.label.name, toString row.experiment.messageSize, phase.column,
   numberCell summary.mean, numberCell summary.p99, numberCell summary.max]

/-- The cells of all phases of a row. -/
def Row.lines (row : Row) : List (List String) :=
  row.phases.toList.map fun (phase, summary) => row.cells phase summary

namespace Dataset

/-- The cells of all lines but the first. -/
def tableLines (d : Dataset) : List (List String) :=
  d.rows.flatMap Row.lines

/-- The text of a line. -/
def lineText (cells : List String) : String :=
  String.intercalate "," cells ++ "\n"

/-- The text of lines under the names of their columns. -/
def tableText : List (List String) → String
  | [] => ""
  | lines => String.join ((tableColumns :: lines).map lineText)

/-- The table. -/
def table (d : Dataset) : String :=
  tableText d.tableLines

/-- Writes the table into a file. -/
def writeTable {m : Type → Type} [Monad m] [MonadFiles m] (d : Dataset) (path : Path) : m (Except FileError Unit) := do
  match ← writeFile path (Utf8.encode d.table.toList) with
  | .error cause => return .error (.table path cause)
  | .ok () => return .ok ()

end Dataset

/-- An experiment as data. -/
def Experiment.toJson (e : Experiment) : Json :=
  .obj [("label", .str e.label.name), ("message_size", .int e.messageSize.toNat)]

/-- A summary as data. -/
def Summary.toJson (s : Summary) : Json :=
  .obj [("mean", .float s.mean), ("p99", .float s.p99), ("max", .float s.max)]

/-- A row as data. -/
def Row.toJson (row : Row) : Json :=
  .obj [("experiment", row.experiment.toJson),
    ("phases", .obj (row.phases.toList.map fun (phase, summary) => (phase.column, summary.toJson)))]

/-- A dataset as data. -/
def Dataset.toJson (d : Dataset) : Json :=
  .obj [("rows", .arr (d.rows.map Row.toJson))]

end LatencyReport
