import LatencyReport.Records
import LatencyReport.Series
import LatencyReport.Text.Quoted

/-!
# `Journal` — what a run tells while it works

Everything worth telling is an **event**: what was read, what was left out and why, what was written. An event knows
its level and the part of the program that it comes from, and has one text.

## Contents

* `Level`, `Source` — how much an event matters, and where it comes from;
* `Event`; `Event.level`, `Event.source`, `Event.message`;
* `Reading.events` — the events of reading a content.
-/

namespace LatencyReport

/-- How much an event matters, the most first. -/
inductive Level where
  | error
  | warn
  | info
  | debug
  | trace
deriving DecidableEq, Repr

/-- The name of the level. -/
def Level.name : Level → String
  | .error => "ERROR"
  | .warn => "WARN"
  | .info => "INFO"
  | .debug => "DEBUG"
  | .trace => "TRACE"

/-- How many levels matter more. -/
def Level.rank : Level → Nat
  | .error => 0
  | .warn => 1
  | .info => 2
  | .debug => 3
  | .trace => 4

/-- The part of the program that an event comes from. -/
inductive Source where
  | program
  | report
  | records
  | dataset
  | plots
  | comparison
deriving DecidableEq, Repr

/-- The name by which a log calls the part. -/
def Source.target : Source → String
  | .program => "io_latency_report"
  | .report => "io_latency_report::report"
  | .records => "common::record"
  | .dataset => "common::dataset"
  | .plots => "common::plot"
  | .comparison => "phase_compare"

/-- Something worth telling. -/
inductive Event where
  /-- A row was left out of a table. -/
  | rowSkipped (path : Path) (row : SkippedRow)
  /-- A table was read. -/
  | tableRead (path : Path) (columns : List String) (rows : Nat)
  /-- A table has data for some of its phases only. -/
  | phasesMissing (path : Path) (found measured : Nat)
  /-- A file was left out since its label is unknown. -/
  | fileIgnored (cause : FileError)
  /-- A file was left out for another reason. -/
  | fileSkipped (cause : FileError)
  /-- The files of a directory were read. -/
  | filesRead (dir : Path) (rows skipped : Nat)
  /-- A phase was selected that its mechanism never measures. -/
  | neverMeasured (label : Label) (phase : Phase)
  /-- There is nothing to plot. -/
  | noPlots
  /-- A plot is about to be drawn. -/
  | seriesChosen (plot : String) (series : Nat)
  /-- A picture was drawn into its file. -/
  | pictureWritten (path : Path)
  /-- A plot was drawn. -/
  | plotDrawn (plot : String) (files : Nat)
  /-- There is no row to plot. -/
  | noResults (dir : Path)
  /-- The summary table was written. -/
  | summaryWritten (path : Path)
  /-- All plots were drawn. -/
  | reportDone (name : String) (files : Nat) (dir : Path)
  /-- The run failed. -/
  | runFailed (texts : List String)
deriving DecidableEq, Repr

namespace Event

/-- How much the event matters. -/
def level : Event → Level
  | rowSkipped .. | fileSkipped .. | neverMeasured .. | noResults .. => .warn
  | filesRead .. | summaryWritten .. | reportDone .. => .info
  | tableRead .. | phasesMissing .. | fileIgnored .. | noPlots | seriesChosen .. => .debug
  | pictureWritten .. | plotDrawn .. => .debug
  | runFailed .. => .error

/-- Where the event comes from. -/
def source : Event → Source
  | rowSkipped .. | tableRead .. => .records
  | phasesMissing .. | fileIgnored .. | fileSkipped .. | filesRead .. => .dataset
  | neverMeasured .. | noPlots | plotDrawn .. => .plots
  | seriesChosen .. | pictureWritten .. => .comparison
  | noResults .. | summaryWritten .. | reportDone .. => .report
  | runFailed .. => .program

/-- What is said of the event. -/
def message : Event → String
  | rowSkipped path row =>
    "Skipping row: " ++ path.display ++ ":" ++ toString row.line ++ ": " ++ row.fault.message
  | tableRead path columns rows =>
    "Read " ++ toString rows ++ " rows of " ++ String.ofList (Text.quotedList (columns.map String.toList)) ++ " from " ++
      path.display
  | phasesMissing path found measured =>
    path.display ++ " has data for " ++ toString found ++ " of " ++ toString measured ++ " phases"
  | fileIgnored cause => "Ignoring " ++ cause.message
  | fileSkipped cause => "Skipping file: " ++ cause.message
  | filesRead dir rows skipped =>
    "Aggregated " ++ toString rows ++ " files from " ++ dir.display ++ " (" ++ toString skipped ++ " skipped)"
  | neverMeasured label phase => label.name ++ " never measures " ++ phase.column
  | noPlots => "No plots"
  | seriesChosen plot series => plot ++ ": " ++ toString series ++ " series"
  | pictureWritten path => "Wrote " ++ path.display
  | plotDrawn plot files => plot ++ " wrote " ++ toString files ++ " files"
  | noResults dir => "No results found in " ++ dir.display ++ ", plots will be empty"
  | summaryWritten path => "Wrote " ++ path.display
  | reportDone name files dir =>
    name ++ ": wrote " ++ toString files ++ " figures to " ++ dir.display
  | runFailed texts => String.intercalate ": " texts

end Event

/-- The events of reading a content: one for every row that is left out, and one for the table. -/
def Reading.events (path : Path) (reading : Reading) : List Event :=
  reading.skipped.map (.rowSkipped path) ++
    match reading.records? with
    | none => []
    | some records => [.tableRead path records.columns records.rows.length]

/-- The events of a selection: one for every phase that its mechanism never measures. -/
def Selection.events (s : Selection) : List Event :=
  s.unmeasured.map (.neverMeasured s.label)

end LatencyReport
