import LatencyReport.Summary
import LatencyReport.World

/-!
# `Dataset` — the summaries of many results files

A results file becomes a **row**: the experiment that its name tells, and a summary in microseconds for every phase
that its mechanism measures and that it has samples of. A dataset is the list of its rows in the order in which the
files were added.

A directory is read file by file in the order of their names, so the same directory always gives the same dataset. A
file that is of no use is told and left out; it changes no other row.

## Contents

* `Row`, `Row.ofRecords`, `Row.events` — one file;
* `Dataset`, `Dataset.add` — many of them;
* `readRecords` — the table of a file;
* `Dataset.addFile` — a file, if it is of use;
* `Dataset.addFiles`, `Dataset.ofDirectory` — all files of a directory.
-/

namespace LatencyReport

/-- The summaries of one results file, in microseconds. -/
structure Row where
  experiment : Experiment
  phases : PhaseMap Summary

namespace Row

/-- The summary of a phase in a table, if it has samples. -/
def summaryOf? (records : Records) (phase : Phase) : Option Summary :=
  match records.samples? phase.column with
  | none => none
  | some samples => (Summary.ofSamples? samples).map (·.scaled nanosToMicros)

/-- The row of a table. Only the phases that the mechanism measures count. -/
def ofRecords (experiment : Experiment) (records : Records) : Row where
  experiment
  phases := .ofFn fun phase =>
    if experiment.label.phases.contains phase then summaryOf? records phase else none

/-- How many phases have a summary. -/
def count (row : Row) : Nat :=
  row.phases.toList.length

/-- What is worth telling of the row of a file: that phases are missing. -/
def events (row : Row) (path : Path) : List Event :=
  if row.count < row.experiment.label.phases.length then
    [.phasesMissing path row.count row.experiment.label.phases.length]
  else
    []

end Row

/-- The rows of many results files. -/
structure Dataset where
  rows : List Row := []

/-- The dataset with one more row. -/
def Dataset.add (d : Dataset) (row : Row) : Dataset :=
  ⟨d.rows ++ [row]⟩

variable {m : Type → Type} [Monad m] [MonadFiles m] [MonadJournal m]

/-- Reads the table of a file. -/
def readRecords (path : Path) : m (Except FileError Records) := do
  match ← readFile path with
  | .error cause => return .error (.io path cause)
  | .ok data =>
    let reading := Records.parse path data
    tell (reading.events path)
    match reading.records? with
    | none => return .error (.noHeader path)
    | some records => return .ok records

namespace Dataset

/-- The experiment that the name of a path tells. -/
def experimentOf (path : Path) : Except FileError Experiment :=
  match path.fileName? with
  | none => .error (.badName path.display .notUtf8)
  | some name =>
    match Utf8.decode name with
    | .error _ => .error (.badName path.display .notUtf8)
    | .ok text => Experiment.classify (String.ofList text)

/-- Adds the row of a table. -/
def addRecords (d : Dataset) (experiment : Experiment) (records : Records) : m Dataset := do
  let row := Row.ofRecords experiment records
  tell (row.events records.path)
  return d.add row

/-- Adds the row of a file. If the file is of no use, nothing is added. -/
def addFile (d : Dataset) (path : Path) : m (Except FileError Dataset) := do
  match experimentOf path with
  | .error cause => return .error cause
  | .ok experiment =>
    match ← readRecords path with
    | .error cause => return .error cause
    | .ok records => return .ok (← d.addRecords experiment records)

/-- What is told of a file that is of no use. -/
def skipEvent : FileError → Event
  | .unknownLabel name stem => .fileIgnored (.unknownLabel name stem)
  | cause => .fileSkipped cause

/-- Adds the rows of files, and counts those that are of no use. -/
def addFiles (d : Dataset) (skipped : Nat) : List Path → m (Dataset × Nat)
  | [] => pure (d, skipped)
  | path :: rest => do
    match ← d.addFile path with
    | .ok more => more.addFiles skipped rest
    | .error cause =>
      log (skipEvent cause)
      d.addFiles (skipped + 1) rest

/-- Names in the order of their bytes. -/
def inNameOrder (names : List (List UInt8)) : List (List UInt8) :=
  names.mergeSort fun a b => decide (a ≤ b)

/-- The files among paths. -/
def onlyFiles : List Path → m (List Path)
  | [] => pure []
  | path :: rest => do
    let there ← isFile path
    let others ← onlyFiles rest
    return if there then path :: others else others

/-- The dataset of all files of a directory. It fails only if the directory cannot be listed. -/
def ofDirectory (dir : Path) : m (Except FileError Dataset) := do
  match ← listDir dir with
  | .error cause => return .error (.io dir cause)
  | .ok names =>
    let files ← onlyFiles ((inNameOrder names).map fun name => dir.join ⟨name⟩)
    let (dataset, skipped) ← addFiles {} 0 files
    log (.filesRead dir dataset.rows.length skipped)
    return .ok dataset

end Dataset

end LatencyReport
