import LatencyReport.Json.Writer
import LatencyReport.World

/-!
# `Plot` — running plots over a dataset

A plot has a name and draws files into a directory. Plots run **one after the other, and the first that fails ends
the run**; what the plots before it wrote stays. Beside every picture a plot leaves the values that it shows, in a
directory of their own.

## Contents

* `Failure`, `Failure.texts` — why a run fails, from the outermost cause on;
* `makePlotDirs`, `writePlotData` — directories and values;
* `Plot`, `Plot.runAll` — plots, and their files.
-/

namespace LatencyReport

/-- Why a run fails. -/
inductive Failure where
  | results (dir : Path) (cause : FileError)
  | plotDir (dir : Path) (cause : OsError)
  | summary (path : Path) (cause : FileError)
  | plotData (path : Path) (cause : OsError)
  | plot (name : String) (cause : Failure)
  /-- Pictures need a font, and there is none that can be used. -/
  | noFont
  | other (text : String)
deriving DecidableEq, Repr

/-- What is said of the failure, from the outermost cause on. -/
def Failure.texts : Failure → List String
  | .results dir cause => ("Read results from " ++ dir.display) :: cause.texts
  | .plotDir dir cause => ["Create plot dir " ++ dir.display, cause.message]
  | .summary path cause => ("Write summary " ++ path.display) :: cause.texts
  | .plotData path cause => ["Write plot data " ++ path.display, cause.message]
  | .plot name cause => ("Render plot " ++ name) :: cause.texts
  | .noFont => ["Invalid bundled font"]
  | .other text => [text]

variable {m : Type → Type} [Monad m] [MonadFiles m]

/-- Makes directories, those above them included. -/
def makePlotDirs : List Path → m (Except Failure Unit)
  | [] => pure (.ok ())
  | dir :: rest => do
    match ← makeDirs dir with
    | .error cause => return .error (.plotDir dir cause)
    | .ok () => makePlotDirs rest

/-- The directory for the values of pictures that stand in a directory. -/
def plotDataDir (dir : Path) : Path :=
  dir.join (.ofString "plot_data")

/-- The file for the values of a picture. -/
def plotDataPath (dir : Path) (stem : String) : Path :=
  (plotDataDir dir).join (.ofString (stem ++ ".json"))

/-- Writes the values of a picture. -/
def writePlotData (dir : Path) (stem : String) (values : Json) : m (Except Failure Path) := do
  match ← makePlotDirs [plotDataDir dir] with
  | .error failure => return .error failure
  | .ok () =>
    let path := plotDataPath dir stem
    match ← writeFile path (Utf8.encode values.pretty.toList) with
    | .error cause => return .error (.plotData path cause)
    | .ok () => return .ok path

/-- Something that draws files into a directory. -/
structure Plot (m : Type → Type) where
  name : String
  draw : Path → m (Except Failure (List Path))

namespace Plot

variable [MonadJournal m]

/-- Runs plots one after the other. The files are those of all of them. -/
def runFrom (dir : Path) : List (Plot m) → m (Except Failure (List Path))
  | [] => pure (.ok [])
  | plot :: rest => do
    match ← plot.draw dir with
    | .error failure => return .error (.plot plot.name failure)
    | .ok files =>
      log (.plotDrawn plot.name files.length)
      match ← runFrom dir rest with
      | .error failure => return .error failure
      | .ok more => return .ok (files ++ more)

/-- Runs plots in a directory, which is made if there is a plot at all. -/
def runAll (dir : Path) (plots : List (Plot m)) : m (Except Failure (List Path)) := do
  if plots.isEmpty then
    log .noPlots
    return .ok []
  match ← makePlotDirs [dir] with
  | .error failure => return .error failure
  | .ok () => runFrom dir plots

end Plot

end LatencyReport
