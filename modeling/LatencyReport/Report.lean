import LatencyReport.Config
import LatencyReport.Dataset.Table

/-!
# `Report` — a whole run

A report reads the results, writes the table of all summaries if it is asked to, and runs the plots. **Each stage
starts only when the one before it succeeded**, so a run that fails has done nothing of the later stages.

## Contents

* `Settings.dataPath`, `Settings.plotPath`, `Settings.summaryPath`;
* `Config.readResults`, `Config.writeSummary`, `Config.drawPlots` — the stages;
* `Config.report` — all of them.
-/

namespace LatencyReport

namespace Settings

/-- The directory that is read from. -/
def dataPath (s : Settings) : Path := .ofString s.dataDir

/-- The directory that is written to. -/
def plotPath (s : Settings) : Path := .ofString s.plotDir

/-- The file of the table. -/
def summaryPath (s : Settings) : Path := s.plotPath.join (.ofString "summary.csv")

end Settings

namespace Config

variable {m : Type → Type} [Monad m] [MonadFiles m] [MonadJournal m]

/-- Reads the results. -/
def readResults (c : Config) : m (Except Failure Dataset) := do
  match ← Dataset.ofDirectory c.settings.dataPath with
  | .error cause => return .error (.results c.settings.dataPath cause)
  | .ok dataset =>
    if dataset.rows.isEmpty then
      log (.noResults c.settings.dataPath)
    return .ok dataset

/-- Makes the directory that is written to, and writes the table into it if that is asked for. -/
def writeSummary (c : Config) (dataset : Dataset) : m (Except Failure Unit) := do
  match ← makePlotDirs [c.settings.plotPath] with
  | .error failure => return .error failure
  | .ok () =>
    if c.settings.summary then
      match ← dataset.writeTable c.settings.summaryPath with
      | .error cause => return .error (.summary c.settings.summaryPath cause)
      | .ok () =>
        log (.summaryWritten c.settings.summaryPath)
        return .ok ()
    else
      return .ok ()

/-- Runs the plots. -/
def drawPlots (c : Config) (r : Renderer) (dataset : Dataset) : m (Except Failure Unit) := do
  match ← Plot.runAll c.settings.plotPath (c.plots.map (·.toPlot r dataset)) with
  | .error failure => return .error failure
  | .ok files =>
    log (.reportDone c.name files.length c.settings.plotPath)
    return .ok ()

/-- Makes the report. There is no font for the pictures unless a renderer is given that has one. -/
def report (c : Config) (r : Renderer := .withoutFont) : m (Except Failure Unit) := do
  match ← c.readResults with
  | .error failure => return .error failure
  | .ok dataset =>
    match ← c.writeSummary dataset with
    | .error failure => return .error failure
    | .ok () => c.drawPlots r dataset

end Config

end LatencyReport
