import LatencyReport.CommandLine.Filter
import LatencyReport.CommandLine.Options
import LatencyReport.Config.BuiltIn
import LatencyReport.Config.Reader
import LatencyReport.Report
import LatencyReport.Yaml.Resolve
import LatencyReport.Yaml.Writer

/-!
# `CommandLine` — the program

The program reads its arguments, opens its log, decides which events are shown, and then either prints the
configuration that it would use or makes the report. A configuration file takes the place of the built-in one, and
the directories that the arguments name take the place of those in the configuration.

## Contents

* `Outcome` — how the program ends;
* `prepare` — up to the decision which events are shown;
* `loadConfig`, `perform` — what comes after it.
-/

namespace LatencyReport.CommandLine

/-- How the program ends. -/
structure Outcome where
  code : UInt8
  /-- What is printed. -/
  output : String := ""
  /-- What is said of a failure. -/
  complaint : String := ""
deriving DecidableEq, Repr

/-- The name and the version of the program. -/
def versionText : String := "io-latency-report 0.1.0\n"

/-- How the program is called. -/
def usageText : String :=
  "Usage: io-latency-report [-d|--data DIR] [-p|--plots DIR] [-c|--config FILE] [-l|--log DIRECTIVE]... [--print-config]\n"

/-- How the program ends before it starts. -/
def Outcome.ofEnding : Ending → Outcome
  | .version => { code := 0, output := versionText }
  | .help => { code := 0, output := usageText }
  | .wrong argument => { code := 2, complaint := "unexpected argument: " ++ argument ++ "\n" ++ usageText }

/-- The file that events are written to. -/
def logPath : Path := .ofString "log.log"

/-- The level up to which events are shown if nothing says otherwise. -/
def defaultLevel : String := "warn"

variable {m : Type → Type} [Monad m] [MonadFiles m]

/-- Makes the file for events unless there is one. -/
def openLog : m Unit := do
  unless ← isFile logPath do
    discard (writeFile logPath [])

/-- What the arguments ask for and which events are shown, or how the program ends. -/
def prepare (args : List String) (level : Option String) : m (Except Outcome (Options × Filter)) := do
  match Options.parse args with
  | .error ending => return .error (.ofEnding ending)
  | .ok options =>
    openLog
    match Filter.ofOptions? options.log (level.getD defaultLevel) with
    | none => return .error { code := 1, complaint := "invalid filter directive\n" }
    | some filter => return .ok (options, filter)

/-- The configuration of a file. -/
def readConfig (path : Path) : m (Except String Config) := do
  match ← readFile path with
  | .error cause => return .error ("Read config " ++ path.display ++ ": " ++ cause.message)
  | .ok data =>
    let config? := do
      let text ← (Utf8.decode data).toOption
      let document ← Document.ofYaml? (String.ofList text)
      (Config.read .yaml document).toOption
    match config? with
    | none => return .error ("Parse config " ++ path.display)
    | some config => return .ok config

/-- A configuration with the directories that the arguments name. -/
def applyPaths (options : Options) (config : Config) : Config :=
  { config with
    settings :=
      { config.settings with
        dataDir := options.data.getD config.settings.dataDir
        plotDir := options.plots.getD config.settings.plotDir } }

/-- The configuration that is used. -/
def loadConfig (options : Options) : m (Except String Config) := do
  match options.config with
  | none => return .ok (applyPaths options .builtIn)
  | some path =>
    match ← readConfig (.ofString path) with
    | .error complaint => return .error complaint
    | .ok config => return .ok (applyPaths options config)

/-- Does what the arguments ask for. There is no font for the pictures unless a renderer is given that has one. -/
def perform [MonadJournal m] (options : Options) (r : Renderer := .withoutFont) : m Outcome := do
  match ← loadConfig options with
  | .error complaint => return { code := 1, complaint := complaint ++ "\n" }
  | .ok config =>
    if options.printConfig then
      return { code := 0, output := config.toJson.toYaml }
    match ← config.report r with
    | .ok () => return { code := 0 }
    | .error failure =>
      log (.runFailed failure.texts)
      return { code := 1, complaint := String.intercalate ": " failure.texts ++ "\n" }

end LatencyReport.CommandLine
