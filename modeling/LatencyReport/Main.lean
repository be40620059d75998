import LatencyReport.CommandLine

/-!
# `Main` — the program on a machine

Everything that the program decides is decided elsewhere. Here files are those of the machine, events are printed and
appended to the log if the filter shows them, and the outcome becomes the exit code.
-/

namespace LatencyReport.Main

open CommandLine

/-- A run on the machine, with the filter for its events. -/
abbrev Live := ReaderT Filter IO

/-- The error of the operating system. -/
def ofIoError : IO.Error → OsError
  | .noFileOrDirectory .. => .notFound
  | .alreadyExists .. => .alreadyExists
  | .inappropriateType _ code text =>
    if code = 20 then .notADirectory else if code = 21 then .isADirectory else .other text
  | e => .other (toString e)

/-- The result of an action of the machine. -/
def attempt {α : Type} (action : IO α) : IO (Except OsError α) := do
  match ← action.toBaseIO with
  | .ok x => return .ok x
  | .error e => return .error (ofIoError e)

/-- The path as the machine takes it, seen from the working directory. -/
def located (path : Path) :=
  IO.FS.DirEntry.path ⟨".", path.display⟩

instance : MonadFiles IO where
  readFile path := attempt do return (← IO.FS.readBinFile path.display).toList
  writeFile path content := attempt (IO.FS.writeBinFile path.display content.toByteArray)
  listDir path := do
    if path.bytes.isEmpty then
      return .error .notFound
    attempt do return (← (located path).readDir).toList.map fun entry => Utf8.encode entry.fileName.toList
  isFile path := do
    match ← (located path).metadata.toBaseIO with
    | .ok info => return !path.bytes.isEmpty && info.type == .file
    | .error _ => return false
  isDir path := do return !path.bytes.isEmpty && (← (located path).isDir)
  makeDir path := attempt (IO.FS.createDir path.display)

instance : MonadFiles Live where
  readFile path := liftM (n := Live) (readFile path : IO _)
  writeFile path content := liftM (n := Live) (writeFile path content : IO _)
  listDir path := liftM (n := Live) (listDir path : IO _)
  isFile path := liftM (n := Live) (isFile path : IO _)
  isDir path := liftM (n := Live) (isDir path : IO _)
  makeDir path := liftM (n := Live) (makeDir path : IO _)

/-- An event as a line of the log. -/
def logLine (e : Event) : String :=
  e.level.name ++ " " ++ e.source.target ++ ": " ++ e.message ++ "\n"

instance : MonadJournal Live where
  log event := do
    if (← read).shows event then
      IO.print (logLine event)
      let file ← IO.FS.Handle.mk logPath.display .append
      file.putStr (logLine event)

/-- Shows an outcome. -/
def conclude (outcome : Outcome) : IO UInt32 := do
  IO.print outcome.output
  IO.eprint outcome.complaint
  return outcome.code.toUInt32

/-- Runs the program with its arguments. -/
def run (args : List String) : IO UInt32 := do
  let level ← IO.getEnv "RUST_LOG"
  match ← (prepare args level : IO _) with
  | .error outcome => conclude outcome
  | .ok (options, filter) => conclude (← (perform (m := Live) options).run filter)

end LatencyReport.Main

/-- The program. -/
def main (args : List String) : IO UInt32 :=
  LatencyReport.Main.run args
