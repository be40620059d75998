import LatencyReport.Journal
import LatencyReport.Storage.Tree

/-!
# `World` — the effects of a run

A run reads and writes files and tells events; that is all it does to the world. Both are **asked for by a class**,
so the same run can work on a machine or on a `World`, a value that holds the files and what was told so far. The
latter is what statements about runs speak of.

## Contents

* `MonadFiles`, `MonadJournal` — what a run asks for;
* `World`, `Run` — files and events as a value, and the runs on it;
* `tell` — many events;
* `makeDirs` — a directory with every directory above it that is missing.
-/

namespace LatencyReport

/-- Files that can be read and written. -/
class MonadFiles (m : Type → Type) where
  readFile : Path → m (Except OsError (List UInt8))
  writeFile : Path → List UInt8 → m (Except OsError Unit)
  listDir : Path → m (Except OsError (List (List UInt8)))
  isFile : Path → m Bool
  isDir : Path → m Bool
  makeDir : Path → m (Except OsError Unit)

/-- A journal that events can be told to. -/
class MonadJournal (m : Type → Type) where
  log : Event → m Unit

export MonadFiles (readFile writeFile listDir isFile isDir makeDir)
export MonadJournal (log)

/-- Files, and the events told so far. -/
structure World where
  storage : Storage
  journal : List Event := []

/-- A run on files that are a value. -/
abbrev Run := StateM World

/-- The files after a change, unless it failed. -/
def World.change (w : World) : Except OsError Storage → Except OsError Unit × World
  | .error e => (.error e, w)
  | .ok storage => (.ok (), { w with storage })

instance : MonadFiles Run where
  readFile path := fun w => (w.storage.read path, w)
  writeFile path content := fun w => w.change (w.storage.write path content)
  listDir path := fun w => (w.storage.list path, w)
  isFile path := fun w => (w.storage.isFile path, w)
  isDir path := fun w => (w.storage.isDir path, w)
  makeDir path := fun w => w.change (w.storage.makeDir path)

instance : MonadJournal Run where
  log event := fun w => ((), { w with journal := w.journal ++ [event] })

variable {m : Type → Type} [Monad m]

/-- Tells events, one after the other. -/
def tell [MonadJournal m] : List Event → m Unit
  | [] => pure ()
  | event :: rest => do
    log event
    tell rest

/-- Makes the first of the directories, after those above it if they are missing. The empty path is where we are. -/
def makeDirsFrom [MonadFiles m] : List Path → m (Except OsError Unit)
  | [] => pure (.error .notFound)
  | path :: above => do
    if path.bytes.isEmpty then
      return .ok ()
    match ← makeDir path with
    | .ok () => return .ok ()
    | .error .notFound =>
      match ← makeDirsFrom above with
      | .error e => return .error e
      | .ok () => settle path (← makeDir path)
    | .error e => settle path (.error e)
where
  /-- A directory that could not be made since it is there already is no failure. -/
  settle (path : Path) : Except OsError Unit → m (Except OsError Unit)
    | .ok () => pure (.ok ())
    | .error e => do
      if ← isDir path then pure (.ok ()) else pure (.error e)

/-- Makes a directory and every directory above it that is missing. -/
def makeDirs [MonadFiles m] (path : Path) : m (Except OsError Unit) :=
  makeDirsFrom path.ancestors

end LatencyReport
