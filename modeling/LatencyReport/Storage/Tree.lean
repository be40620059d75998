import LatencyReport.Storage.OsError
import LatencyReport.Storage.Path

/-!
# `Storage.Tree` — files and directories, and what paths mean in them

The files of a machine are a tree. A **place** in it is the list of names from the root on; a path means a place
only once it is walked, part by part, and every part but the last has to lead into a directory that exists.
There are no links, so two dots always lead to the directory whose name was walked last.

Reading never changes the tree. Writing changes it **at one place only**: the place that the path leads to.

## Contents

* `Node` — a file or a directory; `Node.find?`, `Node.put` — look-up and change at a place;
* `Storage` — a tree and the directory that relative paths start from;
* `Storage.walk`, `Storage.locate`, `Storage.locateEntry` — the place of a path;
* `Storage.read`, `Storage.list`, `Storage.isFile`, `Storage.isDir` — looking;
* `Storage.write`, `Storage.makeDir` — changing.
-/

namespace LatencyReport

/-- A file with its content, or a directory with its entries. -/
inductive Node where
  | file (content : List UInt8)
  | dir (entries : List (List UInt8 × Node))

namespace Node

/-- The entries with one of them set: in its place if the name is taken, else at the end. -/
def setEntry (name : List UInt8) (node : Node) : List (List UInt8 × Node) → List (List UInt8 × Node)
  | [] => [(name, node)]
  | (other, old) :: rest =>
    if other = name then (name, node) :: rest else (other, old) :: setEntry name node rest

/-- What stands at a place. -/
def find? : Node → List (List UInt8) → Option Node
  | node, [] => some node
  | .file _, _ :: _ => none
  | .dir entries, name :: rest =>
    match entries.lookup name with
    | some child => child.find? rest
    | none => none

/-- The tree with a node put at a place; directories on the way are made. A file on the way stays. -/
def put : Node → List (List UInt8) → Node → Node
  | _, [], new => new
  | .file content, _ :: _, _ => .file content
  | .dir entries, name :: rest, new =>
    .dir (setEntry name (((entries.lookup name).getD (.dir [])).put rest new) entries)

end Node

/-- A tree, and the place in it where relative paths start. -/
structure Storage where
  root : Node
  workingDir : List (List UInt8) := []

namespace Storage

/-- The longest name that an entry can have. -/
def maxName : Nat := 255

/-- The least length that no path may have. -/
def pathBound : Nat := 4096

/-- The place that one part of a path leads to from a place, which has to be a directory. Whether anything stands
at the new place is not asked. -/
def step (s : Storage) (place : List (List UInt8)) (part : List UInt8) : Except OsError (List (List UInt8)) :=
  match s.root.find? place with
  | none => .error .notFound
  | some (.file _) => .error .notADirectory
  | some (.dir _) =>
    if Path.isIdle part then .ok place
    else if part = Path.up then .ok place.dropLast
    else if maxName < part.length then .error .nameTooLong
    else .ok (place ++ [part])

/-- The place that parts of a path lead to, one after the other. -/
def walk (s : Storage) : List (List UInt8) → List (List UInt8) → Except OsError (List (List UInt8))
  | place, [] => .ok place
  | place, part :: rest =>
    match s.step place part with
    | .error e => .error e
    | .ok next => s.walk next rest

/-- The place where a path starts. -/
def start (s : Storage) (path : Path) : List (List UInt8) :=
  if path.isAbsolute then [] else s.workingDir

/-- A path that no walk is started for, whatever the tree is. -/
def refuse? (path : Path) : Option OsError :=
  if path.bytes.contains 0 then some .nulInPath
  else if path.bytes = [] then some .notFound
  else if pathBound ≤ path.bytes.length then some .nameTooLong
  else none

/-- The place that a path leads to. -/
def locate (s : Storage) (path : Path) : Except OsError (List (List UInt8)) :=
  match refuse? path with
  | some e => .error e
  | none => s.walk (s.start path) path.parts

/-- Where an entry is to be made: the directory, the last part of the path, and whether slashes follow it. -/
structure Entry where
  place : List (List UInt8)
  name : List UInt8
  slashed : Bool

/-- Whether the entry's name is one that a file can have. -/
def Entry.isNamed (entry : Entry) : Bool :=
  !Path.isIdle entry.name && entry.name != Path.up

/-- The entry that a path stands for. Its directory has to exist. -/
def locateEntry (s : Storage) (path : Path) : Except OsError Entry :=
  match refuse? path with
  | some e => .error e
  | none =>
    let ending := path.parts.reverse.dropWhile (· == [])
    match s.walk (s.start path) (ending.tail.reverse ++ [[]]) with
    | .error e => .error e
    | .ok place => .ok ⟨place, ending.head?.getD [], path.bytes.getLast? == some Path.slash⟩

/-- What a path leads to. -/
def node (s : Storage) (path : Path) : Except OsError Node :=
  match s.locate path with
  | .error e => .error e
  | .ok place =>
    match s.root.find? place with
    | none => .error .notFound
    | some node => .ok node

/-- The content of a file. -/
def read (s : Storage) (path : Path) : Except OsError (List UInt8) :=
  match s.node path with
  | .error e => .error e
  | .ok (.file content) => .ok content
  | .ok (.dir _) => .error .isADirectory

/-- The names in a directory. -/
def list (s : Storage) (path : Path) : Except OsError (List (List UInt8)) :=
  match s.node path with
  | .error e => .error e
  | .ok (.file _) => .error .notADirectory
  | .ok (.dir entries) => .ok (entries.map (·.1))

/-- Whether the path leads to a file. -/
def isFile (s : Storage) (path : Path) : Bool :=
  match s.node path with
  | .ok (.file _) => true
  | _ => false

/-- Whether the path leads to a directory. -/
def isDir (s : Storage) (path : Path) : Bool :=
  match s.node path with
  | .ok (.dir _) => true
  | _ => false

/-- The storage with a node put at a place. -/
def put (s : Storage) (place : List (List UInt8)) (node : Node) : Storage :=
  { s with root := s.root.put place node }

/-- The storage after a file was written, in place of one that was there. -/
def write (s : Storage) (path : Path) (content : List UInt8) : Except OsError Storage :=
  match s.locateEntry path with
  | .error e => .error e
  | .ok entry =>
    if entry.slashed || !entry.isNamed then .error .isADirectory
    else if maxName < entry.name.length then .error .nameTooLong
    else
      match s.root.find? (entry.place ++ [entry.name]) with
      | some (.dir _) => .error .isADirectory
      | _ => .ok (s.put (entry.place ++ [entry.name]) (.file content))

/-- The storage after a directory was made where nothing stood. -/
def makeDir (s : Storage) (path : Path) : Except OsError Storage :=
  match s.locateEntry path with
  | .error e => .error e
  | .ok entry =>
    if !entry.isNamed then .error .alreadyExists
    else if maxName < entry.name.length then .error .nameTooLong
    else
      match s.root.find? (entry.place ++ [entry.name]) with
      | some _ => .error .alreadyExists
      | none => .ok (s.put (entry.place ++ [entry.name]) (.dir []))

end Storage

end LatencyReport
