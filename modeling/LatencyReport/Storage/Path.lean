import LatencyReport.Text.Utf8

/-!
# `Storage.Path` — names of files and directories

A path is a sequence of **bytes**, as the operating system takes it: any byte may stand in it, and only the
slash has a meaning. It is cut at its slashes into parts; an empty part and a single dot say nothing, and two
dots lead up. A path that is shown may hold bytes that are no text; each of them is shown by a replacement
character.

## Contents

* `Path.ofString`, `Path.display` — from text and to text;
* `Path.join` — a path inside a directory;
* `Path.parts` — what stands between the slashes;
* `Path.fileName?`, `Path.parent?`, `Path.ancestors` — the last name, and the directories that hold it.
-/

namespace LatencyReport

/-- The path of a file or a directory. -/
structure Path where
  bytes : List UInt8
deriving DecidableEq, Repr

namespace Path

/-- The byte that separates the parts of a path. -/
def slash : UInt8 := 0x2F

/-- The byte that, alone, stands for the directory itself. -/
def dot : UInt8 := 0x2E

/-- The path that a text names. -/
def ofString (s : String) : Path :=
  ⟨Utf8.encode s.toList⟩

/-- The path as text. -/
def display (p : Path) : String :=
  String.ofList (Utf8.lossy p.bytes)

/-- Whether the path starts at the root. -/
def isAbsolute (p : Path) : Bool :=
  p.bytes.head? == some slash

/-- The path `name` as seen from the directory `dir`. An absolute one is seen the same from everywhere. -/
def join (dir name : Path) : Path :=
  if name.isAbsolute || dir.bytes.isEmpty then name
  else if dir.bytes.getLast? == some slash then ⟨dir.bytes ++ name.bytes⟩
  else ⟨dir.bytes ++ slash :: name.bytes⟩

/-- What stands between the slashes, the empty parts included. -/
def parts (p : Path) : List (List UInt8) :=
  Text.splitWith (· == slash) p.bytes

/-- A part that leads nowhere. -/
def isIdle (part : List UInt8) : Bool :=
  part == [] || part == [dot]

/-- The part that leads to the directory above. -/
def up : List UInt8 := [dot, dot]

/-- The last name of the path, if it ends in a name. -/
def fileName? (p : Path) : Option (List UInt8) :=
  match p.parts.reverse.dropWhile isIdle with
  | [] => none
  | last :: _ => if last = up then none else some last

/-- The bytes of a path, last byte first, without the slashes and the idle dots at its end. The slash of the
root stays. -/
def withoutIdleEnd : List UInt8 → List UInt8
  | [] => []
  | b :: rest =>
    if b = slash then
      if rest = [] then [b] else withoutIdleEnd rest
    else if b = dot && rest.head? == some slash then
      withoutIdleEnd rest
    else
      b :: rest

/-- The path of the directory that holds the last part. The root and the empty path have none. -/
def parent? (p : Path) : Option Path :=
  let backwards := withoutIdleEnd p.bytes.reverse
  if backwards = [] || backwards = [slash] then
    none
  else
    match backwards.dropWhile (· != slash) with
    | [] => some ⟨[]⟩
    | above => some ⟨(withoutIdleEnd above).reverse⟩

/-- The path and the directories above it, at most `depth` of them. -/
def ancestorsWithin : (depth : Nat) → Path → List Path
  | 0, p => [p]
  | depth + 1, p =>
    match p.parent? with
    | none => [p]
    | some above => p :: ancestorsWithin depth above

/-- The path and every directory above it. Each of them is shorter than the one before. -/
def ancestors (p : Path) : List Path :=
  ancestorsWithin p.bytes.length p

end Path

end LatencyReport
