import LatencyReport.Decimal.Reader
import LatencyReport.FileError
import LatencyReport.Text.Blank

/-!
# `Records` — the table in a results file

A results file is a header line and rows of numbers. Lines end at a line feed or a carriage return; empty ones
do not count. The header decides how a line is cut into cells: **at its tabs if it has one**, else at runs of
white space. A row that does not match the header is left out, and only that row: whatever stands in a line
never reaches the next one, since cutting into lines comes first and knows of nothing but line ends.

The decision between tabs and white space looks at the first line with a visible byte, where lines end at line
feeds alone.

## Contents

* `Line`, `linesOf` — the lines that are not empty, numbered;
* `Delimiter`, `Delimiter.ofData?` — how a line is cut into cells; `Line.cells`;
* `RowFault`, `SkippedRow` — why a row is left out;
* `Records` — columns and rows; `columnIndex?`, `get?` and `samples?` look them up;
* `Reading`, `Records.parse` — the table of a content, and what was left out of it.
-/

namespace LatencyReport

/-! ## Lines -/

/-- A line without its end, and the number by which messages call it. -/
structure Line where
  number : Nat
  bytes : List UInt8
deriving DecidableEq, Repr

/-- The byte at which a line ends. -/
def lineFeed : UInt8 := 0x0A

/-- The byte at which a line ends as well. -/
def carriageReturn : UInt8 := 0x0D

/-- The byte between two cells. -/
def tab : UInt8 := 0x09

/-- The lines of a content that are not empty, after `taken` of the current one, the last byte first.
`feeds` is one more than the line feeds passed. A line is called by the value that `feeds` had when the line
before it ended, so empty lines count for the line after the next. -/
def linesFrom (feeds number : Nat) (taken : List UInt8) : List UInt8 → List Line
  | [] => if taken.isEmpty then [] else [⟨number, taken.reverse⟩]
  | b :: rest =>
    if b = lineFeed then
      if taken.isEmpty then linesFrom (feeds + 1) number [] rest
      else ⟨number, taken.reverse⟩ :: linesFrom (feeds + 1) (feeds + 1) [] rest
    else if b = carriageReturn then
      if taken.isEmpty then linesFrom feeds number [] rest
      else ⟨number, taken.reverse⟩ :: linesFrom feeds feeds [] rest
    else
      linesFrom feeds number (b :: taken) rest

/-- The content without the byte order mark at its start. -/
def withoutMark : List UInt8 → List UInt8
  | 0xEF :: 0xBB :: 0xBF :: rest => rest
  | bytes => bytes

/-- The lines of a content that are not empty. -/
def linesOf (data : List UInt8) : List Line :=
  linesFrom 1 1 [] (withoutMark data)

/-! ## Cells -/

/-- What separates the cells of a line. -/
inductive Delimiter where
  | tab
  | blanks
deriving DecidableEq, Repr

/-- The delimiter of a content, unless all of it is white space. -/
def Delimiter.ofData? (data : List UInt8) : Option Delimiter :=
  match (Text.splitWith (· == lineFeed) data).find? fun line => !line.all Text.isBlankByte with
  | none => none
  | some line => some (if line.contains LatencyReport.tab then .tab else .blanks)

/-- Why a row is left out. -/
inductive RowFault where
  | notUtf8 (field offset : Nat)
  | cellCount (expected found : Nat)
  | notADuration (cell column : String)
deriving DecidableEq, Repr

/-- What is said of the fault. -/
def RowFault.message : RowFault → String
  | .notUtf8 field offset =>
    "not valid UTF-8: invalid utf-8: invalid UTF-8 in field " ++ toString field ++ " near byte index " ++ toString offset
  | .cellCount expected found => "expected " ++ toString expected ++ " fields, found " ++ toString found
  | .notADuration cell column => "\x60" ++ cell ++ "\x60 is not a duration in column \x60" ++ column ++ "\x60"

/-- A row that was left out: the number of its line, and why. -/
structure SkippedRow where
  line : Nat
  fault : RowFault
deriving DecidableEq, Repr

/-- The texts of fields, the first of which has the index `index`. -/
def decodeFields (index : Nat) : List (List UInt8) → Except RowFault (List (List Char))
  | [] => .ok []
  | field :: rest =>
    match Utf8.decode field with
    | .error offset => .error (.notUtf8 index offset)
    | .ok text => (decodeFields (index + 1) rest).map (text :: ·)

/-- The texts between the tabs of a line. -/
def Line.fields (line : Line) : Except RowFault (List (List Char)) :=
  decodeFields 0 ((Text.splitWith (· == tab) line.bytes).map Text.trimBytes)

/-- The cells that the texts between tabs make up. There are none if nothing visible stands in the line. -/
def Delimiter.cellsOf : Delimiter → List (List Char) → List (List Char)
  | .tab, fields => if fields.all (·.isEmpty) then [] else fields
  | .blanks, fields => fields.flatMap Text.words

/-- The cells of a line. -/
def Line.cells (delimiter : Delimiter) (line : Line) : Except RowFault (List (List Char)) :=
  line.fields.map delimiter.cellsOf

/-! ## Rows -/

/-- The duration that a cell says: a number that is finite and not negative. -/
def duration? (cell : List Char) : Option Float :=
  match Decimal.readNumeral? cell with
  | none => none
  | some numeral =>
    let x := numeral.toFloat
    if x.isFinite && 0 ≤ x then some x else none

/-- The durations of the cells under their columns, or the first cell that is none. -/
def durations : List String → List (List Char) → Except RowFault (List Float)
  | column :: columns, cell :: cells =>
    match duration? cell with
    | none => .error (.notADuration (String.ofList cell) column)
    | some x => (durations columns cells).map (x :: ·)
  | _, _ => .ok []

/-- The row that the cells of a line are under the columns. -/
def rowOfCells (columns : List String) (cells : List (List Char)) : Except RowFault (List Float) :=
  if cells.length = columns.length then durations columns cells
  else .error (.cellCount columns.length cells.length)

/-- What a line is to the table: nothing, a row, or a row that is left out. -/
def Line.row (delimiter : Delimiter) (columns : List String) (line : Line) : Except RowFault (Option (List Float)) :=
  match line.cells delimiter with
  | .error fault => .error fault
  | .ok [] => .ok none
  | .ok cells => (rowOfCells columns cells).map some

/-! ## Tables -/

/-- The table of a results file, in the units in which it was written. -/
structure Records where
  path : Path
  columns : List String
  rows : List (List Float)

namespace Records

/-- The first place of a column. -/
def columnIndex? (r : Records) (column : String) : Option Nat :=
  r.columns.findIdx? (· == column)

/-- The value of a row in a column. -/
def get? (r : Records) (row : Nat) (column : String) : Option Float :=
  match r.columnIndex? column, r.rows[row]? with
  | some i, some values => values[i]?
  | _, _ => none

/-- All values of a column, one for every row. -/
def samples? (r : Records) (column : String) : Option (List Float) :=
  match r.columnIndex? column with
  | none => none
  | some i => r.rows.mapM (·[i]?)

/-- What the lines after the header give: the rows that are left out, and the rows. -/
def readRows (delimiter : Delimiter) (columns : List String) : List Line → List SkippedRow × List (List Float)
  | [] => ([], [])
  | line :: rest =>
    let (skipped, rows) := readRows delimiter columns rest
    match line.row delimiter columns with
    | .error fault => (⟨line.number, fault⟩ :: skipped, rows)
    | .ok none => (skipped, rows)
    | .ok (some row) => (skipped, row :: rows)

/-- The rows that are left out before the header; and the header's cells with the lines after it, if there is a
header. -/
def readHeader (delimiter : Delimiter) : List Line → List SkippedRow × Option (List (List Char) × List Line)
  | [] => ([], none)
  | line :: rest =>
    match line.cells delimiter with
    | .error fault =>
      let (skipped, header) := readHeader delimiter rest
      (⟨line.number, fault⟩ :: skipped, header)
    | .ok [] => readHeader delimiter rest
    | .ok cells => ([], some (cells, rest))

end Records

/-- What reading a content gives: the rows that are left out, in order, and the table if there is a header. -/
structure Reading where
  skipped : List SkippedRow
  records? : Option Records

/-- The table in the content of a file. -/
def Records.parse (path : Path) (data : List UInt8) : Reading :=
  match Delimiter.ofData? data with
  | none => ⟨[], none⟩
  | some delimiter =>
    match readHeader delimiter (linesOf data) with
    | (skipped, none) => ⟨skipped, none⟩
    | (skipped, some (cells, lines)) =>
      let columns := cells.map String.ofList
      let (more, rows) := readRows delimiter columns lines
      ⟨skipped ++ more, some ⟨path, columns, rows⟩⟩

end LatencyReport
