import LatencyReport.Json
import LatencyReport.Text.Lowercase
import LatencyReport.Yaml.Lexeme

/-!
# `Yaml.Writer` — data as indented text

A record has a line for every member, a list a line for every item after a dash; what belongs to a member stands two
columns further in, but the dashes of a list stand **in the column of the member that holds it**.

A text is written plain where that reads back as the same text. A text that some reader could take for a number, a
truth value or nothing at all stands between single quotation marks; so does one that a sign of structure or a blank
at its end would spoil. One with several lines is a block. What a reader would not take as it is, above all a control
character, is escaped between double quotation marks.

## Contents

* `isAmbiguous`, `hasMark`, `hasPair` — what stands in the way of a way to write; `styleOf` — the way that is chosen;
* `scalarText` — a text;
* `Json.toYaml` — data.
-/

namespace LatencyReport.Yaml

/-! ## Choosing a style -/

/-- The words, in lower case, that some reader takes for something else than a text. -/
def ambiguousWords : List String :=
  ["", "true", "false", "null", "nil", "~", "nan", "y", "yes", "n", "no", "on", "off"]

/-- Whether some reader could take the text for something else. -/
def isAmbiguous (s : List Char) : Bool :=
  ambiguousWords.contains (String.ofList (Text.lowercase s)) ||
    s.head?.any fun c => ('0' ≤ c && c ≤ '9') || c = '-' || c = '+' || c = '.'

/-- Whether a character can be written as it is. Ends of lines can, but for the carriage return and the control. -/
def isWritable (c : Char) : Bool :=
  let code := c.toNat
  c = '\n' || (0x20 ≤ code && code ≤ 0x7E) || (0xA0 ≤ code && code ≤ 0xFFFD && code != 0xFEFF) || 0x10000 ≤ code

/-- The signs that a plain text cannot start with. -/
def startMarks : List Char :=
  [',', '[', ']', '\x7b', '\x7d', '#', '&', '*', '!', '|', '>', '\x27', '\x22', '%', '@', '\x60']

/-- Whether a sign of structure stands in a text after the character `before`. -/
def hasMark : (before : Option Char) → List Char → Bool
  | _, [] => false
  | before, c :: rest =>
    let spaced := endsWord rest.head?
    (match before with
      | none => startMarks.contains c || ((c = '?' || c = ':' || c = '-') && spaced)
      | some b => (c = ':' && spaced) || (c = '#' && endsWord (some b))) ||
      hasMark (some c) rest

/-- Whether a text starts with a mark between documents. -/
def startsWithDocumentMark (s : List Char) : Bool :=
  s.take 3 == ['-', '-', '-'] || s.take 3 == ['.', '.', '.']

/-- Whether two characters in a row satisfy two tests. -/
def hasPair (first second : Char → Bool) : List Char → Bool
  | a :: b :: rest => (first a && second b) || hasPair first second (b :: rest)
  | _ => false

/-- The style in which a text is written, if it is free to choose or asked to be a block or quoted. -/
def styleOf (s : List Char) : Style :=
  let isSpace : Char → Bool := (· == ' ')
  let spoiled := !s.all isWritable || hasPair isSpace isBreak s
  let edge : Char → Bool := fun c => isSpace c || isBreak c
  let quotable := !spoiled && !hasPair isBreak isSpace s
  let quotedStyle : Style := if quotable then .singleQuoted else .doubleQuoted
  if s.contains '\n' then
    if spoiled || s.getLast?.any isSpace then .doubleQuoted else .literal
  else if isAmbiguous s || !quotable || s.any isBreak || s.head?.any edge || s.getLast?.any edge || hasMark none s ||
      startsWithDocumentMark s then quotedStyle
  else .plain

/-! ## Texts -/

/-- A run of spaces. -/
def spaces (n : Nat) : List Char :=
  List.replicate n ' '

/-- A number as hexadecimal digits, at least `width` of them. -/
def hexDigits (width n : Nat) : List Char :=
  let digits := (Nat.toDigits 16 n).map Char.toUpper
  List.replicate (width - digits.length) '0' ++ digits

/-- A character after a backslash. -/
def escapeChar (c : Char) : List Char :=
  '\\' :: match c with
    | '\x00' => ['0']
    | '\x07' => ['a']
    | '\x08' => ['b']
    | '\t' => ['t']
    | '\n' => ['n']
    | '\x0b' => ['v']
    | '\x0c' => ['f']
    | '\r' => ['r']
    | '\x1b' => ['e']
    | '\x22' => ['\x22']
    | '\\' => ['\\']
    | c =>
      if c = nextLine then ['N']
      else if c = lineSeparator then ['L']
      else if c = paragraphSeparator then ['P']
      else if c.toNat ≤ 0xFF then 'x' :: hexDigits 2 c.toNat
      else if c.toNat ≤ 0xFFFF then 'u' :: hexDigits 4 c.toNat
      else 'U' :: hexDigits 8 c.toNat

/-- A text between double quotation marks. -/
def doubleQuoted (s : List Char) : List Char :=
  '\x22' :: s.flatMap (fun c => if !isWritable c || isBreak c || c = '\x22' || c = '\\' then escapeChar c else [c]) ++ ['\x22']

/-- The characters of a text between single quotation marks; `afterBreak` says that a line was ended before. -/
def singleQuotedFrom (indent : Nat) : (afterBreak : Bool) → List Char → List Char
  | afterBreak, [] => if afterBreak then spaces indent else []
  | afterBreak, c :: rest =>
    if isBreak c then
      c :: singleQuotedFrom indent true rest
    else
      (if afterBreak then spaces indent else []) ++ (if c = '\x27' then ['\x27', c] else [c]) ++
        singleQuotedFrom indent false rest

/-- A text between single quotation marks, where a mark inside is written twice. -/
def singleQuoted (indent : Nat) (s : List Char) : List Char :=
  '\x27' :: singleQuotedFrom indent false s ++ ['\x27']

/-- What stands after the mark of a block: the indentation, if the text does not show it, and what becomes of the ends
of lines at its end. -/
def blockHead (s : List Char) : List Char :=
  (if s.head?.any fun c => c = ' ' || isBreak c then ['2'] else []) ++
    match s.reverse with
    | last :: others =>
      if !isBreak last then ['-']
      else
        match others with
        | [] => ['+']
        | c :: _ => if isBreak c then ['+'] else []
    | [] => ['-']

/-- The lines of a block; `atStart` says that a line starts here. -/
def blockLines (indent : Nat) : (atStart : Bool) → List Char → List Char
  | atStart, [] => if atStart then [] else ['\n']
  | atStart, c :: rest =>
    if isBreak c then c :: blockLines indent true rest
    else (if atStart then spaces indent else []) ++ c :: blockLines indent false rest

/-- A text with the end of its line, after the sign that it belongs to. Further lines are indented. -/
def scalarText (indent : Nat) (text : String) : List Char :=
  let s := text.toList
  match styleOf s with
  | .plain | .folded => s ++ ['\n']
  | .singleQuoted => singleQuoted indent s ++ ['\n']
  | .doubleQuoted => doubleQuoted s ++ ['\n']
  | .literal => '|' :: blockHead s ++ '\n' :: blockLines indent true s

/-! ## Data -/

mutual

/-- A value after the name of a member that stands in a column. -/
def memberValue (column : Nat) : Json → List Char
  | .arr (item :: items) => '\n' :: sequence column (item :: items)
  | .obj (member :: members) => '\n' :: spaces (column + 2) ++ mapping (column + 2) (member :: members)
  | value => ' ' :: leaf (column + 2) value

/-- A value after a dash that stands in a column. -/
def itemValue (column : Nat) : Json → List Char
  | .arr (item :: items) => '-' :: ' ' :: itemValue (column + 2) item ++ sequence (column + 2) items
  | .obj (member :: members) => mapping (column + 2) (member :: members)
  | value => leaf (column + 2) value

/-- The items of a list whose dashes stand in a column. -/
def sequence (column : Nat) : List Json → List Char
  | [] => []
  | item :: items => spaces column ++ '-' :: ' ' :: itemValue column item ++ sequence column items

/-- The members of a record in a column; the first one starts here. -/
def mapping (column : Nat) : List (String × Json) → List Char
  | [] => []
  | (name, value) :: members => name.toList ++ ':' :: memberValue column value ++ furtherMembers column members

/-- The members of a record in a column after the first. -/
def furtherMembers (column : Nat) : List (String × Json) → List Char
  | [] => []
  | (name, value) :: members =>
    spaces column ++ name.toList ++ ':' :: memberValue column value ++ furtherMembers column members

/-- A value without parts of its own, with the end of its line. -/
def leaf (indent : Nat) : Json → List Char
  | .null => "null\n".toList
  | .bool true => "true\n".toList
  | .bool false => "false\n".toList
  | .int n => (toString n).toList ++ ['\n']
  | .float x => Decimal.Layout.table.number x ++ ['\n']
  | .str s => scalarText indent s
  | .arr _ => "[]\n".toList
  | .obj _ => ['\x7b', '\x7d', '\n']

end

end LatencyReport.Yaml

namespace LatencyReport

/-- Data as indented text. -/
def Json.toYaml (value : Json) : String :=
  String.ofList <|
    match value with
    | .arr (item :: items) => Yaml.sequence 0 (item :: items)
    | .obj (member :: members) => Yaml.mapping 0 (member :: members)
    | value => Yaml.leaf 2 value

end LatencyReport
