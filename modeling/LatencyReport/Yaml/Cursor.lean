/-!
# `Yaml.Cursor` — a place in a text

A reader of indented text has to know where it is: the column decides what a line belongs to, and a key has to end
on the line on which it starts. A **cursor** is the text that is left together with its place.

Five characters end a line. A carriage return with a line feed after it is one end, and most ends are read as a line
feed, whichever they are; the two separators of lines and paragraphs stay themselves.

## Contents

* `isBreak`, `isGap` — ends of lines, and the blanks inside them;
* `Cursor`, `Cursor.skip`, `Cursor.readBreak` — one step;
* `Cursor.skipWhile` — many steps on one line;
* `Gap`, `Cursor.readGap` — blanks and ends of lines between two words, and the text that they stand for.
-/

namespace LatencyReport.Yaml

/-- The separator of lines. -/
def lineSeparator : Char := Char.ofNat 0x2028

/-- The separator of paragraphs. -/
def paragraphSeparator : Char := Char.ofNat 0x2029

/-- The control that starts a line. -/
def nextLine : Char := Char.ofNat 0x85

/-- The mark that tells the order of bytes. -/
def byteOrderMark : Char := Char.ofNat 0xFEFF

/-- Whether a character ends a line. -/
def isBreak (c : Char) : Bool :=
  c = '\n' || c = '\r' || c = nextLine || c = lineSeparator || c = paragraphSeparator

/-- Whether a character is a blank inside a line. -/
def isGap (c : Char) : Bool :=
  c = ' ' || c = '\t'

/-- Whether a word ends before a character, or before the end of the text. -/
def endsWord : Option Char → Bool
  | none => true
  | some c => isGap c || isBreak c

/-- Whether a line ends before a character, or before the end of the text. -/
def endsLine : Option Char → Bool
  | none => true
  | some c => isBreak c

/-- The text that is left, and its place. -/
structure Cursor where
  rest : List Char
  index : Nat := 0
  line : Nat := 0
  column : Nat := 0

namespace Cursor

/-- The next character. -/
def peek (c : Cursor) : Option Char :=
  c.rest.head?

/-- The character after the next `n`. -/
def peekAt (c : Cursor) (n : Nat) : Option Char :=
  c.rest[n]?

/-- The cursor after `n` characters of a line. -/
def skip (c : Cursor) (n : Nat := 1) : Cursor :=
  { c with rest := c.rest.drop n, index := c.index + n, column := c.column + n }

/-- The cursor after the characters of a line that satisfy a test. -/
def skipWhile (c : Cursor) (test : Char → Bool) : Cursor :=
  c.skip (c.rest.takeWhile test).length

/-- The cursor at the start of a line, after an end of line of `n` characters. -/
def nextLineAfter (c : Cursor) (n : Nat) : Cursor where
  rest := c.rest.drop n
  index := c.index + n
  line := c.line + 1
  column := 0

/-- What the end of a line is read as, and the cursor after it. Where no line ends, nothing is read. -/
def readBreak (c : Cursor) : List Char × Cursor :=
  match c.rest with
  | '\r' :: '\n' :: _ => (['\n'], c.nextLineAfter 2)
  | b :: _ =>
    if b = lineSeparator || b = paragraphSeparator then ([b], c.nextLineAfter 1)
    else if isBreak b then (['\n'], c.nextLineAfter 1)
    else ([], c)
  | [] => ([], c)

/-- The cursor at the end of a comment, if one starts here. -/
def skipComment (c : Cursor) : Cursor :=
  if c.peek = some '#' then c.skipWhile fun b => !isBreak b else c

/-- Whether a line consists of a mark of three equal characters that separates documents. -/
def atMark (c : Cursor) (mark : Char) : Bool :=
  c.column = 0 && c.rest.take 3 == [mark, mark, mark] && endsWord (c.peekAt 3)

/-- Whether a mark between documents stands here. -/
def atDocumentMark (c : Cursor) : Bool :=
  c.atMark '-' || c.atMark '.'

end Cursor

/-- What stands between two words: blanks on one line, or ends of lines with blanks around them. -/
structure Gap where
  blanks : List Char := []
  /-- What the first end of a line is read as. -/
  first : List Char := []
  /-- What the other ends of lines are read as. -/
  more : List Char := []
  broken : Bool := false

/-- The text that a gap stands for. One end of a line is a space; of several ends the first is dropped. -/
def Gap.text (g : Gap) : List Char :=
  if g.broken then
    if g.first = ['\n'] then (if g.more.isEmpty then [' '] else g.more) else g.first ++ g.more
  else
    g.blanks

/-- The gap with what stands before the next word. In a column before `limit` no tab may stand at the start of a
line. -/
def Cursor.readGapFrom (limit : Nat) : (fuel : Nat) → Gap → Cursor → Option (Gap × Cursor)
  | 0, g, c => some (g, c)
  | fuel + 1, g, c =>
    match c.peek with
    | none => some (g, c)
    | some b =>
      if isGap b then
        if g.broken && b = '\t' && c.column < limit then none
        else readGapFrom limit fuel (if g.broken then g else { g with blanks := g.blanks ++ [b] }) c.skip
      else if isBreak b then
        let (read, next) := c.readBreak
        let wider := if g.broken then { g with more := g.more ++ read } else { first := read, broken := true }
        readGapFrom limit fuel wider next
      else
        some (g, c)

/-- The gap with what stands before the next word. -/
def Cursor.readGap (limit : Nat) (g : Gap) (c : Cursor) : Option (Gap × Cursor) :=
  c.readGapFrom limit (c.rest.length + 1) g

end LatencyReport.Yaml
