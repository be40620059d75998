import LatencyReport.Json.Reader
import LatencyReport.Yaml.Cursor

/-!
# `Yaml.Lexeme` — the scalars of a text

A scalar is written in one of five ways: plain, in single or in double quotation marks, or as an indented block whose
lines are kept or folded. Each way has a reader that starts at the scalar's first character and stops **after the
last character that belongs to it**.

## Contents

* `Style` — the ways to write a scalar;
* `Cursor.readPlain`, `Cursor.readQuoted`, `Cursor.readBlock` — their readers.
-/

namespace LatencyReport.Yaml

/-- How a scalar is written. -/
inductive Style where
  | plain
  | singleQuoted
  | doubleQuoted
  | literal
  | folded
deriving DecidableEq, Repr

/-! ## Plain scalars -/

/-- The characters that structure a flow collection. -/
def isFlowMark (c : Char) : Bool :=
  c = ',' || c = '[' || c = ']' || c = '\x7b' || c = '\x7d'

/-- Whether a plain scalar ends before a colon or a mark of the collection that holds it. -/
def endsPlain (inFlow : Bool) (c : Cursor) : Bool :=
  match c.peek with
  | none => true
  | some b => (b = ':' && endsWord (c.peekAt 1)) || (inFlow && isFlowMark b)

/-- Whether a colon stands here that could belong to the scalar or to the collection. -/
def isUnclearColon (inFlow : Bool) (c : Cursor) : Bool :=
  inFlow && c.peek = some ':' &&
    match c.peekAt 1 with
    | none => false
    | some b => isFlowMark b || b = '?'

/-- The rest of a plain scalar after `text`, the last character first, and the gap that was read since. Also told is
whether the reader stopped on a new line. -/
def Cursor.readPlainFrom (inFlow : Bool) (indent : Nat) :
    (fuel : Nat) → (text : List Char) → Gap → Cursor → Option (List Char × Bool × Cursor)
  | 0, _, _, _ => none
  | fuel + 1, text, gap, c =>
    if endsWord c.peek then
      if c.rest.isEmpty then
        some (text.reverse, gap.broken, c)
      else
        match c.readGap indent {} with
        | none => none
        | some (wider, next) =>
          if (!inFlow && next.column < indent) || next.atDocumentMark || next.peek = some '#' then
            some (text.reverse, wider.broken, next)
          else
            readPlainFrom inFlow indent fuel text wider next
    else if isUnclearColon inFlow c then
      none
    else if endsPlain inFlow c then
      some (text.reverse, gap.broken, c)
    else
      match c.peek with
      | none => none
      | some b => readPlainFrom inFlow indent fuel (b :: (gap.text.reverse ++ text)) {} c.skip

/-- A plain scalar, whose lines after the first start at column `indent` or later unless it stands in a flow
collection. -/
def Cursor.readPlain (inFlow : Bool) (indent : Nat) (c : Cursor) : Option (List Char × Bool × Cursor) :=
  c.readPlainFrom inFlow indent (2 * c.rest.length + 2) [] {}

/-! ## Quoted scalars -/

/-- The character of a letter after a backslash. -/
def escaped? (c : Char) : Option Char :=
  match c with
  | '0' => some '\x00'
  | 'a' => some '\x07'
  | 'b' => some '\x08'
  | 't' | '\t' => some '\t'
  | 'n' => some '\n'
  | 'v' => some '\x0b'
  | 'f' => some '\x0c'
  | 'r' => some '\r'
  | 'e' => some '\x1b'
  | ' ' => some ' '
  | '\x22' => some '\x22'
  | '/' => some '/'
  | '\\' => some '\\'
  | 'N' => some nextLine
  | '_' => some (Char.ofNat 0xA0)
  | 'L' => some lineSeparator
  | 'P' => some paragraphSeparator
  | _ => none

/-- How many hexadecimal digits follow a letter after a backslash. -/
def codeLength? (c : Char) : Option Nat :=
  match c with
  | 'x' => some 2
  | 'u' => some 4
  | 'U' => some 8
  | _ => none

/-- The character with the code that hexadecimal digits give. -/
def ofHex? (digits : List Char) : Option Char :=
  match digits.mapM Json.hexValue? with
  | none => none
  | some values =>
    let code := values.foldl (fun n d => 16 * n + d) 0
    if (0xD800 ≤ code && code < 0xE000) || 0x10FFFF < code then none else some (Char.ofNat code)

/-- The character that a backslash starts, and the cursor after it. -/
def Cursor.readEscape (c : Cursor) : Option (Char × Cursor) :=
  match c.peekAt 1 with
  | none => none
  | some b =>
    match codeLength? b with
    | some n =>
      let digits := (c.rest.drop 2).take n
      if digits.length < n then none else (ofHex? digits).map (·, c.skip (2 + n))
    | none => (escaped? b).map (·, c.skip 2)

/-- The rest of a quoted scalar after `text`, the last character first. -/
def Cursor.readQuotedFrom (single : Bool) : (fuel : Nat) → (text : List Char) → Cursor → Option (List Char × Cursor)
  | 0, _, _ => none
  | fuel + 1, text, c =>
    let quote := if single then '\x27' else '\x22'
    match c.peek with
    | none => none
    | some b =>
      if c.atDocumentMark then
        none
      else if single && b = quote && c.peekAt 1 = some quote then
        readQuotedFrom single fuel (quote :: text) (c.skip 2)
      else if b = quote then
        some (text.reverse, c.skip)
      else if !single && b = '\\' then
        if (c.peekAt 1).any isBreak then
          match c.skip.readBreak.2.readGap 0 { broken := true } with
          | none => none
          | some (gap, next) => readQuotedFrom single fuel (gap.text.reverse ++ text) next
        else
          match c.readEscape with
          | none => none
          | some (character, next) => readQuotedFrom single fuel (character :: text) next
      else if isGap b || isBreak b then
        match c.readGap 0 {} with
        | none => none
        | some (gap, next) => readQuotedFrom single fuel (gap.text.reverse ++ text) next
      else
        readQuotedFrom single fuel (b :: text) c.skip

/-- A quoted scalar, from its first quotation mark on. -/
def Cursor.readQuoted (single : Bool) (c : Cursor) : Option (List Char × Cursor) :=
  c.skip.readQuotedFrom single (c.rest.length + 1) []

/-! ## Block scalars -/

/-- What is done with the ends of lines after a block. -/
inductive Chomping where
  | strip
  | clip
  | keep
deriving DecidableEq, Repr

/-- The chomping that a character asks for. -/
def Chomping.ofChar? : Option Char → Option Chomping
  | some '+' => some .keep
  | some '-' => some .strip
  | _ => none

/-- The digit of an indentation that is asked for: none, or a digit that is not zero. -/
def Cursor.readIndicator (c : Cursor) : Option (Nat × Cursor) :=
  match c.peek with
  | some b =>
    if b = '0' then none
    else if '1' ≤ b && b ≤ '9' then some (b.toNat - '0'.toNat, c.skip)
    else some (0, c)
  | none => some (0, c)

/-- The chomping and the indentation that the head of a block asks for, in either order. -/
def Cursor.readBlockHead (c : Cursor) : Option (Chomping × Nat × Cursor) :=
  match Chomping.ofChar? c.peek with
  | some chomping => c.skip.readIndicator.map fun (increment, next) => (chomping, increment, next)
  | none =>
    match c.readIndicator with
    | none => none
    | some (0, next) => some (.clip, 0, next)
    | some (increment, next) =>
      match Chomping.ofChar? next.peek with
      | some chomping => some (chomping, increment, next.skip)
      | none => some (.clip, increment, next)

/-- The ends of lines before the next line of a block, and the column of that line: `indent`, or the widest column
reached if it is not known yet. -/
def Cursor.readBlockBreaksFrom (indent : Nat) :
    (fuel : Nat) → (breaks : List Char) → (widest : Nat) → Cursor → Option (List Char × Nat × Cursor)
  | 0, _, _, _ => none
  | fuel + 1, breaks, widest, c =>
    let spaces := (c.rest.takeWhile (· == ' ')).length
    let c := c.skip (if indent = 0 then spaces else min spaces (indent - c.column))
    let widest := max widest c.column
    if (indent = 0 || c.column < indent) && c.peek = some '\t' then
      none
    else if !c.rest.isEmpty && endsLine c.peek then
      let (read, next) := c.readBreak
      readBlockBreaksFrom indent fuel (breaks ++ read) widest next
    else
      some (breaks, widest, c)

/-- The ends of lines before the next line of a block, and the column where its lines start. -/
def Cursor.readBlockBreaks (indent least : Nat) (c : Cursor) : Option (List Char × Nat × Cursor) :=
  match c.readBlockBreaksFrom indent (c.rest.length + 1) [] 0 with
  | none => none
  | some (breaks, widest, next) => some (breaks, if indent = 0 then max widest least else indent, next)

/-- The lines of a block after `text`. `lead` is the end of the line before, `breaks` the ends of the empty lines after
it, `blankBefore` whether the line before started with a blank. -/
def Cursor.readBlockLines (folded : Bool) (chomping : Chomping) (indent : Nat) :
    (fuel : Nat) → (text lead breaks : List Char) → (blankBefore : Bool) → Cursor → Option (List Char × Cursor)
  | 0, _, _, _, _, _ => none
  | fuel + 1, text, lead, breaks, blankBefore, c =>
    if c.column = indent && !c.rest.isEmpty then
      let blank := c.peek.any isGap
      let joined :=
        if folded && lead = ['\n'] && !blankBefore && !blank then (if breaks.isEmpty then [' '] else []) else lead
      let line := c.rest.takeWhile fun b => !isBreak b
      let (read, next) := (c.skip line.length).readBreak
      match next.readBlockBreaks indent 0 with
      | none => none
      | some (more, _, following) =>
        readBlockLines folded chomping indent fuel (text ++ joined ++ breaks ++ line) read more blank following
    else
      match chomping with
      | .strip => some (text, c)
      | .clip => some (text ++ lead, c)
      | .keep => some (text ++ lead ++ breaks, c)

/-- A block scalar, from its mark on, inside a block whose column is one less than `least`. -/
def Cursor.readBlock (folded : Bool) (least : Nat) (c : Cursor) : Option (List Char × Cursor) :=
  match c.skip.readBlockHead with
  | none => none
  | some (chomping, increment, c) =>
    let c := (c.skipWhile isGap).skipComment
    if !endsLine c.peek then
      none
    else
      let indent := if increment = 0 then 0 else least - 1 + increment
      match c.readBreak.2.readBlockBreaks indent (max least 1) with
      | none => none
      | some (breaks, indent, next) =>
        next.readBlockLines folded chomping indent (c.rest.length + 1) [] [] breaks false

end LatencyReport.Yaml
