import LatencyReport.Text.Utf8
import LatencyReport.Yaml.Lexeme

/-!
# `Yaml.Token` — the signs that structure a text

The structure of a text is told by indentation and by signs. Reading turns both into one sequence of **tokens**, in
which a column that grows or shrinks has a token of its own, so that what comes after need not count columns.

A key is known only by the colon after it. Whatever could be a key is therefore remembered with its place in the
sequence, and when the colon comes the tokens that open a mapping and announce a key are put **in at that place**. A
key that was remembered is forgotten at the end of its line, and after 1024 characters.

## Contents

* `Token`;
* `Scanner` — what was read, where the reader is, the open indentations and the keys that are possible;
* `Scanner.step` — one more sign;
* `Token.scan` — all tokens of a text.
-/

namespace LatencyReport.Yaml

/-- A sign of structure, or a scalar. -/
inductive Token where
  | streamEnd
  | version (major minor : Nat)
  | tagDirective (handle : String) (meaning : String)
  | documentStart
  | documentEnd
  | blockSequenceStart
  | blockMappingStart
  | blockEnd
  | flowSequenceStart
  | flowSequenceEnd
  | flowMappingStart
  | flowMappingEnd
  | blockEntry
  | flowEntry
  | key
  | value
  | anchor (name : String)
  | reference (name : String)
  | tag (handle : String) (suffix : String)
  | scalar (style : Style) (text : String)
deriving DecidableEq, Repr

/-- Something that could be a key, by its place in the text and among the tokens. -/
structure PossibleKey where
  /-- The text is wrong unless it is a key. -/
  required : Bool
  position : Nat
  index : Nat
  line : Nat
  column : Nat

/-- What was read, and what is open. -/
structure Scanner where
  cursor : Cursor
  tokens : Array Token := #[]
  /-- The column of the innermost block, one more than it; zero outside of all blocks. -/
  indent : Nat := 0
  /-- The same of the blocks around it. -/
  indents : List Nat := []
  keyAllowed : Bool := true
  /-- What could be a key, for the innermost flow collection and for everything around it. -/
  keys : List (Option PossibleKey) := [none]

namespace Scanner

/-- Whether the reader is inside a flow collection. -/
def inFlow (s : Scanner) : Bool :=
  s.keys.length > 1

/-- The scanner with one more token. -/
def push (s : Scanner) (t : Token) : Scanner :=
  { s with tokens := s.tokens.push t }

/-- The scanner with a token put in at a place. -/
def insert (s : Scanner) (position : Nat) (t : Token) : Scanner :=
  { s with tokens := (s.tokens.toList.insertIdx position t).toArray }

/-- The scanner after a sign of `n` characters. -/
def pushSkip (s : Scanner) (t : Token) (n : Nat := 1) : Scanner :=
  { s.push t with cursor := s.cursor.skip n }

/-! ## Indentation -/

/-- The scanner in a block at a column, which is opened by a token at a place unless a block is open there. -/
def openBlock (s : Scanner) (column position : Nat) (t : Token) : Scanner :=
  if s.inFlow || column + 1 ≤ s.indent then s
  else { s.insert position t with indent := column + 1, indents := s.indent :: s.indents }

/-- The scanner after blocks were closed, those whose column is `least - 1` or more to the left excepted. -/
def closeBlocksTo (least : Nat) : List Nat → Scanner → Scanner
  | [], s => s
  | outer :: others, s =>
    if s.indent > least then
      closeBlocksTo least others { s.push .blockEnd with indent := outer, indents := others }
    else s

/-- The scanner after the blocks right of a column were closed. All of them are right of no column. -/
def closeBlocks (s : Scanner) (column : Option Nat) : Scanner :=
  if s.inFlow then s else closeBlocksTo (column.elim 0 (· + 1)) s.indents s

/-! ## Keys -/

/-- The scanner without a possible key here; a required one has to be found. -/
def dropKey (s : Scanner) : Option Scanner :=
  match s.keys with
  | some key :: others => if key.required then none else some { s with keys := none :: others }
  | _ => some s

/-- The scanner with what comes next as a possible key, where keys are allowed. -/
def noteKey (s : Scanner) : Option Scanner :=
  if s.keyAllowed then
    match s.dropKey with
    | none => none
    | some s =>
      let key : PossibleKey := {
        required := !s.inFlow && s.indent = s.cursor.column + 1
        position := s.tokens.size
        index := s.cursor.index
        line := s.cursor.line
        column := s.cursor.column }
      some { s with keys := some key :: s.keys.tail }
  else
    some s

/-- The possible keys that are not too far back. -/
def recentKeys (c : Cursor) : List (Option PossibleKey) → Option (List (Option PossibleKey))
  | [] => some []
  | none :: rest => (recentKeys c rest).map (none :: ·)
  | some key :: rest =>
    if key.line < c.line || key.index + 1024 < c.index then
      if key.required then none else (recentKeys c rest).map (none :: ·)
    else
      (recentKeys c rest).map (some key :: ·)

/-- The scanner without the possible keys that are too far back. -/
def dropOldKeys (s : Scanner) : Option Scanner :=
  (recentKeys s.cursor s.keys).map fun keys => { s with keys }

/-! ## Between tokens -/

/-- The scanner at the next sign: after blanks, comments and ends of lines. A tab is no indentation. -/
def toNextFrom : (fuel : Nat) → Scanner → Scanner
  | 0, s => s
  | fuel + 1, s =>
    let c := s.cursor
    let c := if c.column = 0 && c.peek = some byteOrderMark then c.skip else c
    let tabs := s.inFlow || !s.keyAllowed
    let c := (c.skipWhile fun b => b = ' ' || (tabs && b = '\t')).skipComment
    if c.peek.any isBreak then
      toNextFrom fuel { s with cursor := c.readBreak.2, keyAllowed := s.keyAllowed || !s.inFlow }
    else
      { s with cursor := c }

/-- The scanner at the next sign. -/
def toNext (s : Scanner) : Scanner :=
  s.toNextFrom (s.cursor.rest.length + 1)

/-! ## Signs -/

/-- The scanner after a sign that ends all blocks. -/
def readDocumentMark (s : Scanner) (t : Token) : Option Scanner :=
  (s.closeBlocks none).dropKey.map fun s => { s.pushSkip t 3 with keyAllowed := false }

/-- The scanner after the start of a flow collection. -/
def readFlowStart (s : Scanner) (t : Token) : Option Scanner :=
  s.noteKey.map fun s => { s.pushSkip t with keys := none :: s.keys, keyAllowed := true }

/-- The scanner after the end of a flow collection. -/
def readFlowEnd (s : Scanner) (t : Token) : Option Scanner :=
  s.dropKey.map fun s =>
    { s.pushSkip t with keys := if s.inFlow then s.keys.tail else s.keys, keyAllowed := false }

/-- The scanner after a comma. -/
def readFlowEntry (s : Scanner) : Option Scanner :=
  s.dropKey.map fun s => { s.pushSkip .flowEntry with keyAllowed := true }

/-- The scanner after a dash. -/
def readBlockEntry (s : Scanner) : Option Scanner :=
  if !s.inFlow && !s.keyAllowed then none
  else
    (s.openBlock s.cursor.column s.tokens.size .blockSequenceStart).dropKey.map fun s =>
      { s.pushSkip .blockEntry with keyAllowed := true }

/-- The scanner after a question mark. -/
def readKey (s : Scanner) : Option Scanner :=
  if !s.inFlow && !s.keyAllowed then none
  else
    (s.openBlock s.cursor.column s.tokens.size .blockMappingStart).dropKey.map fun s =>
      { s.pushSkip .key with keyAllowed := !s.inFlow }

/-- The scanner after a colon. -/
def readValue (s : Scanner) : Option Scanner :=
  match s.keys with
  | some key :: others =>
    let s := (s.insert key.position .key).openBlock key.column key.position .blockMappingStart
    some { s.pushSkip .value with keys := none :: others, keyAllowed := false }
  | _ =>
    if !s.inFlow && !s.keyAllowed then none
    else
      let s := s.openBlock s.cursor.column s.tokens.size .blockMappingStart
      some { s.pushSkip .value with keyAllowed := !s.inFlow }

/-- Whether a character can stand in a name. -/
def isNameChar (c : Char) : Bool :=
  ('0' ≤ c && c ≤ '9') || ('a' ≤ c && c ≤ 'z') || ('A' ≤ c && c ≤ 'Z') || c = '_' || c = '-'

/-- The scanner after the name of a value, or of a value that is meant. -/
def readAnchor (s : Scanner) (token : String → Token) : Option Scanner :=
  match s.noteKey with
  | none => none
  | some s =>
    let name := (s.cursor.skip.rest).takeWhile isNameChar
    let next := s.cursor.skip (name.length + 1)
    let ends := endsWord next.peek ||
      next.peek.any fun c => isFlowMark c && c != '[' && c != '\x7b' || c = '?' || c = ':' || c = '%' || c = '@' || c = '\x60'
    if name.isEmpty || !ends then none
    else some { s.push (token (String.ofList name)) with cursor := next, keyAllowed := false }

/-- Whether a character can stand in the address of a tag. -/
def isAddressChar (full : Bool) (c : Char) : Bool :=
  isNameChar c || ";/?:@&=+$.%!~*'()".toList.contains c || (full && (c = ',' || c = '[' || c = ']'))

/-- The characters of an address after bytes written as hexadecimal digits were put in their place. -/
def unescapeAddress : (fuel : Nat) → List Char → Option (List UInt8)
  | 0, _ => none
  | _, [] => some []
  | fuel + 1, '%' :: a :: b :: rest => do
    let high ← Json.hexValue? a
    let low ← Json.hexValue? b
    let bytes ← unescapeAddress fuel rest
    return (16 * high + low).toUInt8 :: bytes
  | fuel + 1, c :: rest =>
    if c = '%' then none else (unescapeAddress fuel rest).map (Utf8.encode [c] ++ ·)

/-- An address, and the cursor after it. -/
def readAddress (full : Bool) (c : Cursor) : Option (String × Cursor) :=
  let text := c.rest.takeWhile (isAddressChar full)
  match unescapeAddress (text.length + 1) text with
  | none => none
  | some bytes =>
    match Utf8.decode bytes with
    | .error _ => none
    | .ok address => some (String.ofList address, c.skip text.length)

/-- The handle of a tag: an exclamation mark, a name, and a second mark if there is one. -/
def readHandle (c : Cursor) : List Char × Cursor :=
  let name := (c.skip.rest).takeWhile isNameChar
  let next := c.skip (name.length + 1)
  if next.peek = some '!' then ('!' :: name ++ ['!'], next.skip) else ('!' :: name, next)

/-- The handle and the suffix of a tag, and the cursor after it. -/
def readTagParts (c : Cursor) : Option (String × String × Cursor) :=
  if c.peekAt 1 = some '<' then
    match readAddress true (c.skip 2) with
    | none => none
    | some (address, next) =>
      if address.isEmpty || next.peek != some '>' then none else some ("", address, next.skip)
  else
    let (handle, next) := readHandle c
    if handle.length > 1 && handle.getLast? = some '!' then
      match readAddress false next with
      | none => none
      | some (suffix, next) => if suffix.isEmpty then none else some (String.ofList handle, suffix, next)
    else
      match readAddress false next with
      | none => none
      | some (more, next) =>
        let suffix := String.ofList handle.tail ++ more
        some (if suffix.isEmpty then ("", "!", next) else ("!", suffix, next))

/-- The scanner after a tag. -/
def readTag (s : Scanner) : Option Scanner :=
  match s.noteKey with
  | none => none
  | some s =>
    match readTagParts s.cursor with
    | none => none
    | some (handle, suffix, next) =>
      if endsWord next.peek || (s.inFlow && next.peek = some ',') then
        some { s.push (.tag handle suffix) with cursor := next, keyAllowed := false }
      else none

/-- The scanner after a quoted scalar. -/
def readQuoted (s : Scanner) (single : Bool) : Option Scanner :=
  match s.noteKey with
  | none => none
  | some s =>
    (s.cursor.readQuoted single).map fun (text, next) =>
      let style : Style := if single then .singleQuoted else .doubleQuoted
      { s.push (.scalar style (String.ofList text)) with cursor := next, keyAllowed := false }

/-- The scanner after a block scalar. -/
def readBlock (s : Scanner) (folded : Bool) : Option Scanner :=
  match s.dropKey with
  | none => none
  | some s =>
    (s.cursor.readBlock folded s.indent).map fun (text, next) =>
      let style : Style := if folded then .folded else .literal
      { s.push (.scalar style (String.ofList text)) with cursor := next, keyAllowed := true }

/-- The scanner after a plain scalar. -/
def readPlain (s : Scanner) : Option Scanner :=
  match s.noteKey with
  | none => none
  | some s =>
    (s.cursor.readPlain s.inFlow s.indent).map fun (text, onNewLine, next) =>
      { s.push (.scalar .plain (String.ofList text)) with cursor := next, keyAllowed := onNewLine }

/-- The value of a run of digits, at most nine of them. -/
def readVersionNumber (c : Cursor) : Option (Nat × Cursor) :=
  let digits := c.rest.takeWhile Char.isDigit
  if digits.isEmpty || digits.length > 9 then none
  else some (digits.foldl (fun n d => 10 * n + (d.toNat - '0'.toNat)) 0, c.skip digits.length)

/-- A version and the cursor after it. -/
def readVersion (c : Cursor) : Option (Token × Cursor) := do
  let (major, next) ← readVersionNumber (c.skipWhile isGap)
  if next.peek = some '.' then
    let (minor, next) ← readVersionNumber next.skip
    return (.version major minor, next)
  else
    none

/-- A handle, what it stands for, and the cursor after both. -/
def readTagMeaning (c : Cursor) : Option (Token × Cursor) :=
  let c := c.skipWhile isGap
  let (handle, next) := readHandle c
  if c.peek != some '!' || (handle.length > 1 && handle.getLast? != some '!') || !next.peek.any isGap then none
  else
    match readAddress true (next.skipWhile isGap) with
    | none => none
    | some (meaning, next) =>
      if meaning.isEmpty || !endsWord next.peek then none
      else some (.tagDirective (String.ofList handle) meaning, next)

/-- The scanner after a directive. -/
def readDirective (s : Scanner) : Option Scanner :=
  match (s.closeBlocks none).dropKey with
  | none => none
  | some s =>
    let name := (s.cursor.skip.rest).takeWhile isNameChar
    let c := s.cursor.skip (name.length + 1)
    let content :=
      if name.isEmpty || !endsWord c.peek then none
      else if name = "YAML".toList then readVersion c
      else if name = "TAG".toList then readTagMeaning c
      else none
    match content with
    | none => none
    | some (token, next) =>
      let next := (next.skipWhile isGap).skipComment
      if endsLine next.peek then some { s.push token with cursor := next.readBreak.2, keyAllowed := false } else none

/-- The scanner after the end of the text. -/
def readEnd (s : Scanner) : Option Scanner :=
  (s.closeBlocks none).dropKey.map fun s => s.push .streamEnd

/-- Whether a plain scalar can start with a character. -/
def startsPlain (inFlow : Bool) (c : Char) (next : Option Char) : Bool :=
  !(endsWord (some c) || "-?:,[]\x7b\x7d#&*!|>'\"%@\x60".toList.contains c) ||
    (c = '-' && !next.any isGap) || (!inFlow && (c = '?' || c = ':') && !endsWord next)

/-- The scanner after the sign that starts with `c` and goes on with `next`. -/
def readSign (s : Scanner) (c : Char) (next : Option Char) : Option Scanner :=
  if s.cursor.column = 0 && c = '%' then s.readDirective
  else if s.cursor.atMark '-' then s.readDocumentMark .documentStart
  else if s.cursor.atMark '.' then s.readDocumentMark .documentEnd
  else
    match c with
    | '[' => s.readFlowStart .flowSequenceStart
    | '\x7b' => s.readFlowStart .flowMappingStart
    | ']' => s.readFlowEnd .flowSequenceEnd
    | '\x7d' => s.readFlowEnd .flowMappingEnd
    | ',' => s.readFlowEntry
    | '*' => s.readAnchor .reference
    | '&' => s.readAnchor .anchor
    | '!' => s.readTag
    | '\x27' => s.readQuoted true
    | '\x22' => s.readQuoted false
    | _ =>
      if c = '-' && endsWord next then s.readBlockEntry
      else if c = '?' && (s.inFlow || endsWord next) then s.readKey
      else if c = ':' && (s.inFlow || endsWord next) then s.readValue
      else if c = '|' && !s.inFlow then s.readBlock false
      else if c = '>' && !s.inFlow then s.readBlock true
      else if startsPlain s.inFlow c next then s.readPlain
      else none

/-- The scanner after one more sign. -/
def step (s : Scanner) : Option Scanner :=
  match s.toNext.dropOldKeys with
  | none => none
  | some s =>
    let s := s.closeBlocks (some s.cursor.column)
    match s.cursor.peek with
    | none => s.readEnd
    | some c => s.readSign c (s.cursor.peekAt 1)

/-- All tokens that the scanner comes to. -/
def run : (fuel : Nat) → Scanner → Option (Array Token)
  | 0, _ => none
  | fuel + 1, s =>
    match s.step with
    | none => none
    | some next => if next.tokens.back? = some .streamEnd then some next.tokens else run fuel next

end Scanner

/-- Whether a character may stand in a text at all. -/
def isPrintable (c : Char) : Bool :=
  let code := c.toNat
  c = '\t' || c = '\n' || c = '\r' || c = nextLine || (0x20 ≤ code && code ≤ 0x7E) || (0xA0 ≤ code && code ≤ 0xFFFD) ||
    0x10000 ≤ code

/-- The tokens of a text, if it is well formed. Every sign is at least one character, so the signs come to an end. -/
def Token.scan (text : String) : Option (List Token) :=
  let chars := match text.toList with
    | [] => []
    | c :: rest => if c = byteOrderMark then rest else c :: rest
  if chars.all isPrintable then
    (Scanner.run (chars.length + 2) { cursor := { rest := chars } }).map Array.toList
  else
    none

end LatencyReport.Yaml
