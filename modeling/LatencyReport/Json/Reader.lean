import LatencyReport.Decimal.Reader
import LatencyReport.Json

/-!
# `Json.Reader` — JSON text as values

The reader takes one value off the front of a text and gives back **what follows it**. A number without a
fraction and without a power is an integer if it has 64 bits, and only then; minus zero is not one, for an
integer has no sign of zero.

Nesting is bounded by the length of the text, which the recursion counts down.

## Contents

* `readString?` — the characters up to the closing mark;
* `ofNumeral?` — a number;
* `readValue?` — a value off the front of a text;
* `parse?` — a whole text.
-/

namespace LatencyReport.Json

/-- The text without the white space at its front. -/
def skipBlank : List Char → List Char :=
  List.dropWhile fun c => c = ' ' || c = '\n' || c = '\t' || c = '\r'

/-- The value of a hexadecimal digit. -/
def hexValue? (c : Char) : Option Nat :=
  if '0' ≤ c && c ≤ '9' then some (c.toNat - '0'.toNat)
  else if 'a' ≤ c && c ≤ 'f' then some (c.toNat - 'a'.toNat + 10)
  else if 'A' ≤ c && c ≤ 'F' then some (c.toNat - 'A'.toNat + 10)
  else none

/-- The value of four hexadecimal digits. -/
def hexValues? (a b c d : Char) : Option Nat := do
  return (← hexValue? a) * 4096 + (← hexValue? b) * 256 + (← hexValue? c) * 16 + (← hexValue? d)

/-- The character of a letter after a backslash. -/
def unescape? (c : Char) : Option Char :=
  match c with
  | '\x22' => some '\x22'
  | '\\' => some '\\'
  | '/' => some '/'
  | 'b' => some '\x08'
  | 'f' => some '\x0c'
  | 'n' => some '\n'
  | 'r' => some '\r'
  | 't' => some '\t'
  | _ => none

/-- The character of two halves of a pair of codes. -/
def ofSurrogates? (high low : Nat) : Option Char :=
  if 0xDC00 ≤ low && low < 0xE000 then
    some (Char.ofNat (0x10000 + (high - 0xD800) * 0x400 + (low - 0xDC00)))
  else
    none

/-- The characters of a string up to its closing mark, and what follows the mark. -/
def readString? : List Char → Option (List Char × List Char)
  | [] => none
  | '\x22' :: rest => some ([], rest)
  | '\\' :: 'u' :: a :: b :: c :: d :: '\\' :: 'u' :: e :: f :: g :: h :: rest => do
    let code ← hexValues? a b c d
    if 0xD800 ≤ code && code < 0xDC00 then
      let character ← ofSurrogates? code (← hexValues? e f g h)
      let (text, ending) ← readString? rest
      return (character :: text, ending)
    else if 0xDC00 ≤ code && code < 0xE000 then
      none
    else
      let (text, ending) ← readString? ('\\' :: 'u' :: e :: f :: g :: h :: rest)
      return (Char.ofNat code :: text, ending)
  | '\\' :: 'u' :: a :: b :: c :: d :: rest => do
    let code ← hexValues? a b c d
    if 0xD800 ≤ code && code < 0xE000 then
      none
    else
      let (text, ending) ← readString? rest
      return (Char.ofNat code :: text, ending)
  | '\\' :: c :: rest => do
    let character ← unescape? c
    let (text, ending) ← readString? rest
    return (character :: text, ending)
  | c :: rest =>
    if c.toNat < 0x20 then
      none
    else do
      let (text, ending) ← readString? rest
      return (c :: text, ending)

/-- The number that a numeral without sign stands for, `negative` if a sign stood before it. -/
def ofUnsigned? (negative : Bool) (s : List Char) : Option Json :=
  let whole := s.takeWhile Decimal.isDigit
  let afterWhole := s.dropWhile Decimal.isDigit
  let value := Decimal.valueOf whole
  if whole.isEmpty || (whole.length != 1 && whole.head? == some '0') then
    none
  else if afterWhole.isEmpty && !negative && value < UInt64.size then
    some (.int value)
  else if afterWhole.isEmpty && negative && 0 < value && value ≤ Nat.pow 2 63 then
    some (.int (-(value : Int)))
  else
    let parts : Option (List Char × List Char) :=
      match afterWhole with
      | '.' :: rest =>
        let fraction := rest.takeWhile Decimal.isDigit
        if fraction.isEmpty then none else some (fraction, rest.dropWhile Decimal.isDigit)
      | _ => some ([], afterWhole)
    match parts with
    | none => none
    | some (fraction, ending) =>
      match Decimal.readPower? ending with
      | none => none
      | some power =>
        let digits := Decimal.valueOf (whole ++ fraction)
        let x := Decimal.Numeral.toFloat ⟨negative, ⟨digits, power - fraction.length⟩⟩
        if x.isFinite then some (.float x) else none

/-- The number that a numeral stands for. -/
def ofNumeral? : List Char → Option Json
  | '-' :: rest => ofUnsigned? true rest
  | s => ofUnsigned? false s

/-- The characters that numerals are made of. -/
def isNumeralChar (c : Char) : Bool :=
  Decimal.isDigit c || c = '-' || c = '+' || c = '.' || c = 'e' || c = 'E'

mutual

/-- A value off the front of a text without white space at its front. -/
def readValue? : (nesting : Nat) → List Char → Option (Json × List Char)
  | 0, _ => none
  | nesting + 1, s =>
    match s with
    | 'n' :: 'u' :: 'l' :: 'l' :: rest => some (.null, rest)
    | 't' :: 'r' :: 'u' :: 'e' :: rest => some (.bool true, rest)
    | 'f' :: 'a' :: 'l' :: 's' :: 'e' :: rest => some (.bool false, rest)
    | '\x22' :: rest => (readString? rest).map fun (text, ending) => (.str (String.ofList text), ending)
    | '[' :: rest =>
      match skipBlank rest with
      | ']' :: ending => some (.arr [], ending)
      | start => (readItems? nesting start).map fun (items, ending) => (.arr items, ending)
    | '\x7b' :: rest =>
      match skipBlank rest with
      | '\x7d' :: ending => some (.obj [], ending)
      | start => (readMembers? nesting start).map fun (members, ending) => (.obj members, ending)
    | _ =>
      (ofNumeral? (s.takeWhile isNumeralChar)).map fun value => (value, s.dropWhile isNumeralChar)

/-- Items up to the closing bracket, at least one. -/
def readItems? : (nesting : Nat) → List Char → Option (List Json × List Char)
  | 0, _ => none
  | nesting + 1, s =>
    match readValue? nesting s with
    | none => none
    | some (item, rest) =>
      match skipBlank rest with
      | ']' :: ending => some ([item], ending)
      | ',' :: more =>
        (readItems? nesting (skipBlank more)).map fun (items, ending) => (item :: items, ending)
      | _ => none

/-- Members up to the closing brace, at least one. -/
def readMembers? : (nesting : Nat) → List Char → Option (List (String × Json) × List Char)
  | 0, _ => none
  | nesting + 1, s =>
    match s with
    | '\x22' :: afterMark =>
      match readString? afterMark with
      | none => none
      | some (name, afterName) =>
        match skipBlank afterName with
        | ':' :: beforeValue =>
          match readValue? nesting (skipBlank beforeValue) with
          | none => none
          | some (value, rest) =>
            match skipBlank rest with
            | '\x7d' :: ending => some ([(String.ofList name, value)], ending)
            | ',' :: more =>
              (readMembers? nesting (skipBlank more)).map fun (members, ending) =>
                ((String.ofList name, value) :: members, ending)
            | _ => none
        | _ => none
    | _ => none

end

/-- The value of a whole text. -/
def parse? (text : String) : Option Json :=
  let s := skipBlank text.toList
  match readValue? (2 * s.length + 1) s with
  | some (value, rest) => if (skipBlank rest).isEmpty then some value else none
  | none => none

end LatencyReport.Json
