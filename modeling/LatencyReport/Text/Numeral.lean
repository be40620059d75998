import LatencyReport.Text.Split

/-!
# `Text.Numeral` — decimal numerals below 2^64

A numeral is an optional plus sign and at least one ASCII digit. A text that is none fails **at its first bad
character**: a character that is no digit, or a digit that takes the value to 2^64 or beyond, whichever comes
first.

## Contents

* `NumeralFault` — the three ways to fail, and their wording;
* `digitValue?` — one ASCII digit;
* `readDigits` — a run of digits after a value already read;
* `readUInt64` — a numeral.
-/

namespace LatencyReport

/-- Why a text is not a numeral. -/
inductive NumeralFault where
  | empty
  | invalidDigit
  | tooLarge
deriving DecidableEq, Repr

/-- What is said of the fault. -/
def NumeralFault.message : NumeralFault → String
  | .empty => "cannot parse integer from empty string"
  | .invalidDigit => "invalid digit found in string"
  | .tooLarge => "number too large to fit in target type"

namespace Text

/-- The value of an ASCII digit. -/
def digitValue? (c : Char) : Option Nat :=
  if '0' ≤ c && c ≤ '9' then some (c.toNat - '0'.toNat) else none

/-- The value of digits that follow digits of value `value`, as long as it stays below 2^64. -/
def readDigits (value : Nat) : List Char → Except NumeralFault Nat
  | [] => .ok value
  | c :: rest =>
    match digitValue? c with
    | none => .error .invalidDigit
    | some d => if 10 * value + d < UInt64.size then readDigits (10 * value + d) rest else .error .tooLarge

/-- The value of a numeral. A sign on its own is no numeral, and only the plus sign is one. -/
def readUInt64 (s : List Char) : Except NumeralFault UInt64 :=
  let digits :=
    match s with
    | '+' :: rest => rest
    | _ => s
  match s, digits with
  | [], _ => .error .empty
  | _, [] => .error .invalidDigit
  | _, _ => (readDigits 0 digits).map UInt64.ofNat

end Text

end LatencyReport
