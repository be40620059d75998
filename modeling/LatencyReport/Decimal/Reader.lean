import LatencyReport.Decimal.Shortest
import LatencyReport.Text.Numeral

/-!
# `Decimal.Reader` — decimal text as a number

A decimal text has a sign at most, digits with at most one point among them, and a power of ten at most. It
stands for one real number, and it is read as **the binary64 number nearest to that real**, the even one of
two; a real beyond the largest number is read as infinity.

## Contents

* `Numeral` — what the text says: sign, digits and power of ten;
* `readNumeral?` — the grammar;
* `Numeral.toFloat` — the value.
-/

namespace LatencyReport.Decimal

/-- What a decimal text says. -/
structure Numeral where
  negative : Bool
  magnitude : Decimal
deriving DecidableEq, Repr

/-- The number nearest to a decimal. -/
def toFloat (d : Decimal) : Float :=
  Float.ofScientific d.digits (d.exponent < 0) d.exponent.natAbs

/-- The number nearest to what the text says. Zero keeps the sign. -/
def Numeral.toFloat (n : Numeral) : Float :=
  if n.negative then -(n.magnitude.toFloat) else n.magnitude.toFloat

/-- Whether a character is an ASCII digit. -/
def isDigit (c : Char) : Bool :=
  (Text.digitValue? c).isSome

/-- The value of a run of digits. -/
def valueOf (digits : List Char) : Nat :=
  digits.foldl (fun value c => 10 * value + (Text.digitValue? c).getD 0) 0

/-- A sign in front, if there is one, and the rest. -/
def splitSign : List Char → Bool × List Char
  | '-' :: rest => (true, rest)
  | '+' :: rest => (false, rest)
  | s => (false, s)

/-- The power of ten that ends a text: nothing, or the letter E with a signed run of digits. -/
def readPower? : List Char → Option Int
  | [] => some 0
  | e :: rest =>
    if e = 'e' || e = 'E' then
      let (negative, digits) := splitSign rest
      if digits.isEmpty || !digits.all isDigit then none
      else some (if negative then -(valueOf digits : Int) else valueOf digits)
    else
      none

/-- What a decimal text says, if it is one. At least one digit stands before or after the point. -/
def readNumeral? (s : List Char) : Option Numeral :=
  let (negative, unsigned) := splitSign s
  let whole := unsigned.takeWhile isDigit
  let afterWhole := unsigned.dropWhile isDigit
  let (fraction, ending) :=
    match afterWhole with
    | '.' :: rest => (rest.takeWhile isDigit, rest.dropWhile isDigit)
    | _ => ([], afterWhole)
  if whole.isEmpty && fraction.isEmpty then
    none
  else
    (readPower? ending).map fun power =>
      ⟨negative, ⟨valueOf (whole ++ fraction), power - fraction.length⟩⟩

end LatencyReport.Decimal
