import LatencyReport.Decimal.Shortest

/-!
# `Tick` — texts on a logarithmic axis

The ticks of an axis to base two stand at powers of two, and a tick is written as **the power it is**: `2^12`.
A number counts as a power when its logarithm is less than `10^-9` away from a whole number, so a tick that lost its
last bits to rounding is still one. Any other number is written as the nearest whole number, a half away from zero.

The logarithm is one of binary64, so it is rounded itself, and it has fewer places the further it is from zero: beside
`52` the numbers are `2^-47` apart, and a logarithm counts as near when it is within `140737` of these and the half that
is rounded down. The comparison needs no logarithm for that. It asks whether the number, as `m · 2^q`, lies within a
factor of a power of two, and that factor is known to as many places as can matter.

## Contents

* `Tick.lastPlace`, `Tick.reach` — how far the logarithm may be from a whole number;
* `Tick.excess`, `Tick.isNearPower` — the comparison;
* `Tick.exponent?` — the power that a number counts as;
* `Tick.format` — the text.
-/

namespace LatencyReport.Tick

/-- The exponent of the last place of logarithms just above `n`, or just below it. A power of two is where the places
become fewer, so there the side decides. Beside zero the places are those of `10^-9` itself. -/
def lastPlace (n : Int) (above : Bool) : Int :=
  if n = 0 then -82
  else if above = decide (0 < n) then n.natAbs.log2 - 52
  else (2 * n.natAbs - 1).log2 - 53

/-- How far a logarithm may be from a whole number, in halves of its last place: as many places as are less than
`10^-9`, and the half that is rounded down. -/
def reach (place : Int) : Nat :=
  2 * (Nat.pow 2 (-place).toNat / Nat.pow 10 9) + 1

/-- The natural logarithm of two, in units of `10^-35`. -/
def logTwo : Nat := 69314718055994530941723212145817656

/-- The unit of `logTwo`, as the number of its reciprocal. -/
def logUnit : Nat := Nat.pow 10 35

/-- How far the factor that the reach amounts to is from one, in units of `10^-35`. The next term of the series is below
the last place of any number. -/
def excess (place : Int) : Nat :=
  let distance := reach place * logTwo / Nat.pow 2 (1 - place).toNat
  distance + distance * distance / (2 * logUnit)

/-- Whether `a / b` is less than the factor. -/
def isBelowFactor (place : Int) (a b : Nat) : Bool :=
  a * logUnit < b * (logUnit + excess place)

/-- Whether `m · 2^q` counts as `2^n`. -/
def isNearPower (m : Nat) (q n : Int) : Bool :=
  let value := m * Nat.pow 2 (q - n).toNat
  let power := Nat.pow 2 (n - q).toNat
  isBelowFactor (lastPlace n true) value power && isBelowFactor (lastPlace n false) power value

/-- The exponent of the power of two that a positive finite number counts as: the one below it or the next. -/
def exponent? (x : Float) : Option Int :=
  let (m, q) := Decimal.binaryParts x
  let below : Int := m.log2 + q
  if isNearPower m q below then some below
  else if isNearPower m q (below + 1) then some (below + 1)
  else none

/-- The whole number nearest to `m · 2^q`, a half upwards. -/
def roundHalfUp (m : Nat) (q : Int) : Nat :=
  (2 * m * Nat.pow 2 q.toNat + Nat.pow 2 (-q).toNat) / (2 * Nat.pow 2 (-q).toNat)

/-- The greatest number that is written out. -/
def greatest : Nat := UInt64.size - 1

/-- The whole number nearest to a positive number, at most the greatest. -/
def nearest (x : Float) : Nat :=
  if x.isFinite then
    let (m, q) := Decimal.binaryParts x
    min (roundHalfUp m q) greatest
  else if x.isNaN then 0
  else greatest

/-- The text of a tick. Nothing is written at zero or below. -/
def format (x : Float) : String :=
  if x ≤ 0 then
    ""
  else
    match (if x.isFinite then exponent? x else none) with
    | some n => "2^" ++ toString n
    | none => toString (nearest x)

end LatencyReport.Tick
