import LatencyReport.Decimal.Shortest

/-!
# `Decimal.Layout` — where the point goes

A number is written with its shortest digits. Between `10^-5` and `10^16` the point stands **where the value
puts it**, with at least one digit on either side; outside, one digit stands before the point and a power of
ten follows. JSON text and tables differ in one respect only: the sign of a power that is not negative.

## Contents

* `Layout` — the decision of a format, and the two formats `json` and `table`;
* `Layout.decimal` — digits and a power of ten, laid out;
* `Layout.number` — a number, with its sign; the names of what is not finite.
-/

namespace LatencyReport.Decimal

/-- What a format decides: whether a power of ten that is not negative has a sign. -/
structure Layout where
  plusSign : Bool

/-- The layout of JSON text: `1e+16`. -/
def Layout.json : Layout := ⟨true⟩

/-- The layout of tables: `1e16`. -/
def Layout.table : Layout := ⟨false⟩

/-- The decimal digits of a natural number. -/
def digitsOf (n : Nat) : List Char :=
  Nat.toDigits 10 n

/-- A power of ten. -/
def Layout.power (layout : Layout) (e : Int) : List Char :=
  if e < 0 then '-' :: digitsOf e.natAbs
  else if layout.plusSign then '+' :: digitsOf e.natAbs
  else digitsOf e.natAbs

/-- The number `digits · 10^exponent` with its point. `point` is where the point stands, counted from the first
digit. -/
def Layout.decimal (layout : Layout) (d : Decimal) : List Char :=
  let digits := digitsOf d.digits
  let point : Int := digits.length + d.exponent
  if 0 ≤ d.exponent && point ≤ 16 then
    digits ++ List.replicate d.exponent.toNat '0' ++ ['.', '0']
  else if 0 < point && point ≤ 16 then
    digits.take point.toNat ++ '.' :: digits.drop point.toNat
  else if -5 < point && point ≤ 0 then
    '0' :: '.' :: List.replicate (-point).toNat '0' ++ digits
  else if digits.length = 1 then
    digits ++ 'e' :: layout.power (point - 1)
  else
    digits.take 1 ++ '.' :: digits.drop 1 ++ 'e' :: layout.power (point - 1)

/-- A finite number with its sign; zero has a sign too. -/
def Layout.finite (layout : Layout) (x : Float) : List Char :=
  let magnitude := layout.decimal (shortest x)
  if x.toBits < 0x8000000000000000 then magnitude else '-' :: magnitude

/-- A number, where the format has names for infinity and for what is not a number. -/
def Layout.number (layout : Layout) (x : Float) : List Char :=
  if x.isFinite then layout.finite x
  else if x.isNaN then ['N', 'a', 'N']
  else if 0 < x then ['i', 'n', 'f']
  else ['-', 'i', 'n', 'f']

end LatencyReport.Decimal
