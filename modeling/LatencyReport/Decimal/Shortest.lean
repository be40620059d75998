/-!
# `Decimal.Shortest` — the fewest digits that read back

A binary64 number stands for an interval of reals: those that are nearer to it than to its neighbours, and
the two ends when its significand is even. Any decimal **inside the interval reads back** as the number. The
shortest one lies on the coarsest grid of powers of ten that meets the interval, and there it is the point
nearest to the number, the even one of two that are equally near.

On each grid only the two points next to the number can be that point, so the search tests two candidates per
power of ten, from the coarse side on. All arithmetic is exact: with the number written `m · 2^q`, lengths are
counted in quarters of `2^q`, and a comparison with `n · 10^k` is multiplied out to natural numbers.

## Contents

* `Decimal` — digits and a power of ten;
* `binaryParts` — a number as `m · 2^q`;
* `readsBack` — the interval; `nearestOnGrid?` — the best point of one grid;
* `shortest` — the search.
-/

namespace LatencyReport

/-- The number `digits · 10^exponent`. -/
structure Decimal where
  digits : Nat
  exponent : Int
deriving DecidableEq, Repr

namespace Decimal

/-- The magnitude of a finite number as `m · 2^q`. -/
def binaryParts (x : Float) : Nat × Int :=
  let bits : Nat := x.toBits.toNat
  let biased : Nat := bits / Nat.pow 2 52 % Nat.pow 2 11
  let fraction : Nat := bits % Nat.pow 2 52
  if biased = 0 then (fraction, -1074) else (Nat.pow 2 52 + fraction, (biased : Int) - 1075)

/-- How many quarters of `2^q` the grid step `10^k` is, as a fraction: `n` steps compare with `w` quarters as
`n * (gridScale q k).2` compares with `w * (gridScale q k).1`. -/
def gridScale (q k : Int) : Nat × Nat :=
  (Nat.pow 2 (q - 2).toNat * Nat.pow 10 (-k).toNat, Nat.pow 2 (2 - q).toNat * Nat.pow 10 k.toNat)

/-- The lower end of the interval of `m · 2^q`, in quarters. Below a power of two the neighbours are half as
far away, unless the number is the least of its exponent's range. -/
def lowerEnd (m : Nat) (q : Int) : Nat :=
  if m = Nat.pow 2 52 ∧ -1074 < q then 4 * m - 1 else 4 * m - 2

/-- The upper end of the interval, in quarters. -/
def upperEnd (m : Nat) : Nat :=
  4 * m + 2

/-- Whether `n · 10^k` lies in the interval of `m · 2^q`. -/
def readsBack (m : Nat) (q : Int) (n : Nat) (k : Int) : Bool :=
  let scale := gridScale q k
  if m % 2 = 0 then
    lowerEnd m q * scale.1 ≤ n * scale.2 && n * scale.2 ≤ upperEnd m * scale.1
  else
    lowerEnd m q * scale.1 < n * scale.2 && n * scale.2 < upperEnd m * scale.1

/-- The point of the grid of `10^k` in the interval of `m · 2^q` that is nearest to the number. -/
def nearestOnGrid? (m : Nat) (q k : Int) : Option Nat :=
  let scale := gridScale q k
  let below := 4 * m * scale.1 / scale.2
  match readsBack m q below k, readsBack m q (below + 1) k with
  | false, false => none
  | true, false => some below
  | false, true => some (below + 1)
  | true, true =>
    match compare (2 * (4 * m * scale.1)) ((2 * below + 1) * scale.2) with
    | .lt => some below
    | .gt => some (below + 1)
    | .eq => some (below + below % 2)

/-- The first grid with a point in the interval, among `grids` of them from `10^k` on to finer ones. -/
def shortestFrom (m : Nat) (q : Int) : (grids : Nat) → (k : Int) → Decimal
  | 0, k => ⟨4 * m * (gridScale q k).1 / (gridScale q k).2, k⟩
  | grids + 1, k =>
    match nearestOnGrid? m q k with
    | some n => ⟨n, k⟩
    | none => shortestFrom m q grids (k - 1)

/-- A power of ten that the number `m · 2^q` does not reach. -/
def coarsestGrid (m : Nat) (q : Int) : Int :=
  ((m.log2 : Int) + q + 1) * 30103 / 100000 + 1

/-- The shortest decimal that reads back as the magnitude of a finite number. Seventeen digits suffice. -/
def shortest (x : Float) : Decimal :=
  let (m, q) := binaryParts x
  if m = 0 then ⟨0, 0⟩ else shortestFrom m q 20 (coarsestGrid m q)

end Decimal

end LatencyReport
