import LatencyReport.Decimal.Shortest

/-!
# `Summary` — mean, 99th percentile and maximum

A summary says of many samples three numbers: their mean, the value that 99 of 100 do not exceed, and the
greatest. It is computed **from the samples in ascending order**, so their order does not matter; the order is
the total one of binary64, in which every bit pattern has its place, those that are no number included: with the
sign they come before all numbers, without it after them. Neither mean nor percentile exceeds the maximum, although
rounding in the sum could take the mean past it.

## Contents

* `Statistic` — the three kinds, their names and titles;
* `orderKey`, `ascending` — the total order of bit patterns;
* `percentile?` — interpolation between the closest ranks;
* `Summary`, `Summary.ofAscending?` — three numbers, and those of samples in order;
* `Summary.ofBits?`, `Summary.ofSamples?` — samples as bit patterns, and as numbers;
* `Summary.scaled`, `Summary.get`.
-/

namespace LatencyReport

/-- What a figure shows of the samples. -/
inductive Statistic where
  | mean
  | p99
  | max
deriving DecidableEq, Repr

namespace Statistic

/-- Every statistic, in order. -/
def all : List Statistic := [mean, p99, max]

/-- The name of the statistic. -/
def name : Statistic → String
  | mean => "mean"
  | p99 => "p99"
  | max => "max"

/-- What stands above its part of a figure. -/
def title : Statistic → String
  | mean => "Average Latency"
  | p99 => "99th Percentile Latency"
  | max => "Maximum Latency"

end Statistic

/-- The place of a bit pattern in the total order: those with the sign first, the greatest magnitude first, then those
without it. -/
def orderKey (bits : UInt64) : Nat :=
  if bits.toNat < Nat.pow 2 63 then Nat.pow 2 63 + bits.toNat else UInt64.size - 1 - bits.toNat

/-- The bit patterns in ascending order. -/
def ascending (samples : List UInt64) : List UInt64 :=
  samples.mergeSort fun a b => orderKey a ≤ orderKey b

/-- The lesser of two numbers, the second one of two that are equal; of a number and no number, the number. -/
def lesser (x y : Float) : Float :=
  if x.isNaN then y else if y ≤ x then y else x

/-- A fraction brought between zero and one. -/
def clampUnit (q : Float) : Float :=
  if q < 0 then 0 else if 1 < q then 1 else q

/-- The least whole number that is not below a rank, whose whole part is `lower`. -/
def roundUp (rank : Float) (lower : Nat) : Nat :=
  if Float.ofNat lower < rank then lower + 1 else lower

/-- The value below which the fraction `q` of the numbers lies: between the two numbers whose ranks are closest to
`q`, in proportion. There has to be a number. -/
def percentile? (sorted : List Float) (q : Float) : Option Float :=
  let rank := clampUnit q * Float.ofNat (sorted.length - 1)
  let lower := rank.toUInt64.toNat
  let upper := roundUp rank lower
  match sorted[lower]?, sorted[upper]? with
  | some a, some b => some (a + (b - a) * (rank - Float.ofNat lower))
  | _, _ => none

/-- Three numbers that stand for many samples. -/
structure Summary where
  mean : Float
  p99 : Float
  max : Float

/-- The fraction that the percentile of a summary is taken at. -/
def ninetyNinth : Float := 0.99

/-- Microseconds in a nanosecond, rounded to a number. -/
def nanosToMicros : Float := 1.0 / 1000.0

namespace Summary

/-- The sum of numbers, added from the first on. -/
def sum (xs : List Float) : Float :=
  xs.foldl (· + ·) (-0.0)

/-- The summary of samples that are in order. No samples have none. -/
def ofAscending? (sorted : List Float) : Option Summary :=
  match sorted.getLast?, percentile? sorted ninetyNinth with
  | some greatest, some p99 =>
    some {
      mean := lesser (sum sorted / Float.ofNat sorted.length) greatest
      p99 := lesser p99 greatest
      max := greatest }
  | _, _ => none

/-- The summary of samples, given as bit patterns. -/
def ofBits? (samples : List UInt64) : Option Summary :=
  ofAscending? ((ascending samples).map Float.ofBits)

/-- The summary of samples. -/
def ofSamples? (samples : List Float) : Option Summary :=
  ofBits? (samples.map Float.toBits)

/-- The summary in another unit. -/
def scaled (s : Summary) (factor : Float) : Summary where
  mean := s.mean * factor
  p99 := s.p99 * factor
  max := s.max * factor

/-- The value of a statistic. -/
def get (s : Summary) : Statistic → Float
  | .mean => s.mean
  | .p99 => s.p99
  | .max => s.max

end Summary

end LatencyReport
