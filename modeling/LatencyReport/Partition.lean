import LatencyReport.Dataset
import LatencyReport.Size

/-!
# `Partition` — the rows of one range of message sizes

A figure shows the rows whose message size lies in one range: all of them, those up to a threshold, or those above
it. The rows come **in the order of their sizes**, and rows of one size keep the order of the dataset; so the two
parts of a threshold, one after the other, are the whole.

The axis of a figure reaches from the least to the greatest size. Sizes are compared **after they have become numbers**,
and sizes that differ can become one number; then, as for a single row, the axis reaches from half of it to twice of it.

## Contents

* `Range` — the ranges; `Range.contains`, `Range.slug`, `Range.text`;
* `Partition`, `Dataset.partition`, `Dataset.split` — the rows of a range, and of the two sides of a threshold;
* `Extremes` — the least and the greatest of some numbers;
* `Partition.span` — the ends of an axis that shows the partition; `Partition.points` — the points of a series.
-/

namespace LatencyReport

/-- A range of message sizes. -/
inductive Range where
  | all
  | atMost (threshold : UInt64)
  | above (threshold : UInt64)
deriving DecidableEq, Repr

namespace Range

/-- Whether a message size is in the range. -/
def contains : Range → UInt64 → Bool
  | all, _ => true
  | atMost threshold, size => size ≤ threshold
  | above threshold, size => threshold < size

/-- The range in a file name. -/
def slug : Range → String
  | all => "all"
  | atMost threshold => "le_" ++ Size.format threshold
  | above threshold => "gt_" ++ Size.format threshold

/-- The range in a title. -/
def text : Range → String
  | all => "all message sizes"
  | atMost threshold => "Message Size <= " ++ Size.format threshold
  | above threshold => "Message Size > " ++ Size.format threshold

end Range

/-- The rows of a range, in the order of their message sizes. -/
structure Partition where
  range : Range
  rows : List Row

/-- The rows of a dataset that are in a range. -/
def Dataset.partition (d : Dataset) (range : Range) : Partition where
  range
  rows := (d.rows.filter fun row => range.contains row.experiment.messageSize).mergeSort
    fun a b => a.experiment.messageSize ≤ b.experiment.messageSize

/-- The rows on either side of a threshold. -/
def Dataset.split (d : Dataset) (threshold : UInt64) : Partition × Partition :=
  (d.partition (.atMost threshold), d.partition (.above threshold))

/-- The least and the greatest of some numbers, in the total order of bit patterns. A number alone is no pair. -/
inductive Extremes where
  | none
  | one (x : Float)
  | both (least greatest : Float)

namespace Extremes

/-- The place of a number in the order. -/
def place (x : Float) : Nat :=
  orderKey x.toBits

/-- The extremes of a list. -/
def of : List Float → Extremes
  | [] => none
  | [x] => one x
  | x :: y :: rest =>
    both ((x :: y :: rest).minOn place (List.cons_ne_nil _ _)) ((x :: y :: rest).maxOn place (List.cons_ne_nil _ _))

end Extremes

namespace Partition

/-- The message sizes of the rows, as numbers. -/
def sizes (p : Partition) : List Float :=
  p.rows.map fun row => row.experiment.messageSize.toFloat

/-- The ends of the axis where there is nothing to show. -/
def emptySpan : Float × Float := (1.0, 1048576.0)

/-- The ends of the axis that shows the partition: the least and the greatest size, or half and twice the only one. -/
def span (p : Partition) : Float × Float :=
  match Extremes.of p.sizes with
  | .none => emptySpan
  | .one x => (x / 2.0, x * 2.0)
  | .both least greatest => if least == greatest then (least / 2.0, greatest * 2.0) else (least, greatest)

/-- The points of a series: the message size of every row that has the series, and the value of a statistic. -/
def points (p : Partition) (series : Series) (statistic : Statistic) : List (UInt64 × Float) :=
  p.rows.filterMap fun row =>
    if row.experiment.label = series.label then
      (row.phases.get? series.phase).map fun summary => (row.experiment.messageSize, summary.get statistic)
    else
      none

end Partition

end LatencyReport
