import LatencyReport.Comparison
import LatencyReport.Proofs.Partition.Order
import Mathlib.Data.List.Nodup

/-!
# `Proofs.Figure.Points` — the points of a series in the figures of a comparison

A figure leaves a series out that has no point, so what it shows of a series is looked up: **the points of all curves
of that series**, and none if there is no curve. Looked up so, a figure shows of every series what the rows of its
partition say (`pointsOf_figure`). With a threshold, the figure of all sizes shows of every series what the two
others show, one after the other, and it shows every row once (`figures_split`).

## Contents

* `Panel.pointsOf`, `Figure.pointsOf` — what a figure shows of a series;
* `Row.point?`, `points_eq` — what a row says of a series;
* `pointsOf_panel`, `pointsOf_figure` — a figure shows what the rows say;
* `points_all` — the points of all sizes; `figures_split` — the figures of a threshold.
-/

namespace LatencyReport

/-! ## Looking up points -/

/-- The points of a series in a panel: those of all curves of the series. -/
def Panel.pointsOf (panel : Panel) (s : Series) : List (UInt64 × Float) :=
  (panel.curves.filter fun curve => curve.series == s).flatMap (·.points)

/-- The points of a series in a figure, for a statistic: those in all panels of the statistic. -/
def Figure.pointsOf (figure : Figure) (k : Statistic) (s : Series) : List (UInt64 × Float) :=
  (figure.panels.filter fun panel => panel.statistic == k).flatMap (·.pointsOf s)

/-- The point that a row has of a series: its size and the value of the statistic, if it is a row of the mechanism
    with a summary of the phase. -/
def Row.point? (s : Series) (k : Statistic) (row : Row) : Option (UInt64 × Float) :=
  if row.experiment.label = s.label then
    (row.phases.get? s.phase).map fun summary => (row.size, summary.get k)
  else
    none

/-- The points of a partition are those of its rows. -/
theorem points_eq (p : Partition) (s : Series) (k : Statistic) : p.points s k = p.rows.filterMap (Row.point? s k) := rfl

theorem size_of_point? {s : Series} {k : Statistic} {row : Row} {point : UInt64 × Float}
    (h : row.point? s k = some point) : point.1 = row.size := by
  unfold Row.point? at h
  split at h
  · obtain ⟨summary, _, rfl⟩ := Option.map_eq_some_iff.mp h
    rfl
  · exact absurd h (by simp)

/-! ## A figure shows what the rows say -/

/-- Curves without points show nothing, so it does not matter that they are left out. -/
theorem flatMap_points_filter (curves : List Curve) :
    (curves.filter fun curve => !curve.points.isEmpty).flatMap (·.points) = curves.flatMap (·.points) := by
  induction curves with
  | nil => rfl
  | cons curve rest ih =>
    by_cases hpoints : curve.points = []
    · rw [List.filter_cons_of_neg (by simp [hpoints]), ih, List.flatMap_cons, hpoints, List.nil_append]
    · rw [List.filter_cons_of_pos (by simp [hpoints]), List.flatMap_cons, List.flatMap_cons, ih]

/-- **A panel shows of every series what the rows say.** -/
theorem pointsOf_panel (p : Partition) {series : List Series} (hnodup : series.Nodup) {s : Series} (hs : s ∈ series)
    (k : Statistic) : (Panel.ofPartition p series k).pointsOf s = p.points s k := by
  have hone : series.filter (· == s) = [s] := by
    rw [List.filter_beq, List.count_eq_one_of_mem hnodup hs, List.replicate_one]
  have hcurves : (series.map fun other => (⟨other, p.points other k⟩ : Curve)).filter (fun curve => curve.series == s) =
      [⟨s, p.points s k⟩] := by
    rw [List.filter_map]
    exact congrArg (List.map _) hone
  unfold Panel.pointsOf Panel.ofPartition
  rw [List.filter_comm, flatMap_points_filter, hcurves, List.flatMap_singleton]

/-- **A figure shows of every series what the rows of its partition say**, for every statistic. -/
theorem pointsOf_figure (title : String) (p : Partition) {series : List Series} (hnodup : series.Nodup) {s : Series}
    (hs : s ∈ series) (k : Statistic) : (Figure.ofPartition title p series).pointsOf k s = p.points s k := by
  have hone : Statistic.all.filter (· == k) = [k] := by
    cases k <;> rfl
  have hpanels : ((Statistic.all.map (Panel.ofPartition p series)).filter fun panel => panel.statistic == k) =
      [Panel.ofPartition p series k] := by
    rw [List.filter_map]
    exact congrArg (List.map _) hone
  unfold Figure.pointsOf Figure.ofPartition
  rw [hpanels, List.flatMap_singleton, pointsOf_panel p hnodup hs]

/-- A figure in which a series has one place for each statistic, and none if it has no point. -/
structure Figure.IsIndexed (figure : Figure) : Prop where
  statistics_eq : figure.panels.map (·.statistic) = Statistic.all
  nodup : ∀ panel ∈ figure.panels, (panel.curves.map (·.series)).Nodup
  ne_nil : ∀ panel ∈ figure.panels, ∀ curve ∈ panel.curves, curve.points ≠ []

theorem isIndexed_ofPartition (title : String) (p : Partition) {series : List Series} (hnodup : series.Nodup) :
    (Figure.ofPartition title p series).IsIndexed := by
  refine ⟨rfl, ?_, ?_⟩
  · intro panel hpanel
    obtain ⟨k, _, rfl⟩ := List.mem_map.mp hpanel
    have hall : (series.map fun s => (⟨s, p.points s k⟩ : Curve)).map (·.series) = series := by
      rw [List.map_map]
      exact List.map_id series
    exact (hall ▸ hnodup).sublist (List.filter_sublist.map _)
  · intro panel hpanel curve hcurve
    obtain ⟨k, _, rfl⟩ := List.mem_map.mp hpanel
    simpa using (List.mem_filter.mp hcurve).2

/-- The points of a curve are those of its series. -/
theorem points_of_mem_curves {title : String} {p : Partition} {series : List Series} {panel : Panel} {curve : Curve}
    (hpanel : panel ∈ (Figure.ofPartition title p series).panels) (hcurve : curve ∈ panel.curves) :
    curve.points = p.points curve.series panel.statistic := by
  obtain ⟨k, _, rfl⟩ := List.mem_map.mp hpanel
  obtain ⟨s, _, rfl⟩ := List.mem_map.mp (List.mem_filter.mp hcurve).1
  rfl

/-! ## The points of all sizes -/

/-- The points of one size are those of the rows of that size. -/
theorem ofSize_filterMap_point? (s : Series) (k : Statistic) (n : UInt64) (rows : List Row) :
    ofSize Prod.fst n (rows.filterMap (Row.point? s k)) = (ofSize Row.size n rows).filterMap (Row.point? s k) := by
  induction rows with
  | nil => rfl
  | cons row rest ih =>
    cases hpoint : row.point? s k with
    | none =>
      rw [List.filterMap_cons_none hpoint, ih]
      by_cases hn : row.size = n
      · rw [ofSize_cons_of_eq hn, List.filterMap_cons_none hpoint]
      · rw [ofSize_cons_of_ne hn]
    | some point =>
      have hsize := size_of_point? hpoint
      rw [List.filterMap_cons_some hpoint]
      by_cases hn : row.size = n
      · rw [ofSize_cons_of_eq hn, ofSize_cons_of_eq (hsize.trans hn), List.filterMap_cons_some hpoint, ih]
      · rw [ofSize_cons_of_ne hn, ofSize_cons_of_ne (hsize ▸ hn), ih]

/-- **The points of all sizes** are those of the rows of the dataset, in the order of their sizes; points of one size
    keep the order of the dataset. -/
theorem points_all (d : Dataset) (s : Series) (k : Statistic) :
    ((d.partition .all).points s k).Perm (d.rows.filterMap (Row.point? s k)) ∧
      ((d.partition .all).points s k).Pairwise (·.1 ≤ ·.1) ∧
      ∀ n, ((d.partition .all).points s k).filter (fun point => point.1 == n) =
        (d.rows.filterMap (Row.point? s k)).filter fun point => point.1 == n := by
  rw [points_eq, rows_partition_all]
  refine ⟨(perm_bySize d.rows).filterMap _, ?_, fun n => ?_⟩
  · refine List.pairwise_filterMap.mpr ((sorted_bySize Row.size d.rows).imp fun hle a ha b hb => ?_)
    rw [size_of_point? ha, size_of_point? hb]
    exact hle
  · show ofSize Prod.fst n _ = ofSize Prod.fst n _
    rw [ofSize_filterMap_point?, ofSize_filterMap_point?, ofSize_bySize]

/-! ## The figures of a threshold -/

/-- **The figures of a threshold split the figure of all sizes**: it shows of every series what the figure of the sizes
    up to the threshold shows and then what the figure of those above it shows. It shows every row that has the series
    once, in the order of sizes, and rows of one size in the order of the dataset. -/
theorem figures_split {c : Comparison} {threshold : UInt64} (hthreshold : c.threshold = some threshold) (d : Dataset)
    {s : Series} (hs : s ∈ c.series) (k : Statistic) :
    ∃ whole low high : FigureJob, c.figures d = [whole, low, high] ∧
      (whole.range = .all ∧ low.range = .atMost threshold ∧ high.range = .above threshold) ∧
      (∀ job ∈ c.figures d, job.figure.IsIndexed) ∧
      whole.figure.pointsOf k s = low.figure.pointsOf k s ++ high.figure.pointsOf k s ∧
      (whole.figure.pointsOf k s).Perm (d.rows.filterMap (Row.point? s k)) ∧
      (whole.figure.pointsOf k s).Pairwise (·.1 ≤ ·.1) ∧
      ∀ n, (whole.figure.pointsOf k s).filter (fun point => point.1 == n) =
        (d.rows.filterMap (Row.point? s k)).filter fun point => point.1 == n := by
  have hnodup : c.series.Nodup := nodup_newOnes [] _
  have hjobs : c.figures d = [.all, .atMost threshold, .above threshold].map (c.job d) := by
    unfold Comparison.figures Comparison.ranges
    rw [hthreshold]
  have hpoints : ∀ range, (c.job d range).figure.pointsOf k s = (d.partition range).points s k :=
    fun range => pointsOf_figure _ _ hnodup hs k
  obtain ⟨hperm, hsorted, hties⟩ := points_all d s k
  refine ⟨_, _, _, hjobs, ⟨rfl, rfl, rfl⟩, ?_, ?_, ?_, ?_, ?_⟩
  · intro job hjob
    obtain ⟨range, _, rfl⟩ := List.mem_map.mp hjob
    exact isIndexed_ofPartition _ _ hnodup
  · rw [hpoints, hpoints, hpoints, points_eq, points_eq, points_eq, rows_partition_eq_append d threshold,
      List.filterMap_append]
  · rw [hpoints]
    exact hperm
  · rw [hpoints]
    exact hsorted
  · rw [hpoints]
    exact hties

/-- Two rows that are not in the order of their sizes, on either side of a threshold. -/
theorem figures_split_pair :
    let c : Comparison :=
      { name := "rtt", title := "Round trip", selections := [⟨.rdmaSendRecv, some [.rtt]⟩], threshold := some 1024 }
    let row (size : UInt64) (x : Float) : Row := ⟨⟨.rdmaSendRecv, size⟩, .ofFn fun _ => some ⟨x, x, x⟩⟩
    let d : Dataset := ⟨[row 4096 2.0, row 256 1.0]⟩
    c.threshold = some 1024 ∧ ⟨.rdmaSendRecv, .rtt⟩ ∈ c.series ∧
      ∃ whole low high : FigureJob, c.figures d = [whole, low, high] ∧
        whole.figure.pointsOf .max ⟨.rdmaSendRecv, .rtt⟩ = [(256, 1.0), (4096, 2.0)] ∧
        whole.figure.pointsOf .max ⟨.rdmaSendRecv, .rtt⟩ =
          low.figure.pointsOf .max ⟨.rdmaSendRecv, .rtt⟩ ++ high.figure.pointsOf .max ⟨.rdmaSendRecv, .rtt⟩ := by
  intro c row d
  have hthreshold : c.threshold = some 1024 := rfl
  have hs : ⟨.rdmaSendRecv, .rtt⟩ ∈ c.series := by decide
  have hraw : d.rows.filterMap (Row.point? ⟨.rdmaSendRecv, .rtt⟩ .max) = [(4096, 2.0), (256, 1.0)] := rfl
  obtain ⟨whole, low, high, hjobs, _, _, hsplit, _, hsorted, hties⟩ := figures_split hthreshold d hs .max
  refine ⟨hthreshold, hs, whole, low, high, hjobs, ?_, hsplit⟩
  have horder : SortedBySize Prod.fst [((256 : UInt64), (1.0 : Float)), (4096, 2.0)] := by
    simp [SortedBySize]
  -- both are sorted, and have the same points of each size
  refine eq_of_sortedBySize hsorted horder fun n => ?_
  rw [ofSize, hties n, hraw]
  by_cases hn : n = 256
  · subst hn
    rfl
  · have hne : (256 : UInt64) ≠ n := Ne.symm hn
    by_cases hm : n = 4096
    · subst hm
      rfl
    · have hme : (4096 : UInt64) ≠ n := Ne.symm hm
      simp [ofSize, hne, hme]

end LatencyReport
