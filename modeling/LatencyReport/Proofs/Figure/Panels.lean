import LatencyReport.Proofs.Figure.Points
import LatencyReport.Proofs.Palette.Numbering

/-!
# `Proofs.Figure.Panels` — the panels of a figure, side by side

The panels of a figure are found one by one, each with the points of its own statistic. Still they agree: a row has a
point of a series whatever the statistic is, so **every panel shows the same series in the same order, at the same message
sizes** (`ofPartition_eq`, `map_fst_points`).

The curves get their colors panel by panel, from numbers that go on where the panel before left them. What is asked for in
a panel was answered in the first one, so the legend of a panel is told by the figure as a whole (`legendsFrom_eq`): in a
figure of a partition, a series has in every panel the color of its place among the series that are shown
(`panels_agree`).

## Contents

* `Row.has`, `Partition.sizesOf`, `Partition.shown` — what a partition has of a series;
* `map_fst_points`, `ofPartition_eq`, `mem_shown` — the panels of a partition;
* `legendsFrom_eq` — the legends of panels that are drawn one after the other;
* `panels_agree` — the figure of a partition.
-/

namespace LatencyReport

/-! ## What a partition has of a series -/

/-- Whether a row has something of a series: it is a row of the mechanism, with a summary of the phase. -/
def Row.has (s : Series) (row : Row) : Bool :=
  row.experiment.label == s.label && (row.phases.get? s.phase).isSome

namespace Partition

/-- The message sizes of the rows that have something of a series. -/
def sizesOf (p : Partition) (s : Series) : List UInt64 :=
  (p.rows.filter (Row.has s)).map Row.size

/-- The series of which a row has something. -/
def shown (p : Partition) (series : List Series) : List Series :=
  series.filter fun s => !(p.sizesOf s).isEmpty

end Partition

theorem map_fst_point? (s : Series) (k : Statistic) (row : Row) :
    (row.point? s k).map (·.1) = if row.has s then some row.size else none := by
  unfold Row.point? Row.has
  by_cases hlabel : row.experiment.label = s.label
  · cases row.phases.get? s.phase <;> simp [hlabel]
  · simp [hlabel]

/-- **The points of a series are at the same message sizes for every statistic.** -/
theorem map_fst_points (p : Partition) (s : Series) (k : Statistic) : (p.points s k).map (·.1) = p.sizesOf s := by
  rw [points_eq, List.map_filterMap, Partition.sizesOf, ← List.filterMap_eq_map, List.filterMap_filter]
  congr 1
  funext row
  exact map_fst_point? s k row

/-- **The panel of a statistic** shows the series of which a row has something. -/
theorem ofPartition_eq (p : Partition) (series : List Series) (k : Statistic) :
    Panel.ofPartition p series k = ⟨k, (p.shown series).map fun s => ⟨s, p.points s k⟩⟩ := by
  have hshown : (series.filter fun s => !(p.points s k).isEmpty) = p.shown series := by
    apply List.filter_congr
    intro s _
    rw [← map_fst_points p s k, List.isEmpty_map]
  rw [Panel.ofPartition, List.filter_map, ← hshown]
  rfl

/-- What is shown is what has a point, whatever the statistic is. -/
theorem mem_shown (p : Partition) (series : List Series) {s : Series} (k : Statistic) :
    s ∈ p.shown series ↔ s ∈ series ∧ p.points s k ≠ [] := by
  rw [Partition.shown, List.mem_filter, ← map_fst_points p s k]
  simp

theorem series_ofPartition (p : Partition) (series : List Series) (k : Statistic) :
    (Panel.ofPartition p series k).series = p.shown series := by
  rw [ofPartition_eq, Panel.series, List.map_map]
  exact List.map_id _

/-! ## Legends -/

/-- **The legends of panels** say of every series what would be answered in the end. -/
theorem legendsFrom_eq (c : Colors) (panels : List Panel) :
    Figure.legendsFrom c panels = panels.map fun panel => panel.series.map fun s =>
      (s, ((c.colorAll (panels.flatMap Panel.series)).2.color s).1) := by
  induction panels generalizing c with
  | nil => rfl
  | cons panel rest ih =>
    have hlegend : (panel.legend c).1 = panel.series.map fun s =>
        (s, ((c.colorAll ((panel :: rest).flatMap Panel.series)).2.color s).1) := by
      show panel.series.zip (c.colorAll panel.series).1 = _
      rw [Colors.fst_colorAll, ← List.map_prod_left_eq_zip, List.flatMap_cons, Colors.colorAll_append]
      apply List.map_congr_left
      intro s hs
      exact congrArg (Prod.mk s) (c.fst_color_of_mem hs _).symm
    show (panel.legend c).1 :: Figure.legendsFrom (c.colorAll panel.series).2 rest = _
    rw [hlegend, ih, ← Colors.colorAll_append]
    rfl

/-- Series without repetitions that are asked for first have their places as numbers. -/
theorem distinctBefore_append_of_nodup {shown : List Series} (hnodup : shown.Nodup) {s : Series} (hs : s ∈ shown)
    (more : List Series) : distinctBefore (shown ++ more) s = shown.idxOf s := by
  obtain ⟨before, behind, rfl, hnew⟩ := List.eq_append_cons_of_mem hs
  have hbefore : before.Nodup := hnodup.sublist (List.sublist_append_left _ _)
  rw [List.append_assoc, List.cons_append, distinctBefore_append_cons hnew, List.toFinset_card_of_nodup hbefore,
    List.idxOf_append_of_notMem hnew, List.idxOf_cons_self, Nat.add_zero]

/-! ## The figure of a partition -/

/-- **The panels of a figure agree.** For every partition and all series without repetitions, the panels are those of
    mean, p99 and maximum, and all of them show the same series: those that have a point, in the order in which they were
    given. In every panel a series has its points at the same message sizes in the same order, and it has the same color,
    which is the one of its place among the series that are shown. -/
theorem panels_agree (title : String) (p : Partition) {series : List Series} (hnodup : series.Nodup) :
    let figure := Figure.ofPartition title p series
    ∃ shown : List Series, shown.Sublist series ∧
      (∀ s k, s ∈ shown ↔ s ∈ series ∧ p.points s k ≠ []) ∧
      figure.panels.map (·.statistic) = [.mean, .p99, .max] ∧
      (∀ panel ∈ figure.panels, panel.series = shown ∧
        ∀ curve ∈ panel.curves, curve.points = p.points curve.series panel.statistic ∧
          curve.points.map (·.1) = p.sizesOf curve.series) ∧
      figure.legends = figure.panels.map fun _ => shown.map fun s => (s, colorAt (shown.idxOf s)) := by
  intro figure
  have hseries : ∀ panel ∈ figure.panels, panel.series = p.shown series := by
    intro panel hpanel
    obtain ⟨k, _, rfl⟩ := List.mem_map.mp hpanel
    exact series_ofPartition p series k
  refine ⟨p.shown series, List.filter_sublist, fun s k => mem_shown p series k, rfl, ?_, ?_⟩
  · intro panel hpanel
    refine ⟨hseries panel hpanel, ?_⟩
    intro curve hcurve
    have hpoints := points_of_mem_curves hpanel hcurve
    refine ⟨hpoints, ?_⟩
    rw [hpoints]
    apply map_fst_points
  · -- the series of the first panel are asked for before those of the others
    have hcalls : figure.panels.flatMap Panel.series = p.shown series ++ (p.shown series ++ p.shown series) := by
      show (Panel.ofPartition p series .mean).series ++ ((Panel.ofPartition p series .p99).series ++
        ((Panel.ofPartition p series .max).series ++ [])) = _
      simp only [series_ofPartition, List.append_nil]
    have hshown : (p.shown series).Nodup := hnodup.sublist List.filter_sublist
    rw [Figure.legends, legendsFrom_eq, hcalls]
    apply List.map_congr_left
    intro panel hpanel
    rw [hseries panel hpanel]
    apply List.map_congr_left
    intro s hs
    rw [Colors.fst_color_colorAll, distinctBefore_append_of_nodup hshown hs]

/-- Three series, the second of which has no point: the third has the second color in every panel. -/
theorem panels_agree_of_missing :
    let row (label : Label) (size : UInt64) (x : Float) : Row := ⟨⟨label, size⟩, .ofFn fun _ => some ⟨x, x, x⟩⟩
    let p : Partition := ⟨.all, [row .mmapIo 64 1.0, row .rdmaSendRecv 256 2.0, row .mmapIo 1024 3.0]⟩
    let rtt : Series := ⟨.rdmaSendRecv, .rtt⟩
    let msync : Series := ⟨.mmapIo, .msync⟩
    let series := [rtt, ⟨.syncIo, .write⟩, msync]
    series.Nodup ∧ (Figure.ofPartition "" p series).legends =
      List.replicate 3 [(rtt, colorAt 0), (msync, colorAt 1)] := by
  intro row p rtt msync series
  have hnodup : series.Nodup := by decide
  obtain ⟨shown, _, _, _, hpanels, hlegends⟩ := panels_agree "" p hnodup
  have hshown : shown = [rtt, msync] := (hpanels _ List.mem_cons_self).1.symm
  refine ⟨hnodup, ?_⟩
  rw [hlegends, hshown]
  rfl

end LatencyReport
