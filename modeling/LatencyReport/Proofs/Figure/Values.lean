import LatencyReport.Proofs.Dataset.Spelling
import LatencyReport.Proofs.Dataset.Table
import LatencyReport.Proofs.Json.Values
import LatencyReport.Proofs.Report.Plan

/-!
# `Proofs.Figure.Values` — the values of a picture read back

Beside a picture stand the values that it shows, as JSON text. **They say the whole figure**: its title, whatever
characters it has, its panels in their order, and every curve with its series and its points. Data of a figure is read
by the names of its members (`Figure.ofJson?`), and what was written is what is read (`Figure.ofJson?_toJson`). The
text of the data is readable as long as the figure shows finite numbers only; message sizes are integers of 64 bits, and
no reader has to take them for numbers of another kind.

## Contents

* `Json.member?`, `Json.text?`, `Json.items?` — parts of data;
* `Series.ofJson?`, `Curve.ofJson?`, `Panel.ofJson?`, `Figure.ofJson?` — data as figures;
* `Figure.IsFinite`, `Figure.isReadable_toJson` — figures that have a text;
* `Figure.decode`, `Figure.decode_encode` — bytes as figures;
* `values_decode` — the values of a partition.
-/

namespace LatencyReport

open Storage

/-! ## Data as figures -/

namespace Json

/-- The value of a member, the first one of that name. -/
def member? (name : String) : Json → Option Json
  | .obj members => members.lookup name
  | _ => none

/-- The text of a string. -/
def text? : Json → Option String
  | .str s => some s
  | _ => none

/-- The items of an array. -/
def items? : Json → Option (List Json)
  | .arr items => some items
  | _ => none

end Json

/-- The statistic with this name. -/
def Statistic.ofName? (name : String) : Option Statistic :=
  all.find? (·.name == name)

/-- The series that data says. -/
def Series.ofJson? (data : Json) : Option Series := do
  let label ← Label.ofName? (← (← data.member? "label").text?)
  let phase ← Phase.ofColumn? (← (← data.member? "phase").text?)
  return ⟨label, phase⟩

/-- The point that data says: an integer of 64 bits and a number that is none. -/
def Curve.pointOfJson? : Json → Option (UInt64 × Float)
  | .arr [.int size, .float value] =>
    if 0 ≤ size ∧ size < UInt64.size then some (UInt64.ofNat size.toNat, value) else none
  | _ => none

/-- The curve that data says. -/
def Curve.ofJson? (data : Json) : Option Curve := do
  let series ← Series.ofJson? (← data.member? "series")
  let points ← (← (← data.member? "points").items?).mapM pointOfJson?
  return ⟨series, points⟩

/-- The panel that data says. -/
def Panel.ofJson? (data : Json) : Option Panel := do
  let statistic ← Statistic.ofName? (← (← data.member? "statistic").text?)
  let curves ← (← (← data.member? "series").items?).mapM Curve.ofJson?
  return ⟨statistic, curves⟩

/-- The figure that data says. -/
def Figure.ofJson? (data : Json) : Option Figure := do
  let title ← (← data.member? "title").text?
  let panels ← (← (← data.member? "statistics").items?).mapM Panel.ofJson?
  return ⟨title, panels⟩

/-! ## Figures as data, and back -/

/-- Items that are read back one by one are read back together. -/
theorem mapM_map_eq_some {α β : Type} {read : β → Option α} {write : α → β} (xs : List α)
    (h : ∀ x, read (write x) = some x) : (xs.map write).mapM read = some xs := by
  induction xs with
  | nil => rfl
  | cons x rest ih =>
    rw [List.map_cons, List.mapM_cons, h, ih]
    rfl

@[simp] theorem Statistic.ofName?_name (k : Statistic) : ofName? k.name = some k := by
  cases k <;> rfl

@[simp] theorem Series.ofJson?_toJson (s : Series) : ofJson? s.toJson = some s := by
  simp [ofJson?, toJson, Json.member?, Json.text?, List.lookup]

theorem Curve.pointOfJson?_point (point : UInt64 × Float) :
    pointOfJson? (.arr [.int point.1.toNat, .float point.2]) = some point := by
  obtain ⟨size, value⟩ := point
  have hsize : (0 : ℤ) ≤ size.toNat ∧ (size.toNat : ℤ) < UInt64.size :=
    ⟨Int.natCast_nonneg _, Int.ofNat_lt.mpr size.toNat_lt⟩
  rw [pointOfJson?, if_pos hsize, Int.toNat_natCast, UInt64.ofNat_toNat]

theorem Curve.ofJson?_toJson (c : Curve) : ofJson? c.toJson = some c := by
  have hpoints := mapM_map_eq_some c.points pointOfJson?_point
  simp [ofJson?, toJson, Json.member?, Json.items?, List.lookup, hpoints]

theorem Panel.ofJson?_toJson (p : Panel) : ofJson? p.toJson = some p := by
  have hcurves := mapM_map_eq_some p.curves Curve.ofJson?_toJson
  simp [ofJson?, toJson, Json.member?, Json.text?, Json.items?, List.lookup, hcurves]

/-- **The data of a figure says the figure.** -/
theorem Figure.ofJson?_toJson (f : Figure) : ofJson? f.toJson = some f := by
  have hpanels := mapM_map_eq_some f.panels Panel.ofJson?_toJson
  simp [ofJson?, toJson, Json.member?, Json.text?, Json.items?, List.lookup, hpanels]

/-! ## Figures that have a text -/

/-- A figure that shows finite numbers only. -/
def Figure.IsFinite (f : Figure) : Prop :=
  ∀ panel ∈ f.panels, ∀ curve ∈ panel.curves, ∀ point ∈ curve.points, point.2.isFinite = true

theorem Json.areReadable_map {α : Type} {write : α → Json} {xs : List α} (h : ∀ x ∈ xs, (write x).IsReadable) :
    AreReadable (xs.map write) := by
  induction xs with
  | nil => trivial
  | cons x rest ih =>
    rw [List.forall_mem_cons] at h
    exact ⟨h.1, ih h.2⟩

theorem Curve.isReadable_toJson {c : Curve} (h : ∀ point ∈ c.points, point.2.isFinite = true) :
    c.toJson.IsReadable := by
  refine ⟨⟨trivial, trivial, trivial⟩, Json.areReadable_map fun point hpoint => ⟨?_, h point hpoint, trivial⟩, trivial⟩
  have hsize := point.1.toNat_lt
  exact ⟨by omega, by omega⟩

theorem Figure.isReadable_toJson {f : Figure} (h : f.IsFinite) : f.toJson.IsReadable := by
  refine ⟨trivial, Json.areReadable_map fun panel hpanel => ?_, trivial⟩
  exact ⟨trivial, Json.areReadable_map fun curve hcurve => Curve.isReadable_toJson (h panel hpanel curve hcurve), trivial⟩

/-- The figure that a file says, if it is text. -/
def Figure.decode (bytes : List UInt8) : Option Figure :=
  match Utf8.decode bytes with
  | .error _ => none
  | .ok text => (Json.parse? (String.ofList text)).bind ofJson?

/-- **A figure is read back from the text of its data.** -/
theorem Figure.decode_encode {f : Figure} (h : f.IsFinite) :
    decode (Utf8.encode f.toJson.pretty.toList) = some f := by
  rw [decode, Utf8.decode_encode]
  simp only [String.ofList_toList, Json.parse?_pretty (isReadable_toJson h), Option.bind_some, ofJson?_toJson]

/-! ## The values of a partition -/

/-- The statistics of a partition are numbers. -/
def Partition.IsFinite (p : Partition) : Prop :=
  ∀ row ∈ p.rows, ∀ phase summary, row.phases.get? phase = some summary → summary.IsFinite

theorem Partition.isFinite_of_mem_points {p : Partition} (h : p.IsFinite) {s : Series} {k : Statistic}
    {point : UInt64 × Float} (hpoint : point ∈ p.points s k) : point.2.isFinite = true := by
  rw [points_eq, List.mem_filterMap] at hpoint
  obtain ⟨row, hrow, hpoint⟩ := hpoint
  rw [Row.point?] at hpoint
  split at hpoint
  · obtain ⟨summary, hsummary, rfl⟩ := Option.map_eq_some_iff.mp hpoint
    exact h row hrow s.phase summary hsummary k
  · cases hpoint

theorem Partition.isFinite_figure {p : Partition} (h : p.IsFinite) (title : String) (series : List Series) :
    (Figure.ofPartition title p series).IsFinite := by
  intro panel hpanel curve hcurve point hpoint
  obtain ⟨k, _, rfl⟩ := List.mem_map.mp hpanel
  obtain ⟨s, _, rfl⟩ := List.mem_map.mp (List.mem_of_mem_filter hcurve)
  exact Partition.isFinite_of_mem_points h hpoint

/-- **What is written of a figure says the figure.** For every title, every partition whose statistics are numbers and
    all series, the text of the data is read as the title as it was, the mean, the 99th percentile and the maximum in
    this order, and for each of them the series that have a point, in their order, with the very points of the
    partition. What is written into a file is this text. -/
theorem values_decode (title : String) {p : Partition} (hfinite : p.IsFinite) (series : List Series) :
    let values := (Figure.ofPartition title p series).toJson
    Json.parse? values.pretty = some values ∧
      Figure.decode (Utf8.encode values.pretty.toList) =
        some ⟨title, [Statistic.mean, .p99, .max].map fun k =>
          ⟨k, (series.map fun s => ⟨s, p.points s k⟩).filter fun (curve : Curve) => !curve.points.isEmpty⟩⟩ ∧
      ∀ (dir : Path) (stem : String) (path : Path) (w : World),
        ((writePlotData dir stem values : Run _) w).1 = .ok path →
          ((writePlotData dir stem values : Run _) w).2.storage.read (plotDataPath dir stem) =
            .ok (Utf8.encode values.pretty.toList) := by
  intro values
  have hfigure := Partition.isFinite_figure hfinite title series
  refine ⟨Json.parse?_pretty (Figure.isReadable_toJson hfigure), Figure.decode_encode hfigure, ?_⟩
  intro dir stem path w hwritten
  exact read_of_writePlotData hwritten

/-- A title with a quotation mark, a backslash, controls and a character beyond the basic plane; the greatest message
    size, the least number there is and a zero with a sign; and a series without a point. -/
theorem values_decode_of_title :
    let title := "\x22\\\n\x01𝄞"
    let p : Partition := ⟨.all, [⟨⟨.rdmaSendRecv, 18446744073709551615⟩, .ofFn fun phase =>
      if phase = .rtt then some ⟨5e-324, -0.0, 1e300⟩ else none⟩]⟩
    let shown (k : Statistic) (x : Float) : Panel := ⟨k, [⟨⟨.rdmaSendRecv, .rtt⟩, [(18446744073709551615, x)]⟩]⟩
    p.IsFinite ∧
      Figure.decode (Utf8.encode
          (Figure.ofPartition title p [⟨.syncIo, .write⟩, ⟨.rdmaSendRecv, .rtt⟩]).toJson.pretty.toList) =
        some ⟨title, [shown .mean 5e-324, shown .p99 (-0.0), shown .max 1e300]⟩ := by
  intro title p shown
  have hfinite : p.IsFinite := by
    intro row hrow phase summary hsummary
    obtain rfl := List.mem_singleton.mp hrow
    rw [PhaseMap.get?_ofFn] at hsummary
    split at hsummary
    · obtain rfl := Option.some.inj hsummary
      rintro (_ | _ | _) <;> decide +kernel
    · cases hsummary
  obtain ⟨_, hdecode, _⟩ := values_decode title hfinite [⟨.syncIo, .write⟩, ⟨.rdmaSendRecv, .rtt⟩]
  exact ⟨hfinite, hdecode.trans rfl⟩

end LatencyReport
