import LatencyReport.Proofs.Binary64.NotNegative
import LatencyReport.Proofs.Records.Columns
import LatencyReport.Proofs.Records.Table

/-!
# `Proofs.Records.Durations` — every row has a duration in every column

A line becomes a row only if it has as many cells as there are columns and each of them is a duration, so **every table
that is read is full** (`isFull_of_parse`): a value for every row and column, each of them finite and not below zero. A
column of a full table has a sample for every row (`IsFull.exists_samples`), and nothing that is looked up in it is
missing.

## Contents

* `isDuration_of_duration?`, `durations_spec`, `lineRow?_spec` — cells, rows and lines;
* `Records.IsFull`, `isFull_of_parse` — tables;
* `IsFull.exists_samples` — columns.
-/

namespace LatencyReport

/-! ## Rows -/

theorem isDuration_of_duration? {cell : List Char} {x : Float} (h : duration? cell = some x) : IsDuration x := by
  unfold duration? at h
  cases hnumeral : Decimal.readNumeral? cell with
  | none =>
    rw [hnumeral] at h
    cases h
  | some numeral =>
    simp only [hnumeral] at h
    split at h
    · rename_i htest
      obtain rfl := Option.some.inj h
      obtain ⟨hfinite, hnonneg⟩ := (Bool.and_eq_true _ _).mp htest
      exact ⟨hfinite, of_decide_eq_true hnonneg⟩
    · cases h

theorem durations_spec {columns : List String} {cells : List (List Char)} {xs : List Float}
    (hlength : cells.length = columns.length) (h : durations columns cells = .ok xs) :
    xs.length = columns.length ∧ ∀ x ∈ xs, IsDuration x := by
  induction columns generalizing cells xs with
  | nil =>
    unfold durations at h
    obtain rfl := Except.ok.inj h
    exact ⟨rfl, fun x hx => absurd hx List.not_mem_nil⟩
  | cons column columns ih =>
    cases cells with
    | nil => cases hlength
    | cons cell cells =>
      unfold durations at h
      cases hcell : duration? cell with
      | none =>
        rw [hcell] at h
        cases h
      | some x =>
        cases hrest : durations columns cells with
        | error fault =>
          simp only [hcell, hrest] at h
          cases h
        | ok rest =>
          simp only [hcell, hrest] at h
          obtain rfl := Except.ok.inj h
          obtain ⟨hcount, hall⟩ := ih (Nat.succ.inj hlength) hrest
          refine ⟨congrArg Nat.succ hcount, ?_⟩
          rintro y hy
          rcases List.mem_cons.mp hy with rfl | hy
          · exact isDuration_of_duration? hcell
          · exact hall y hy

/-- **A row has a duration for every column.** -/
theorem lineRow?_spec {δ : Delimiter} {columns : List String} {bytes : List UInt8} {row : List Float}
    (h : lineRow? δ columns bytes = some row) : row.length = columns.length ∧ ∀ x ∈ row, IsDuration x := by
  unfold lineRow? Line.row at h
  cases hcells : Line.cells δ ⟨0, bytes⟩ with
  | error fault => simp [hcells] at h
  | ok cells =>
    cases cells with
    | nil => simp [hcells] at h
    | cons first others =>
      cases hrow : rowOfCells columns (first :: others) with
      | error fault => simp [hcells, hrow, Except.map] at h
      | ok found =>
        simp only [hcells, hrow, Except.map, Option.some.injEq] at h
        subst h
        unfold rowOfCells at hrow
        split at hrow
        · rename_i hlength
          exact durations_spec hlength hrow
        · cases hrow

/-! ## Tables -/

namespace Records

/-- A table with a duration in every row and column. -/
structure IsFull (R : Records) : Prop where
  length_eq : ∀ row ∈ R.rows, row.length = R.columns.length
  isDuration : ∀ row ∈ R.rows, ∀ x ∈ row, IsDuration x

/-- **Every table that is read is full.** -/
theorem isFull_of_parse {path : Path} {data : List UInt8} {R : Records} (h : (parse path data).records? = some R) :
    R.IsFull := by
  obtain ⟨δ, before, header, after, cells, hδ, hat⟩ := exists_headerAt h
  rw [parse_of_headerAt path hδ hat, Option.some.injEq] at h
  subst h
  constructor
  · intro row hrow
    obtain ⟨line, _, hline⟩ := List.mem_filterMap.mp hrow
    exact (lineRow?_spec hline).1
  · intro row hrow
    obtain ⟨line, _, hline⟩ := List.mem_filterMap.mp hrow
    exact (lineRow?_spec hline).2

/-- **A column has a sample for every row**, and all of them are durations. -/
theorem IsFull.exists_samples {R : Records} (h : R.IsFull) {column : String} (hcolumn : column ∈ R.columns) :
    ∃ samples, R.samples? column = some samples ∧ samples.length = R.rows.length ∧ ∀ x ∈ samples, IsDuration x := by
  obtain ⟨i, hi, hlt⟩ := exists_columnIndex? hcolumn
  have hreach : ∀ row ∈ R.rows, i < row.length := by
    intro row hrow
    rw [h.length_eq row hrow]
    exact hlt
  refine ⟨_, samples?_eq_some_iff.mpr ⟨i, hi, hreach, rfl⟩, ?_, ?_⟩
  · rw [List.filterMap_length_eq_length]
    intro row hrow
    rw [isSome_getElem?]
    exact hreach row hrow
  · intro x hx
    obtain ⟨row, hrow, hcell⟩ := List.mem_filterMap.mp hx
    exact h.isDuration row hrow x (List.mem_of_getElem? hcell)

end Records

end LatencyReport
