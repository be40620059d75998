import LatencyReport.Proofs.Records.Durations

/-!
# `Proofs.Records.Lookup` — what is looked up in a table is there

A column is found by its name, and what stands in it is then taken out of the rows by the place of the name alone. Nothing
looks again whether a row reaches that far. **In a table that was read every row does** (`IsFull.lt_length`): it was taken
in only with as many durations as there are columns.

So the two ways to look something up agree. A column has a sample for every row, and the value of a row in it is the sample
of that row (`get?_eq_getElem?`); nothing is missing but names that are no column, and rows behind the last one
(`lookups_of_parse`).

## Contents

* `FirstAt`, `columnIndex?_eq_some_iff`, `samples?_eq_some_iff_firstAt` — the first column of a name;
* `get?_eq_bind`, `get?_eq_getElem?` — the value of a row;
* `IsFull.lt_length`, `IsFull.samples?_eq_none_iff`, `IsFull.get?_eq_none_iff` — full tables;
* `columns_ne_nil_of_parse`, `lookups_of_parse` — tables that were read.
-/

namespace LatencyReport

/-! ## The first column of a name -/

/-- **Every element is looked up** when the answers are these values, one for each element. -/
theorem mapM_eq_some_iff_map {α β : Type} {f : α → Option β} {xs : List α} {ys : List β} :
    xs.mapM f = some ys ↔ xs.map f = ys.map some := by
  rw [mapM_eq_some_iff]
  constructor
  · rintro ⟨hall, rfl⟩
    have hanswers : ∀ answer ∈ xs.map f, answer.isSome = true := List.forall_mem_map.mpr hall
    rw [List.map_filterMap_some_eq_filter_map_isSome, List.filter_eq_self.mpr hanswers]
  · intro h
    constructor
    · intro x hx
      obtain ⟨y, _, hy⟩ := List.mem_map.mp (h ▸ List.mem_map_of_mem hx)
      exact Option.isSome_of_eq_some hy.symm
    · have hvalues : xs.filterMap f = (xs.map f).filterMap id := by rw [List.filterMap_map, Function.id_comp]
      rw [hvalues, h, List.filterMap_map]
      exact List.filterMap_some

namespace Records

/-- A place is the first one at which a column has this name. -/
structure FirstAt (R : Records) (column : String) (i : Nat) : Prop where
  getElem?_eq : R.columns[i]? = some column
  first : ∀ j < i, R.columns[j]? ≠ some column

variable {R : Records} {column : String}

theorem columnIndex?_eq_some_iff {i : Nat} : R.columnIndex? column = some i ↔ R.FirstAt column i := by
  unfold columnIndex?
  rw [List.findIdx?_eq_some_iff_getElem]
  constructor
  · rintro ⟨hlt, hthere, hbefore⟩
    refine ⟨List.getElem?_eq_some_iff.mpr ⟨hlt, beq_iff_eq.mp hthere⟩, fun j hj hcolumn => ?_⟩
    obtain ⟨hjlt, hcolumn⟩ := List.getElem?_eq_some_iff.mp hcolumn
    exact hbefore j hj (beq_iff_eq.mpr hcolumn)
  · rintro ⟨hthere, hbefore⟩
    obtain ⟨hlt, hthere⟩ := List.getElem?_eq_some_iff.mp hthere
    refine ⟨hlt, beq_iff_eq.mpr hthere, fun j hj hcolumn => ?_⟩
    exact hbefore j hj (List.getElem?_eq_some_iff.mpr ⟨hj.trans hlt, beq_iff_eq.mp hcolumn⟩)

/-- **The samples of a name** stand in the first column that has it, one in every row. -/
theorem samples?_eq_some_iff_firstAt {samples : List Float} :
    R.samples? column = some samples ↔ ∃ i, R.FirstAt column i ∧ R.rows.map (·[i]?) = samples.map some := by
  simp only [← columnIndex?_eq_some_iff, ← mapM_eq_some_iff_map]
  unfold samples?
  cases R.columnIndex? column with
  | none => simp only [reduceCtorEq, false_and, exists_false]
  | some i => simp only [Option.some.injEq, exists_eq_left']

theorem get?_eq_bind {i : Nat} (h : R.FirstAt column i) (row : Nat) :
    R.get? row column = R.rows[row]?.bind (·[i]?) := by
  unfold get?
  rw [columnIndex?_eq_some_iff.mpr h]
  cases R.rows[row]? <;> rfl

theorem get?_of_not_mem (h : column ∉ R.columns) (row : Nat) : R.get? row column = none := by
  unfold get?
  rw [columnIndex?_eq_none h]

theorem length_of_samples? {samples : List Float} (h : R.samples? column = some samples) :
    samples.length = R.rows.length := by
  obtain ⟨i, -, hcells⟩ := samples?_eq_some_iff_firstAt.mp h
  have hlength := congrArg List.length hcells
  rw [List.length_map, List.length_map] at hlength
  exact hlength.symm

/-- **The value of a row is its sample**, if there are samples. -/
theorem get?_eq_getElem? {samples : List Float} (h : R.samples? column = some samples) (row : Nat) :
    R.get? row column = samples[row]? := by
  obtain ⟨i, hi, hcells⟩ := samples?_eq_some_iff_firstAt.mp h
  have hcell : R.rows[row]?.map (·[i]?) = samples[row]?.map some := by
    rw [← List.getElem?_map, ← List.getElem?_map, hcells]
  rw [get?_eq_bind hi]
  cases hrow : R.rows[row]? with
  | none =>
    rw [hrow] at hcell
    exact (Option.map_eq_none_iff.mp hcell.symm).symm
  | some values =>
    rw [hrow] at hcell
    obtain ⟨x, hx, hvalue⟩ := Option.map_eq_some_iff.mp hcell.symm
    rw [hx]
    exact hvalue.symm

/-! ## Full tables -/

/-- **Every row reaches as far as any column.** -/
theorem IsFull.lt_length {i : Nat} (h : R.IsFull) (hi : R.FirstAt column i) : ∀ row ∈ R.rows, i < row.length := by
  intro row hrow
  obtain ⟨hlt, -⟩ := List.getElem?_eq_some_iff.mp hi.getElem?_eq
  rwa [h.length_eq row hrow]

theorem IsFull.samples?_eq_none_iff (h : R.IsFull) : R.samples? column = none ↔ column ∉ R.columns := by
  refine ⟨fun hnone hcolumn => ?_, samples?_eq_none⟩
  obtain ⟨samples, hsamples, -⟩ := h.exists_samples hcolumn
  rw [hnone] at hsamples
  cases hsamples

/-- A value is missing only of a name that is no column, and behind the last row. -/
theorem IsFull.get?_eq_none_iff (h : R.IsFull) (row : Nat) :
    R.get? row column = none ↔ column ∉ R.columns ∨ R.rows.length ≤ row := by
  by_cases hcolumn : column ∈ R.columns
  · obtain ⟨samples, hsamples, hlength, -⟩ := h.exists_samples hcolumn
    rw [get?_eq_getElem? hsamples, List.getElem?_eq_none_iff, hlength, or_iff_right (not_not.mpr hcolumn)]
  · simp only [get?_of_not_mem hcolumn, hcolumn, not_false_eq_true, true_or]

/-! ## Tables that were read -/

theorem columns_ne_nil_of_parse {path : Path} {data : List UInt8} (h : (parse path data).records? = some R) :
    R.columns ≠ [] := by
  obtain ⟨δ, before, header, after, cells, hδ, hat⟩ := exists_headerAt h
  rw [parse_of_headerAt path hδ hat, Option.some.injEq] at h
  rw [← h]
  exact mt List.map_eq_nil_iff.mp hat.cells_ne

/-- **Nothing that is looked up in a table that was read is out of reach.** The table of any content has a column, and every
    row has a duration for each of them: as many values as there are columns, all finite and not below zero. So for every
    name: the place at which it is found is the first one at which it stands among the columns, and every row reaches that
    far. There are samples exactly if the name is a column; then there is one for every row, the one that stands at that
    place, and the value of a row is its sample. There is no value exactly if the name is no column or the row is behind
    the last one. -/
theorem lookups_of_parse {path : Path} {data : List UInt8} {R : Records} (h : (parse path data).records? = some R) :
    R.columns ≠ [] ∧
    (∀ row ∈ R.rows, row.length = R.columns.length ∧ ∀ x ∈ row, x.isFinite = true ∧ 0 ≤ x) ∧
    ∀ column,
      (∀ i, R.columnIndex? column = some i → R.FirstAt column i ∧ (∀ row ∈ R.rows, i < row.length) ∧
        ∀ row, R.get? row column = R.rows[row]?.bind (·[i]?)) ∧
      (R.columnIndex? column = none ↔ column ∉ R.columns) ∧
      (R.samples? column = none ↔ column ∉ R.columns) ∧
      (∀ samples, R.samples? column = some samples →
        samples.length = R.rows.length ∧ ∀ row, R.get? row column = samples[row]?) ∧
      ∀ row, R.get? row column = none ↔ column ∉ R.columns ∨ R.rows.length ≤ row := by
  have hfull := isFull_of_parse h
  refine ⟨columns_ne_nil_of_parse h, fun row hrow => ⟨hfull.length_eq row hrow, hfull.isDuration row hrow⟩,
    fun column => ⟨fun i hi => ?_, ⟨?_, columnIndex?_eq_none⟩, hfull.samples?_eq_none_iff,
      fun samples hsamples => ⟨length_of_samples? hsamples, get?_eq_getElem? hsamples⟩, hfull.get?_eq_none_iff⟩⟩
  · have hfirst := columnIndex?_eq_some_iff.mp hi
    exact ⟨hfirst, hfull.lt_length hfirst, get?_eq_bind hfirst⟩
  · intro hnone hcolumn
    obtain ⟨i, hi, -⟩ := exists_columnIndex? hcolumn
    rw [hnone] at hi
    cases hi

/-- A name that stands in two columns, and rows that are left out: one has no number in it, one an infinite one, and one a
    cell too many. -/
theorem lookups_of_parse_twice :
    let data := Utf8.encode "x y x\n1 2 3\nnan 0 0\n0 inf 0\n4 5 6 7\n\n7 8 9\n".toList
    let R : Records := ⟨⟨[]⟩, ["x", "y", "x"], [[1, 2, 3], [7, 8, 9]]⟩
    (parse ⟨[]⟩ data).records? = some R ∧ R.samples? "x" = some [1, 7] ∧ R.get? 1 "x" = some 7 ∧ R.get? 2 "x" = none ∧
      R.samples? "z" = none := by
  intro data R
  have hR : (parse ⟨[]⟩ data).records? = some R := rfl
  obtain ⟨-, -, hlookups⟩ := lookups_of_parse hR
  obtain ⟨-, -, -, hsamples, hget⟩ := hlookups "x"
  obtain ⟨-, -, hnone, -⟩ := hlookups "z"
  obtain ⟨-, hvalues⟩ := hsamples [1, 7] rfl
  exact ⟨hR, rfl, hvalues 1, (hget 2).mpr (Or.inr (le_refl 2)), hnone.mpr (by decide)⟩

end Records

end LatencyReport
