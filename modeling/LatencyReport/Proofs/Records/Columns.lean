import LatencyReport.Records
import Mathlib.Data.List.Basic

/-!
# `Proofs.Records.Columns` — the samples of a column

A column is found by its name, at its first place. Its samples are **what stands at that place in the rows, and every row
has to have something there** (`samples?_eq_some_iff`); of a name that is not in the header there are no samples.

## Contents

* `mapM_eq_some_iff` — a list of which every element is looked up;
* `exists_columnIndex?`, `columnIndex?_eq_none` — the place of a column;
* `samples?_eq_some_iff`, `samples?_eq_none` — its samples.
-/

namespace LatencyReport

/-- **Every element is looked up** exactly when none of them is missing. -/
theorem mapM_eq_some_iff {α β : Type} {f : α → Option β} {xs : List α} {ys : List β} :
    xs.mapM f = some ys ↔ (∀ x ∈ xs, (f x).isSome = true) ∧ xs.filterMap f = ys := by
  induction xs generalizing ys with
  | nil =>
    simp only [List.mapM_nil, Option.pure_def, Option.some.injEq, List.filterMap_nil]
    exact ⟨fun h => ⟨fun x hx => absurd hx List.not_mem_nil, h⟩, And.right⟩
  | cons x rest ih =>
    constructor
    · intro h
      rw [List.mapM_cons] at h
      obtain ⟨y, hx, h⟩ := Option.bind_eq_some_iff.mp h
      obtain ⟨others, hothers, hys⟩ := Option.bind_eq_some_iff.mp h
      obtain ⟨hall, hfound⟩ := ih.mp hothers
      refine ⟨List.forall_mem_cons.mpr ⟨Option.isSome_of_eq_some hx, hall⟩, ?_⟩
      rw [List.filterMap_cons_some hx, hfound]
      exact Option.some.inj hys
    · rintro ⟨hall, rfl⟩
      obtain ⟨hfirst, hrest⟩ := List.forall_mem_cons.mp hall
      obtain ⟨y, hx⟩ := Option.isSome_iff_exists.mp hfirst
      rw [List.mapM_cons, hx, ih.mpr ⟨hrest, rfl⟩, List.filterMap_cons_some hx]
      rfl

namespace Records

variable {R : Records} {column : String}

theorem exists_columnIndex? (h : column ∈ R.columns) : ∃ i, R.columnIndex? column = some i ∧ i < R.columns.length := by
  obtain ⟨i, hi⟩ : ∃ i, R.columnIndex? column = some i := by
    apply Option.isSome_iff_exists.mp
    unfold columnIndex?
    rw [List.findIdx?_isSome, List.any_eq_true]
    exact ⟨column, h, beq_self_eq_true column⟩
  obtain ⟨hlt, _⟩ := List.findIdx?_eq_some_iff_getElem.mp hi
  exact ⟨i, hi, hlt⟩

theorem samples?_eq_some_iff {samples : List Float} :
    R.samples? column = some samples ↔
      ∃ i, R.columnIndex? column = some i ∧ (∀ row ∈ R.rows, i < row.length) ∧ R.rows.filterMap (·[i]?) = samples := by
  unfold samples?
  cases R.columnIndex? column with
  | none => simp only [reduceCtorEq, false_and, exists_false]
  | some i =>
    simp only [mapM_eq_some_iff, isSome_getElem?, Option.some.injEq, exists_eq_left']

theorem columnIndex?_eq_none (h : column ∉ R.columns) : R.columnIndex? column = none := by
  unfold columnIndex?
  rw [List.findIdx?_eq_none_iff]
  intro other hother
  rw [beq_eq_false_iff_ne]
  rintro rfl
  exact h hother

theorem samples?_eq_none (h : column ∉ R.columns) : R.samples? column = none := by
  unfold samples?
  rw [columnIndex?_eq_none h]

end Records

end LatencyReport
