import LatencyReport.Label

/-!
# `Series` — the lines of a figure

A **series** is one phase of one mechanism: one line in a figure. A plot names its series by selections, each of
them a mechanism with some of its phases or with all of them. A series that several selections name is drawn
once, where it was named first.

A selection may name a phase that its mechanism never measures. The series is kept, since that phase may stand in
a file all the same, but it is worth a warning.

## Contents

* `Series`, `Series.text`;
* `Selection`, `Selection.series` — what a selection names; `Selection.unmeasured` — what is worth a warning;
* `newOnes` — a list without repetitions; `mem_newOnes` and `nodup_newOnes` say what is kept;
* `Series.ofSelections` — what many selections name.
-/

namespace LatencyReport

/-- One phase of one mechanism. -/
structure Series where
  label : Label
  phase : Phase
deriving DecidableEq, Repr

/-- The series as text. -/
def Series.text (s : Series) : String :=
  s.label.name ++ " - " ++ s.phase.column

/-- A mechanism with some of its phases, or with all that it measures. -/
structure Selection where
  label : Label
  phases : Option (List Phase) := none
deriving DecidableEq, Repr

namespace Selection

/-- The phases that are selected. -/
def selected (s : Selection) : List Phase :=
  s.phases.getD s.label.phases

/-- The series that are selected. -/
def series (s : Selection) : List Series :=
  s.selected.map fun phase => ⟨s.label, phase⟩

/-- The selected phases that the mechanism never measures. -/
def unmeasured (s : Selection) : List Phase :=
  s.selected.filter fun phase => !s.label.phases.contains phase

/-- All phases of the mechanism are phases that it measures. -/
theorem unmeasured_of_all (l : Label) : unmeasured ⟨l, none⟩ = [] := by
  cases l <;> rfl

end Selection

/-- The elements of a list that are not in `seen` and did not occur in the list before. -/
def newOnes {α : Type} [DecidableEq α] (seen : List α) : List α → List α
  | [] => []
  | x :: rest => if x ∈ seen then newOnes seen rest else x :: newOnes (x :: seen) rest

section newOnes

variable {α : Type} [DecidableEq α]

@[simp] theorem newOnes_nil (seen : List α) : newOnes seen [] = [] := rfl

/-- What is kept are the elements that were not seen. -/
theorem mem_newOnes {seen xs : List α} {x : α} : x ∈ newOnes seen xs ↔ x ∈ xs ∧ x ∉ seen := by
  induction xs generalizing seen with
  | nil => simp
  | cons y rest ih =>
    by_cases hy : y ∈ seen
    · by_cases hx : x = y <;> simp_all [newOnes]
    · by_cases hx : x = y <;> simp_all [newOnes]

/-- Nothing is kept twice. -/
theorem nodup_newOnes (seen xs : List α) : (newOnes seen xs).Nodup := by
  induction xs generalizing seen with
  | nil => simp
  | cons y rest ih =>
    by_cases hy : y ∈ seen
    · simpa [newOnes, hy] using ih seen
    · simp [newOnes, hy, mem_newOnes, ih]

end newOnes

/-- The series that the selections name, in the order in which they are named first. -/
def Series.ofSelections (selections : List Selection) : List Series :=
  newOnes [] (selections.flatMap Selection.series)

end LatencyReport
