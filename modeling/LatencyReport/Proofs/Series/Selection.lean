import LatencyReport.Comparison
import LatencyReport.Proofs.Dataset.File
import Mathlib.Data.List.Basic

/-!
# `Proofs.Series.Selection` — the series that selections name

A list of selections names series one after the other, and may name one more than once. What is drawn is **every series
that is named, at the place where it is named first**. Seen from a list without repetitions, a list that goes on adds what
is new in its second part: what was seen before is left out, and it does not matter when (`newOnes_append_left`). So more
selections add series behind those that are there, and change nothing of them (`ofSelections_in_order`).

A phase that a selection lists although its mechanism never measures it is told, as often as it is listed. A selection
without a list is never told of, since it names what the mechanism measures.

## Contents

* `newOnes_eq_eraseDups`, `newOnes_append`, `pairwise_idxOf_newOnes` — a list without repetitions;
* `Selection.Names`, `mem_series_iff` — what a selection names;
* `Selection.undeclared`, `events_eq` — what is told of a selection;
* `ofSelections_in_order` — many selections.
-/

namespace LatencyReport

/-! ## A list without repetitions -/

section newOnes

variable {α : Type} [DecidableEq α]

theorem newOnes_cons_of_mem {seen : List α} {x : α} (h : x ∈ seen) (rest : List α) :
    newOnes seen (x :: rest) = newOnes seen rest :=
  if_pos h

theorem newOnes_cons_of_not_mem {seen : List α} {x : α} (h : x ∉ seen) (rest : List α) :
    newOnes seen (x :: rest) = x :: newOnes (x :: seen) rest :=
  if_neg h

/-- **What is new** is what was not seen, without what stands earlier in the list as well. -/
theorem newOnes_eq_eraseDups (seen xs : List α) : newOnes seen xs = (xs.filter fun x => !seen.contains x).eraseDups := by
  induction xs generalizing seen with
  | nil => rfl
  | cons x rest ih =>
    by_cases hx : x ∈ seen
    · rw [newOnes_cons_of_mem hx, ih, List.filter_cons_of_neg (by simp [hx])]
    · have hrest : (rest.filter fun y => !(x :: seen).contains y) =
          (rest.filter fun y => !seen.contains y).filter fun y => !y == x := by
        rw [List.filter_filter]
        apply List.filter_congr
        intro y _
        rw [List.contains_cons, Bool.not_or]
      rw [newOnes_cons_of_not_mem hx, ih, hrest, List.filter_cons_of_pos (by simp [hx]), List.eraseDups_cons]

theorem newOnes_nil_left (xs : List α) : newOnes [] xs = xs.eraseDups := by
  simp [newOnes_eq_eraseDups]

/-- Of what was seen, only what it is matters. -/
theorem newOnes_congr {seen others : List α} (h : ∀ x, x ∈ seen ↔ x ∈ others) (xs : List α) :
    newOnes seen xs = newOnes others xs := by
  have hsame : (xs.filter fun x => !seen.contains x) = xs.filter fun x => !others.contains x := by
    apply List.filter_congr
    intro x _
    simp [h x]
  rw [newOnes_eq_eraseDups, newOnes_eq_eraseDups, hsame]

/-- **What was seen can be left out in the end.** -/
theorem newOnes_append_left (seen more xs : List α) :
    newOnes (seen ++ more) xs = (newOnes more xs).filter fun x => !seen.contains x := by
  induction xs generalizing more with
  | nil => rfl
  | cons x rest ih =>
    by_cases hmore : x ∈ more
    · rw [newOnes_cons_of_mem hmore, newOnes_cons_of_mem (List.mem_append_right seen hmore), ih]
    · rw [newOnes_cons_of_not_mem hmore]
      by_cases hseen : x ∈ seen
      · rw [newOnes_cons_of_mem (List.mem_append_left more hseen), List.filter_cons_of_neg (by simp [hseen]), ← ih]
        apply newOnes_congr
        intro y
        by_cases hy : y = x <;> simp [hy, hseen]
      · have hboth : x ∉ seen ++ more := by simp [hseen, hmore]
        rw [newOnes_cons_of_not_mem hboth, List.filter_cons_of_pos (by simp [hseen]), ← ih]
        congr 1
        apply newOnes_congr
        intro y
        simp [or_left_comm]

/-- **A list that goes on** adds what is new in its second part. -/
theorem newOnes_append (xs ys : List α) :
    newOnes [] (xs ++ ys) = newOnes [] xs ++ (newOnes [] ys).filter fun y => !(newOnes [] xs).contains y := by
  have hnew : (ys.removeAll xs).eraseDups = newOnes xs ys := (newOnes_eq_eraseDups xs ys).symm
  have hseen : newOnes xs ys = newOnes (newOnes [] xs) ys := by
    apply newOnes_congr
    intro x
    simp [mem_newOnes]
  have hlast := newOnes_append_left (newOnes [] xs) [] ys
  rw [List.append_nil] at hlast
  rw [newOnes_nil_left (xs ++ ys), List.eraseDups_append, hnew, hseen, hlast, newOnes_nil_left xs]

/-- **What is kept stands in the order of its first places.** -/
theorem pairwise_idxOf_newOnes (seen xs : List α) :
    (newOnes seen xs).Pairwise fun x y => xs.idxOf x < xs.idxOf y := by
  induction xs generalizing seen with
  | nil => exact .nil
  | cons x rest ih =>
    -- what is kept behind `x` is not `x`, so its first place is one further than in the rest
    have hne : ∀ others, x ∈ others → ∀ y ∈ newOnes others rest, x ≠ y := by
      intro others hx y hy heq
      exact (mem_newOnes.mp hy).2 (heq ▸ hx)
    have hrest : ∀ others, x ∈ others →
        (newOnes others rest).Pairwise fun y z => (x :: rest).idxOf y < (x :: rest).idxOf z := by
      intro others hx
      refine (ih others).imp_of_mem fun {y z} hy hz hlt => ?_
      rw [List.idxOf_cons_ne rest (hne others hx y hy), List.idxOf_cons_ne rest (hne others hx z hz)]
      exact Nat.succ_lt_succ hlt
    by_cases hx : x ∈ seen
    · rw [newOnes_cons_of_mem hx]
      exact hrest seen hx
    · rw [newOnes_cons_of_not_mem hx, List.pairwise_cons]
      constructor
      · intro y hy
        rw [List.idxOf_cons_self, List.idxOf_cons_ne rest (hne _ List.mem_cons_self y hy)]
        exact Nat.succ_pos _
      · exact hrest _ List.mem_cons_self

end newOnes

/-! ## What a selection names, and what is told of it -/

/-- What a selection names: the phases that it lists, or without a list those that the mechanism measures. -/
inductive Selection.Names : Selection → Series → Prop
  | measured {label : Label} {phase : Phase} (h : phase ∈ label.phases) : Names ⟨label, none⟩ ⟨label, phase⟩
  | listed {label : Label} {phase : Phase} {phases : List Phase} (h : phase ∈ phases) :
    Names ⟨label, some phases⟩ ⟨label, phase⟩

theorem mem_series_iff {selection : Selection} {s : Series} : s ∈ selection.series ↔ selection.Names s := by
  rw [Selection.series, List.mem_map]
  constructor
  · rintro ⟨phase, hphase, rfl⟩
    obtain ⟨label, _ | phases⟩ := selection
    · exact .measured hphase
    · exact .listed hphase
  · intro h
    cases h with
    | measured h => exact ⟨_, h, rfl⟩
    | listed h => exact ⟨_, h, rfl⟩

/-- The phases that a selection lists although its mechanism never measures them, as often as it lists them. -/
def Selection.undeclared : Selection → List Phase
  | ⟨_, none⟩ => []
  | ⟨label, some phases⟩ => phases.filter fun phase => phase ∉ label.phases

/-- **A selection is told of for every phase that it lists and its mechanism does not declare**, in the order of its
    list. -/
theorem events_eq (selection : Selection) :
    selection.events = selection.undeclared.map (.neverMeasured selection.label) := by
  obtain ⟨label, _ | phases⟩ := selection
  · rw [Selection.events, Selection.unmeasured_of_all]
    rfl
  · have hfilter : (phases.filter fun phase => !label.phases.contains phase) =
        phases.filter fun phase => phase ∉ label.phases := by
      apply List.filter_congr
      intro phase _
      simp
    show List.map _ (phases.filter fun phase => !label.phases.contains phase) = List.map _ _
    rw [hfilter]
    rfl

/-- What is said of selections, and at which level. -/
def Selection.warnings (selections : List Selection) : List (Level × String) :=
  selections.flatMap fun selection => selection.undeclared.map fun phase =>
    (.warn, selection.label.name ++ " never measures " ++ phase.column)

theorem warnings_eq_map_events (selections : List Selection) :
    Selection.warnings selections =
      (selections.flatMap Selection.events).map fun event => (event.level, event.message) := by
  rw [List.map_flatMap, Selection.warnings]
  congr 1
  funext selection
  rw [events_eq, List.map_map]
  rfl

/-! ## Many selections -/

/-- More selections add their new series behind those that are there. -/
theorem ofSelections_append (selections more : List Selection) :
    Series.ofSelections (selections ++ more) = Series.ofSelections selections ++
      (Series.ofSelections more).filter fun s => !(Series.ofSelections selections).contains s := by
  unfold Series.ofSelections
  rw [List.flatMap_append]
  exact newOnes_append _ _

/-- **The series that selections name**, one after the other and without what is named again: no series occurs twice, a
    series occurs exactly if a selection names it, and the series are in the order of their first places. More selections
    add what is new in them, in its own order. While selections are read, exactly one warning is told for every phase
    that is listed and not declared, in the order of the lists. -/
theorem ofSelections_in_order (selections : List Selection) :
    let named := selections.flatMap Selection.series
    let drawn := Series.ofSelections selections
    drawn = named.eraseDups ∧ drawn.Nodup ∧
    (∀ s, s ∈ drawn ↔ ∃ selection ∈ selections, selection.Names s) ∧
    drawn.Pairwise (fun s t => named.idxOf s < named.idxOf t) ∧
    (∀ more, Series.ofSelections (selections ++ more) = drawn ++ (Series.ofSelections more).filter fun s => s ∉ drawn) ∧
    ∀ w, ∃ events, (Comparison.tellSelections selections : Run Unit) w = ((), w.told events) ∧
      events.map (fun event => (event.level, event.message)) = Selection.warnings selections := by
  intro named drawn
  refine ⟨newOnes_nil_left named, nodup_newOnes [] named, ?_, pairwise_idxOf_newOnes [] named, ?_, ?_⟩
  · intro s
    have hdrawn : s ∈ drawn ↔ s ∈ named := by
      simp [drawn, named, Series.ofSelections, mem_newOnes]
    rw [hdrawn, List.mem_flatMap]
    simp only [mem_series_iff]
  · intro more
    rw [ofSelections_append]
    congr 1
    apply List.filter_congr
    intro s _
    simp [drawn]
  · intro w
    refine ⟨selections.flatMap Selection.events, ?_, (warnings_eq_map_events selections).symm⟩
    exact tell_eq _ w

/-- All phases of a mechanism, and some of them again, with one that it never measures. -/
example : Series.ofSelections [⟨.mmapIo, none⟩, ⟨.syncIo, some [.write, .write]⟩, ⟨.mmapIo, some [.msync, .rtt]⟩] =
    [⟨.mmapIo, .memcpy⟩, ⟨.mmapIo, .msync⟩, ⟨.syncIo, .write⟩, ⟨.mmapIo, .rtt⟩] := by
  decide

end LatencyReport
