import LatencyReport.Dataset
import LatencyReport.Proofs.Records.Durations
import LatencyReport.Proofs.Summary.Bounds

/-!
# `Proofs.Dataset.Bounds` — the summaries of a row

A row has a phase exactly when its mechanism measures the phase, the table has the column, and there is a line of numbers
(`isSome_get?_ofRecords`): a table that is read is full, so a column of it never lacks a sample, and **samples always have
a summary**. What the row has of the phase is the summary of that column, in which no number is beyond the greatest
sample; whether the samples add up to a number does not matter.

## Contents

* `Row.get?_ofRecords`, `Row.summaryOf?_eq_none`, `Row.exists_summaryOf?` — one phase of a table;
* `isSome_get?_ofRecords` — the phases of a row;
* `summaries_bounded` — the summaries of samples and of rows.
-/

namespace LatencyReport

namespace Row

/-- A row has the summaries of the phases that are measured. -/
theorem get?_ofRecords (e : Experiment) (R : Records) (phase : Phase) :
    (ofRecords e R).phases.get? phase = if phase ∈ e.label.phases then summaryOf? R phase else none := by
  unfold ofRecords
  rw [PhaseMap.get?_ofFn]
  simp only [List.contains_iff_mem]

variable {R : Records} {phase : Phase}

/-- Without a column, or without a line of numbers, there is no summary. -/
theorem summaryOf?_eq_none (hfull : R.IsFull) (h : phase.column ∉ R.columns ∨ R.rows = []) :
    summaryOf? R phase = none := by
  unfold summaryOf?
  by_cases hcolumn : phase.column ∈ R.columns
  · have hrows : R.rows = [] := h.resolve_left (not_not_intro hcolumn)
    obtain ⟨samples, hsamples, hlength, _⟩ := hfull.exists_samples hcolumn
    rw [hrows, List.length_nil, List.length_eq_zero_iff] at hlength
    subst hlength
    simp only [hsamples, Summary.ofSamples?_nil, Option.map_none]
  · rw [Records.samples?_eq_none hcolumn]

/-- **A column with a line of numbers has a summary**, and its greatest sample bounds it. -/
theorem exists_summaryOf? (hfull : R.IsFull) (hcolumn : phase.column ∈ R.columns) (hrows : R.rows ≠ []) :
    ∃ samples s, R.samples? phase.column = some samples ∧ summaryOf? R phase = some s ∧ s.BoundedBy samples := by
  obtain ⟨samples, hsamples, hlength, hdur⟩ := hfull.exists_samples hcolumn
  have hne : samples ≠ [] := by
    rintro rfl
    exact hrows (List.length_eq_zero_iff.mp hlength.symm)
  obtain ⟨s, hs, hbound⟩ := Summary.ofSamples?_boundedBy hne hdur
  refine ⟨samples, s.scaled nanosToMicros, hsamples, ?_, hbound⟩
  unfold summaryOf?
  simp only [hsamples, hs, Option.map_some]

end Row

/-- **The phases of a row** are those that the mechanism measures and the table has numbers of. -/
theorem isSome_get?_ofRecords {R : Records} (hfull : R.IsFull) (e : Experiment) (phase : Phase) :
    ((Row.ofRecords e R).phases.get? phase).isSome = true ↔
      phase ∈ e.label.phases ∧ phase.column ∈ R.columns ∧ R.rows ≠ [] := by
  rw [Row.get?_ofRecords]
  by_cases hmeasured : phase ∈ e.label.phases
  · rw [if_pos hmeasured]
    by_cases hthere : phase.column ∈ R.columns ∧ R.rows ≠ []
    · obtain ⟨_, s, _, hs, _⟩ := Row.exists_summaryOf? hfull hthere.1 hthere.2
      rw [hs]
      exact ⟨fun _ => ⟨hmeasured, hthere⟩, fun _ => rfl⟩
    · have hnone : phase.column ∉ R.columns ∨ R.rows = [] := by
        rw [not_and_or, not_not] at hthere
        exact hthere
      rw [Row.summaryOf?_eq_none hfull hnone]
      exact ⟨fun h => absurd h Bool.false_ne_true, fun h => absurd h.2 hthere⟩
  · rw [if_neg hmeasured]
    exact ⟨fun h => absurd h Bool.false_ne_true, fun h => absurd h.1 hmeasured⟩

/-- **No number of a summary is beyond the greatest sample, and none is below zero.** Samples that are finite and not below
    zero have a summary, however many they are and whether or not their sum is finite. For every content that is accepted
    and every experiment, a phase is in the row exactly when it is measured and the table has numbers of it; and the
    numbers of each phase that is there are bounded by the samples of its column. -/
theorem summaries_bounded :
    (∀ samples : List Float, samples ≠ [] → (∀ x ∈ samples, IsDuration x) →
        ∃ s, Summary.ofSamples? samples = some s ∧ (s.scaled nanosToMicros).BoundedBy samples) ∧
      ∀ (path : Path) (data : List UInt8) (R : Records), (Records.parse path data).records? = some R →
        ∀ (e : Experiment) (phase : Phase),
          (((Row.ofRecords e R).phases.get? phase).isSome = true ↔
              phase ∈ e.label.phases ∧ phase.column ∈ R.columns ∧ R.rows ≠ []) ∧
            ∀ s, (Row.ofRecords e R).phases.get? phase = some s →
              ∃ samples, R.samples? phase.column = some samples ∧ s.BoundedBy samples := by
  refine ⟨fun samples hne hdur => Summary.ofSamples?_boundedBy hne hdur, ?_⟩
  intro path data R hR e phase
  have hfull : R.IsFull := Records.isFull_of_parse hR
  refine ⟨isSome_get?_ofRecords hfull e phase, ?_⟩
  intro s hs
  have hthere : ((Row.ofRecords e R).phases.get? phase).isSome = true := by
    rw [hs]
    rfl
  obtain ⟨hmeasured, hcolumn, hrows⟩ := (isSome_get?_ofRecords hfull e phase).mp hthere
  obtain ⟨samples, found, hsamples, hfound, hbound⟩ := Row.exists_summaryOf? hfull hcolumn hrows
  rw [Row.get?_ofRecords, if_pos hmeasured, hfound, Option.some.injEq] at hs
  subst hs
  exact ⟨samples, hsamples, hbound⟩

/-- Two samples whose sum is infinite, and a content with two lines of numbers. -/
theorem summaries_bounded_of_infinite_sum :
    let large : Float := .ofBits 0x7FE0000000000000
    let R : Records := ⟨⟨[]⟩, ["write_duration_nsec"], [[7.0], [2.0]]⟩
    (Summary.sum [large, large]).isInf = true ∧
      (∃ s, Summary.ofSamples? [large, large] = some s ∧ (s.scaled nanosToMicros).BoundedBy [large, large]) ∧
      ∃ s, (Row.ofRecords ⟨.syncIo, 1⟩ R).phases.get? .write = some s ∧ s.BoundedBy [7.0, 2.0] := by
  intro large R
  obtain ⟨hsamples, hrows⟩ := summaries_bounded
  have hlarge : IsDuration (.ofBits 0x7FE0000000000000) := ⟨rfl, by decide⟩
  have hsum : (Summary.sum [large, large]).isInf = true := by decide +kernel
  have hdur : ∀ x ∈ [large, large], IsDuration x := by
    intro x hx
    rcases List.mem_pair.mp hx with rfl | rfl <;> exact hlarge
  have hR : (Records.parse ⟨[]⟩ (Utf8.encode "write_duration_nsec\n7\n2\n".toList)).records? = some R := rfl
  obtain ⟨hthere, hbound⟩ := hrows ⟨[]⟩ _ R hR ⟨.syncIo, 1⟩ .write
  obtain ⟨s, hs⟩ := Option.isSome_iff_exists.mp (hthere.mpr ⟨by decide, List.mem_singleton_self _, List.cons_ne_nil _ _⟩)
  obtain ⟨found, hfound, hs'⟩ := hbound s hs
  have hcolumn : R.samples? Phase.write.column = some [7.0, 2.0] := rfl
  rw [hcolumn, Option.some.injEq] at hfound
  subst hfound
  exact ⟨hsum, hsamples _ (List.cons_ne_nil _ _) hdur, s, hs, hs'⟩

end LatencyReport
