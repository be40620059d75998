import LatencyReport.Dataset
import LatencyReport.Proofs.Records.Lines
import LatencyReport.Proofs.Records.Append
import LatencyReport.Proofs.Records.Columns
import LatencyReport.Proofs.Summary.Order

/-!
# `Proofs.Dataset.RowOrder` — lines in another order

A table is read line by line, and nothing is carried from one line to the next. So lines in another order behind the
same header give the same rows in another order (`perm_rows_of_lines`), lines that are left out included; a column of
them has the same samples in another order (`perm_samples?`); and **their summaries are the same, bit by bit**, since
samples are sorted before anything is computed. The row that a file gives knows nothing of the order of its lines.

## Contents

* `ended`, `bareLines_ended` — lines, each of them ended;
* `exists_rows_append`, `perm_rows_of_lines` — the rows behind a header;
* `perm_samples?`, `ofRecords_eq_of_perm` — the summaries of rows in another order;
* `summary_and_row_eq_of_perm` — samples and lines in another order.
-/

namespace LatencyReport

/-! ## Lines behind a header -/

/-- The content that lines make up: each of them, and a line feed. -/
def ended (lines : List (List UInt8)) : List UInt8 :=
  lines.flatMap fun line => line ++ [lineFeed]

/-- What stands between the line ends of lines that are ended: what stands between those of each line, and nothing
    behind the last line feed. -/
theorem bareLines_ended (lines : List (List UInt8)) : bareLines (ended lines) = lines.flatMap bareLines ++ [[]] := by
  induction lines with
  | nil => rfl
  | cons line rest ih =>
    have hcons : ended (line :: rest) = line ++ lineFeed :: ended rest := by
      rw [ended, List.flatMap_cons, List.append_assoc]
      rfl
    have hsplit : bareLines (line ++ lineFeed :: ended rest) = bareLines line ++ bareLines (ended rest) :=
      @Text.splitWith_append_mark _ isLineEnd lineFeed rfl line (ended rest)
    rw [hcons, hsplit, ih, List.flatMap_cons, List.append_assoc]

/-- **The rows behind a header** are those of the front and then what each line of the back gives, with one delimiter
    for every back. -/
theorem exists_rows_append {path : Path} {front : List UInt8} {R : Records} (hfeed : front.getLast? = some lineFeed)
    (hR : (Records.parse path front).records? = some R) :
    ∃ δ, ∀ back, (Records.parse path (front ++ back)).records? =
      some { R with rows := R.rows ++ (bareLines back).filterMap (lineRow? δ R.columns) } := by
  obtain ⟨δ, before, header, after, cells, hδ, hat⟩ := exists_headerAt hR
  rw [parse_of_headerAt path hδ hat, Option.some.injEq] at hR
  subst hR
  refine ⟨δ, fun back => ?_⟩
  obtain ⟨more, hlines, hbytes⟩ := exists_linesOf_append hfeed back
  have hboth : HeaderAt δ (linesOf (front ++ back)) before header (after ++ more) cells := hlines ▸ hat.append more
  have hmore : more.filterMap (fun line => lineRow? δ (cells.map String.ofList) line.bytes) =
      (bareLines back).filterMap (lineRow? δ (cells.map String.ofList)) := by
    rw [← filterMap_filter_isFilled (lineRow?_nil δ _).1, ← hbytes, List.filterMap_map]
    rfl
  simp only [parse_of_headerAt path (ofData?_append hfeed hδ back) hboth, List.filterMap_append, hmore]

/-- **Lines in another order give the rows in another order**, and change nothing else of the table. -/
theorem perm_rows_of_lines {path : Path} {header : List UInt8} {R : Records} (hfeed : header.getLast? = some lineFeed)
    (hR : (Records.parse path header).records? = some R) {lines others : List (List UInt8)} (h : lines.Perm others) :
    ∃ r s, (Records.parse path (header ++ ended lines)).records? = some r ∧
      (Records.parse path (header ++ ended others)).records? = some s ∧ r.columns = s.columns ∧ r.rows.Perm s.rows := by
  obtain ⟨δ, hrows⟩ := exists_rows_append hfeed hR
  refine ⟨_, _, hrows (ended lines), hrows (ended others), rfl, ?_⟩
  rw [bareLines_ended, bareLines_ended]
  exact (((h.flatMap_right bareLines).append_right [[]]).filterMap _).append_left R.rows

/-! ## Rows in another order -/

section
variable {r s : Records} (hcolumns : r.columns = s.columns) (hrows : r.rows.Perm s.rows)
include hcolumns hrows

/-- A column of rows in another order has its samples in that order. -/
theorem perm_samples? {column : String} {samples : List Float} (h : r.samples? column = some samples) :
    ∃ others, s.samples? column = some others ∧ samples.Perm others := by
  obtain ⟨i, hi, hreach, hfound⟩ := Records.samples?_eq_some_iff.mp h
  have hsame : s.columnIndex? column = some i := by
    rw [← hi, Records.columnIndex?, Records.columnIndex?, hcolumns]
  refine ⟨_, Records.samples?_eq_some_iff.mpr ⟨i, hsame, fun row hrow => hreach row (hrows.mem_iff.mpr hrow), rfl⟩, ?_⟩
  rw [← hfound]
  exact hrows.filterMap (·[i]?)

/-- **The summaries of rows in another order are the same.** -/
theorem summaryOf?_eq_of_perm (phase : Phase) : Row.summaryOf? r phase = Row.summaryOf? s phase := by
  unfold Row.summaryOf?
  cases hr : r.samples? phase.column with
  | some samples =>
    obtain ⟨others, hs, hperm⟩ := perm_samples? hcolumns hrows hr
    rw [hs]
    simp only [Summary.ofSamples?_eq_of_perm hperm]
  | none =>
    cases hs : s.samples? phase.column with
    | none => rfl
    | some others =>
      obtain ⟨samples, hsome, _⟩ := perm_samples? hcolumns.symm hrows.symm hs
      rw [hr] at hsome
      cases hsome

theorem ofRecords_eq_of_perm (e : Experiment) : Row.ofRecords e r = Row.ofRecords e s := by
  unfold Row.ofRecords
  simp only [summaryOf?_eq_of_perm hcolumns hrows]

end

/-! ## Samples and lines -/

/-- **The order of samples and lines does not matter.** Samples in another order, whatever bit patterns they are, are
    sorted to the same list and have the same summary. And lines in another order behind a header that is accepted,
    whatever stands in them, give the same row for every experiment. -/
theorem summary_and_row_eq_of_perm :
    (∀ samples others : List UInt64, samples.Perm others →
        ascending samples = ascending others ∧ Summary.ofBits? samples = Summary.ofBits? others) ∧
      ∀ (path : Path) (header : List UInt8) (R : Records), header.getLast? = some lineFeed →
        (Records.parse path header).records? = some R →
          ∀ lines others : List (List UInt8), lines.Perm others →
            ∃ r s, (Records.parse path (header ++ ended lines)).records? = some r ∧
              (Records.parse path (header ++ ended others)).records? = some s ∧
              ∀ e, Row.ofRecords e r = Row.ofRecords e s := by
  refine ⟨fun samples others h => ⟨ascending_eq_of_perm h, Summary.ofBits?_eq_of_perm h⟩, ?_⟩
  intro path header R hfeed hR lines others h
  obtain ⟨r, s, hr, hs, hcolumns, hrows⟩ := perm_rows_of_lines hfeed hR h
  exact ⟨r, s, hr, hs, ofRecords_eq_of_perm hcolumns hrows⟩

/-- Samples with a pattern that is no number and has the sign, and lines of which one is left out. -/
theorem summary_and_row_eq_of_perm_mixed :
    let samples : List UInt64 := [0x3FF0000000000000, 0xFFF8000000000001, 0x8000000000000000, 0]
    let row (x : List Float) : Records := ⟨⟨[]⟩, ["write_duration_nsec"], x.map ([·])⟩
    samples.Perm samples.reverse ∧ Summary.ofBits? samples = Summary.ofBits? samples.reverse ∧
      Row.ofRecords ⟨.syncIo, 1⟩ (row [7.0, 2.0]) = Row.ofRecords ⟨.syncIo, 1⟩ (row [2.0, 7.0]) := by
  intro samples row
  have hperm : samples.Perm samples.reverse := samples.reverse_perm.symm
  obtain ⟨hsamples, hlines⟩ := summary_and_row_eq_of_perm
  let header := Utf8.encode "write_duration_nsec\n".toList
  have hR : (Records.parse ⟨[]⟩ header).records? = some (row []) := rfl
  have hfeed : header.getLast? = some lineFeed := rfl
  -- three lines, the second of which is no duration
  let lines := [Utf8.encode "7".toList, Utf8.encode "x".toList, Utf8.encode "2".toList]
  obtain ⟨r, s, hr, hs, hrow⟩ := hlines ⟨[]⟩ header (row []) hfeed hR lines lines.reverse lines.reverse_perm.symm
  have hr' : (Records.parse ⟨[]⟩ (header ++ ended lines)).records? = some (row [7.0, 2.0]) := rfl
  have hs' : (Records.parse ⟨[]⟩ (header ++ ended lines.reverse)).records? = some (row [2.0, 7.0]) := rfl
  rw [hr', Option.some.injEq] at hr
  rw [hs', Option.some.injEq] at hs
  subst hr hs
  exact ⟨hperm, (hsamples _ _ hperm).2, hrow _⟩

end LatencyReport
