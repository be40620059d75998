import LatencyReport.Journal
import LatencyReport.Proofs.Records.Table

/-!
# `Proofs.Records.Append` — a content that goes on

Reading a content line by line makes reading **additive**: what is added behind a line feed adds its rows and its
faults behind those that are there, and changes none of them. It cannot change the delimiter, which is chosen before,
nor the header; and what a line of it gives is decided by that line, the columns and the delimiter.

## Contents

* `warnings`, `warnings_eq` — what reading warns of: the rows that are left out;
* `ofData?_append` — the delimiter is chosen in the front;
* `parse_append` — the table of a content that goes on; `parse_append_quotation` — behind a row.
-/

namespace LatencyReport

/-! ## Warnings -/

/-- What reading a content warns of. -/
def warnings (path : Path) (data : List UInt8) : List Event :=
  ((Records.parse path data).events path).filter fun event => event.level = .warn

/-- Every row that is left out is warned of, in order, and nothing else is. -/
theorem warnings_eq (path : Path) (data : List UInt8) :
    warnings path data = (Records.parse path data).skipped.map (.rowSkipped path) := by
  have hrows : ∀ rows : List SkippedRow,
      (rows.map (Event.rowSkipped path)).filter (fun event => event.level = .warn) =
        rows.map (.rowSkipped path) := by
    intro rows
    refine List.filter_eq_self.mpr fun event hevent => ?_
    obtain ⟨row, _, rfl⟩ := List.mem_map.mp hevent
    rfl
  unfold warnings Reading.events
  rw [List.filter_append, hrows]
  cases (Records.parse path data).records? with
  | none => simp
  | some records => simp [Event.level]

/-! ## The content behind a line feed -/

/-- **The delimiter is chosen in the front**, if anything visible stands there. -/
theorem ofData?_append {front : List UInt8} {δ : Delimiter} (hfeed : front.getLast? = some lineFeed)
    (h : Delimiter.ofData? front = some δ) (back : List UInt8) : Delimiter.ofData? (front ++ back) = some δ := by
  obtain ⟨init, rfl⟩ := List.getLast?_eq_some_iff.mp hfeed
  have hfront : Text.splitWith (· == lineFeed) (init ++ [lineFeed]) = Text.splitWith (· == lineFeed) init ++ [[]] :=
    @Text.splitWith_append_mark _ (· == lineFeed) lineFeed rfl init []
  have hboth : Text.splitWith (· == lineFeed) (init ++ [lineFeed] ++ back) =
      Text.splitWith (· == lineFeed) init ++ Text.splitWith (· == lineFeed) back := by
    rw [List.append_assoc]
    exact @Text.splitWith_append_mark _ (· == lineFeed) lineFeed rfl init back
  unfold Delimiter.ofData? at h ⊢
  rw [hfront, List.find?_append] at h
  rw [hboth, List.find?_append]
  cases hfind : (Text.splitWith (· == lineFeed) init).find? fun line => !line.all Text.isBlankByte with
  | none => simp [hfind] at h
  | some line => simpa [hfind] using h

/-- The header stays where it is when lines are added. -/
theorem HeaderAt.append {δ : Delimiter} {lines before after : List Line} {header : Line} {cells : List (List Char)}
    (h : HeaderAt δ lines before header after cells) (more : List Line) :
    HeaderAt δ (lines ++ more) before header (after ++ more) cells where
  lines_eq := by rw [h.lines_eq, List.append_assoc, List.cons_append]
  headless := h.headless
  cells_eq := h.cells_eq
  cells_ne := h.cells_ne

/-- An empty line gives nothing. -/
theorem lineRow?_nil (δ : Delimiter) (columns : List String) :
    lineRow? δ columns [] = none ∧ lineFault? δ columns [] = none := by
  refine (lineRow?_or_lineFault? δ columns []).2 ?_
  rw [@speaks_iff δ ⟨0, []⟩, not_not, cells_eq_nil_iff]
  exact ⟨[], rfl, by simp⟩

/-- What the filled lines give is what all lines give. -/
theorem filterMap_filter_isFilled {α : Type} {f : List UInt8 → Option α} (hf : f [] = none)
    (lines : List (List UInt8)) : (lines.filter isFilled).filterMap f = lines.filterMap f := by
  rw [List.filterMap_filter]
  refine List.filterMap_congr fun line _ => ?_
  cases line with
  | nil => rw [hf]; rfl
  | cons b line => rfl

/-- **What is added behind a line feed adds what its lines give**, one by one, and changes nothing else: the columns
    stay, the rows come behind the rows that are there, the warnings behind the warnings. A line in which something
    stands gives one row or one warning; any other line gives neither. -/
theorem parse_append {path : Path} {front : List UInt8} {R : Records} (hfeed : front.getLast? = some lineFeed)
    (hR : (Records.parse path front).records? = some R) (back : List UInt8) :
    ∃ δ, Delimiter.ofData? front = some δ ∧
      (Records.parse path (front ++ back)).records? =
        some { R with rows := R.rows ++ (bareLines back).filterMap (lineRow? δ R.columns) } ∧
      (∃ more : List SkippedRow, warnings path (front ++ back) = warnings path front ++ more.map (.rowSkipped path) ∧
        more.map (·.fault) = (bareLines back).filterMap (lineFault? δ R.columns)) ∧
      ∀ line ∈ bareLines back,
        (δ.Speaks line → (lineRow? δ R.columns line).isSome = !(lineFault? δ R.columns line).isSome) ∧
          (¬δ.Speaks line → lineRow? δ R.columns line = none ∧ lineFault? δ R.columns line = none) := by
  -- the front has a header; the lines added come behind all of its lines
  obtain ⟨δ, before, header, after, cells, hδ, hat⟩ := exists_headerAt hR
  obtain ⟨more, hlines, hbytes⟩ := exists_linesOf_append hfeed back
  have hfront := parse_of_headerAt path hδ hat
  have hboth : HeaderAt δ (linesOf (front ++ back)) before header (after ++ more) cells := hlines ▸ hat.append more
  have hparse := parse_of_headerAt path (ofData?_append hfeed hδ back) hboth
  rw [hfront, Option.some.injEq] at hR
  subst hR
  refine ⟨δ, hδ, ?_, ?_, fun line _ => lineRow?_or_lineFault? δ _ line⟩
  · have hmore : more.filterMap (fun line => lineRow? δ (cells.map String.ofList) line.bytes) =
        (bareLines back).filterMap (lineRow? δ (cells.map String.ofList)) := by
      rw [← filterMap_filter_isFilled (lineRow?_nil δ _).1, ← hbytes, List.filterMap_map]
      rfl
    simp only [hparse, List.filterMap_append, hmore]
  · refine ⟨more.filterMap (skippedRow? δ (cells.map String.ofList)), ?_, ?_⟩
    · simp only [warnings_eq, hparse, hfront, ← List.append_assoc before, List.filterMap_append, List.map_append]
    · rw [← filterMap_filter_isFilled (lineRow?_nil δ _).2, ← hbytes, List.filterMap_map, List.map_filterMap]
      refine List.filterMap_congr fun line _ => ?_
      rw [skippedRow?, Option.map_map]
      exact Option.map_id'

/-- A quotation mark that is never closed, and a byte that is no text, behind a row. -/
theorem parse_append_quotation :
    let front := Utf8.encode "write\n7\n".toList
    let back := Utf8.encode "\"8\n".toList ++ [0xFF, lineFeed] ++ Utf8.encode "9".toList
    (Records.parse ⟨[]⟩ front).records? = some ⟨⟨[]⟩, ["write"], [[7.0]]⟩ ∧
      (Records.parse ⟨[]⟩ (front ++ back)).records? = some ⟨⟨[]⟩, ["write"], [[7.0], [9.0]]⟩ := by
  intro front back
  have hR : (Records.parse ⟨[]⟩ front).records? = some ⟨⟨[]⟩, ["write"], [[7.0]]⟩ := rfl
  have hrows : (bareLines back).filterMap (lineRow? .blanks ["write"]) = [[9.0]] := rfl
  have hfeed : front.getLast? = some lineFeed := rfl
  obtain ⟨δ, hδ, hrecords, _⟩ := parse_append hfeed hR back
  obtain rfl : Delimiter.blanks = δ := Option.some.inj hδ
  rw [hrows] at hrecords
  exact ⟨hR, hrecords⟩

end LatencyReport
