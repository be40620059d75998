import LatencyReport.Proofs.Dataset.RowOrder
import LatencyReport.Proofs.Decimal.Reader
import LatencyReport.Proofs.Records.Cut
import LatencyReport.Proofs.Records.Durations

/-!
# `Proofs.Records.Written` — reading undoes writing

A table is written as one line for the names of its columns and one for each row, tabs between the cells and a line
feed behind each line. **Reading that content gives the table back** (`parse_tabbed`), whatever the names are: they may
hold spaces and quotation marks, look like numbers, be empty or agree, since the tab in the header decides how lines
are cut, and the header is a line like any other.

What the names must not hold is what the reader takes for more than a name: tabs and line ends, white space at the
ends, and the byte order mark at the start of the first. The texts of durations need no such proviso: no decimal text
holds white space.

## Contents

* `tabbedLine`, `CanBeTabbed` — cells in one line; `CanBeTabbed.cells_eq` — they are its cells;
* `DurationText`, `row_tabbedLine` — a row of texts that say durations;
* `tabbed`, `CanHead` — the content of a table; `CanHead.ofData?_tabbed`, `CanHead.bytes_linesOf_tabbed` — its
  delimiter and its lines;
* `parse_tabbed` — the table.
-/

namespace LatencyReport

/-! ## Lines of cells -/

/-- The bytes of a line: its cells with tabs between them. -/
def tabbedLine (cells : List String) : List UInt8 :=
  Utf8.encode (String.intercalate "\t" cells).toList

/-- Cells that can be told apart once they stand in one line: no cell holds a tab or a line end, none has white space
    at its ends, and not all of them are empty. -/
structure CanBeTabbed (cells : List String) : Prop where
  no_tab : ∀ cell ∈ cells, '\t' ∉ cell.toList
  no_lineFeed : ∀ cell ∈ cells, '\n' ∉ cell.toList
  no_return : ∀ cell ∈ cells, '\r' ∉ cell.toList
  trimmed : ∀ cell ∈ cells, Text.trim cell.toList = cell.toList
  filled : ∃ cell ∈ cells, cell ≠ ""

section
variable {cells : List String}

theorem tabbedLine_eq (cells : List String) :
    tabbedLine cells = Utf8.encode (['\t'].intercalate (cells.map String.toList)) := by
  rw [tabbedLine, String.toList_intercalate]
  rfl

theorem CanBeTabbed.ne_nil (h : CanBeTabbed cells) : cells ≠ [] := by
  rintro rfl
  obtain ⟨cell, hcell, _⟩ := h.filled
  exact List.not_mem_nil hcell

/-- The pieces between the tabs of a line are the cells. -/
theorem CanBeTabbed.splitWith_eq (h : CanBeTabbed cells) :
    Text.splitWith (· == '\t') (['\t'].intercalate (cells.map String.toList)) = cells.map String.toList := by
  refine Text.splitWith_intercalate ?_ (List.forall_mem_map.mpr h.no_tab)
  simpa using h.ne_nil

/-- **The cells of a line are those that were written into it.** -/
theorem CanBeTabbed.cells_eq (h : CanBeTabbed cells) (number : Nat) :
    Line.cells .tab ⟨number, tabbedLine cells⟩ = .ok (cells.map String.toList) := by
  have hfields : textFields (['\t'].intercalate (cells.map String.toList)) = cells.map String.toList := by
    rw [textFields, h.splitWith_eq, List.map_map]
    refine List.map_congr_left fun cell hcell => ?_
    exact Text.trimWith_eq_self_of_imp (fun c => isBlank_of_isAsciiBlank) (h.trimmed cell hcell)
  refine cells_eq_ok_iff.mpr ⟨_, tabbedLine_eq cells, ?_⟩
  rw [Delimiter.cut, hfields, if_neg]
  obtain ⟨cell, hcell, hne⟩ := h.filled
  intro hall
  have hempty := List.all_eq_true.mp hall _ (List.mem_map_of_mem hcell)
  exact hne (String.toList_eq_nil_iff.mp (List.isEmpty_iff.mp hempty))

/-- A byte that stands in no cell and is no tab does not stand in the line. -/
theorem CanBeTabbed.not_mem_tabbedLine (h : CanBeTabbed cells) {b : UInt8} {c : Char} (hsmall : b.toNat < 128)
    (hbyte : String.utf8EncodeChar c = [b]) (htab : c ≠ '\t') (hc : ∀ cell ∈ cells, c ∉ cell.toList) :
    ∀ x ∈ tabbedLine cells, (x == b) = false := by
  have hmark : ∀ x : Char, (x == '\t') = true → (x == c) = false := by
    intro x hx
    rw [beq_iff_eq.mp hx]
    exact beq_eq_false_iff_ne.mpr htab.symm
  rw [tabbedLine_eq]
  refine (Utf8.SameTest.of_eq hsmall hbyte).fail_encode ?_
  rw [Text.forall_mem_iff_forall_splitWith hmark, h.splitWith_eq, List.forall_mem_map]
  intro cell hcell x hx
  rw [beq_eq_false_iff_ne]
  rintro rfl
  exact hc cell hcell hx

/-- No line ends inside the line. -/
theorem CanBeTabbed.not_isLineEnd (h : CanBeTabbed cells) : ∀ b ∈ tabbedLine cells, isLineEnd b = false := by
  intro b hb
  rw [isLineEnd, Bool.or_eq_false_iff]
  exact ⟨h.not_mem_tabbedLine (c := '\n') (by decide) rfl (by decide) h.no_lineFeed b hb,
    h.not_mem_tabbedLine (c := '\r') (by decide) rfl (by decide) h.no_return b hb⟩

/-- Something stands in the line. -/
theorem CanBeTabbed.tabbedLine_ne_nil (h : CanBeTabbed cells) : tabbedLine cells ≠ [] := by
  intro hnil
  have hcells := h.cells_eq 0
  rw [hnil, @cells_eq_nil_iff .tab ⟨0, []⟩ |>.mpr ⟨[], rfl, by simp⟩] at hcells
  simpa [h.ne_nil] using hcells.symm

end

/-! ## Rows -/

/-- A text that says a duration: a decimal text, and the number that it says is finite and not below zero. -/
structure DurationText where
  text : String
  value : Float
  isFinite : value.isFinite = true
  nonneg : 0 ≤ value
  reads : ∃ numeral, Decimal.readNumeral? text.toList = some numeral ∧ numeral.toFloat = value

namespace DurationText

theorem duration?_eq (cell : DurationText) : duration? cell.text.toList = some cell.value := by
  obtain ⟨text, value, hfinite, hnonneg, numeral, hnumeral, rfl⟩ := cell
  simp only [duration?, hnumeral, hfinite, hnonneg, decide_true, Bool.and_self, if_true]

/-- No white space stands in the text. -/
theorem not_isBlank (cell : DurationText) : ∀ c ∈ cell.text.toList, Text.isBlank c = false := by
  obtain ⟨numeral, hnumeral, _⟩ := cell.reads
  exact fun c hc => Decimal.not_isBlank_of_isNumeralChar (Decimal.isNumeralChar_of_readNumeral? hnumeral hc)

theorem text_ne_empty (cell : DurationText) : cell.text ≠ "" := by
  intro hempty
  obtain ⟨numeral, hnumeral, _⟩ := cell.reads
  rw [hempty] at hnumeral
  cases hnumeral

end DurationText

/-- The texts of a row. -/
def rowTexts (row : List DurationText) : List String :=
  row.map DurationText.text

/-- The durations that a row says. -/
def rowValues (row : List DurationText) : List Float :=
  row.map DurationText.value

section
variable {row : List DurationText}

/-- Texts that say durations can stand in one line. -/
theorem canBeTabbed_rowTexts (hne : row ≠ []) : CanBeTabbed (rowTexts row) := by
  have hno : ∀ {c : Char}, Text.isBlank c = true → ∀ text ∈ rowTexts row, c ∉ text.toList := by
    intro c hc text htext hmem
    obtain ⟨cell, _, rfl⟩ := List.mem_map.mp htext
    rw [cell.not_isBlank c hmem] at hc
    exact Bool.false_ne_true hc
  refine ⟨hno (by decide), hno (by decide), hno (by decide), ?_, ?_⟩
  · intro text htext
    obtain ⟨cell, _, rfl⟩ := List.mem_map.mp htext
    exact Text.trimWith_of_forall_not cell.not_isBlank
  · obtain ⟨cell, rest, rfl⟩ := List.exists_cons_of_ne_nil hne
    exact ⟨cell.text, List.mem_cons_self, cell.text_ne_empty⟩

/-- Durations are read as they are said. -/
theorem durations_rowTexts {columns : List String} (hlength : row.length = columns.length) :
    durations columns ((rowTexts row).map String.toList) = .ok (rowValues row) := by
  induction row generalizing columns with
  | nil =>
    obtain rfl := List.length_eq_zero_iff.mp hlength.symm
    rfl
  | cons cell row ih =>
    cases columns with
    | nil => cases hlength
    | cons column columns =>
      rw [rowTexts, List.map_cons, List.map_cons, durations, cell.duration?_eq]
      exact congrArg (Except.map (cell.value :: ·)) (ih (Nat.succ.inj hlength))

/-- **A line of texts that say durations gives the row of these durations**, and no fault. -/
theorem row_tabbedLine {columns : List String} (hne : row ≠ []) (hlength : row.length = columns.length) :
    lineRow? .tab columns (tabbedLine (rowTexts row)) = some (rowValues row) ∧
      lineFault? .tab columns (tabbedLine (rowTexts row)) = none := by
  have hcells := (canBeTabbed_rowTexts hne).cells_eq 0
  have hrow : Line.row .tab columns ⟨0, tabbedLine (rowTexts row)⟩ = .ok (some (rowValues row)) := by
    obtain ⟨cell, rest, rfl⟩ := List.exists_cons_of_ne_nil hne
    have hcount : ((rowTexts (cell :: rest)).map String.toList).length = columns.length := by
      simpa [rowTexts] using hlength
    have hdurations := durations_rowTexts hlength
    rw [rowTexts, List.map_cons, List.map_cons] at hcells hcount hdurations
    unfold Line.row
    rw [rowTexts, List.map_cons, hcells]
    simp only [rowOfCells, if_pos hcount, hdurations]
    rfl
  unfold lineRow? lineFault?
  rw [hrow]
  exact ⟨rfl, rfl⟩

end

/-! ## Tables -/

/-- The content of a table: the names of its columns and its rows, each in one line of cells that is ended. -/
def tabbed (columns : List String) (rows : List (List String)) : List UInt8 :=
  ended ((columns :: rows).map tabbedLine)

/-- Names that can head the columns of such a table: at least two of them, so that the line holds a tab, and the first
    does not start with the byte order mark. -/
structure CanHead (columns : List String) : Prop extends CanBeTabbed columns where
  two_le : 2 ≤ columns.length
  no_mark : ∀ name ∈ columns.head?, name.toList.head? ≠ some '\ufeff'

/-- A text whose bytes start with the byte order mark starts with that character. -/
theorem head?_of_byteOrderMark {text : List Char} (h : byteOrderMark <+: Utf8.encode text) :
    text.head? = some '\ufeff' := by
  obtain ⟨rest, hrest⟩ := h
  have hmark : Utf8.nextChar? (Utf8.encode text) = some '\ufeff' := Utf8.nextChar?_eq_some_iff.mpr ⟨rest, hrest.symm⟩
  cases text with
  | nil => cases hrest
  | cons c text =>
    have hfirst : Utf8.nextChar? (Utf8.encode (c :: text)) = some c :=
      Utf8.nextChar?_eq_some_iff.mpr ⟨Utf8.encode text, Utf8.encode_cons c text⟩
    rw [hfirst] at hmark
    exact hmark

section
variable {columns : List String} (h : CanHead columns)
include h

theorem CanHead.tab_mem : tab ∈ tabbedLine columns := by
  obtain ⟨first, second, rest, rfl⟩ : ∃ first second rest, columns = first :: second :: rest := by
    match columns, h.two_le with
    | first :: second :: rest, _ => exact ⟨first, second, rest, rfl⟩
  rw [tabbedLine_eq, List.map_cons, List.map_cons, List.intercalate_cons_cons, Utf8.encode_append, Utf8.encode_append]
  exact List.mem_append_left _ (List.mem_append_right _ List.mem_cons_self)

/-- The line of the header does not start with the byte order mark. -/
theorem CanHead.not_mark : ¬byteOrderMark <+: tabbedLine columns := by
  intro hmark
  rw [tabbedLine_eq] at hmark
  have hhead := head?_of_byteOrderMark hmark
  obtain ⟨first, second, rest, rfl⟩ : ∃ first second rest, columns = first :: second :: rest := by
    match columns, h.two_le with
    | first :: second :: rest, _ => exact ⟨first, second, rest, rfl⟩
  rw [List.map_cons, List.map_cons, List.intercalate_cons_cons] at hhead
  cases hfirst : first.toList with
  | nil =>
    rw [hfirst] at hhead
    cases hhead
  | cons c text =>
    rw [hfirst] at hhead
    exact h.no_mark first rfl (by rw [hfirst]; exact hhead)

end

/-! ## Contents that were written -/

section
variable {columns : List String} (h : CanHead columns) (rows : List (List String))
include h

omit h in
theorem tabbed_eq (columns : List String) (rows : List (List String)) :
    tabbed columns rows = tabbedLine columns ++ lineFeed :: ended (rows.map tabbedLine) := by
  rw [tabbed, ended, List.map_cons, List.flatMap_cons, List.append_assoc]
  rfl

/-- **The tab in the header is seen**: nothing stands in front of that line, and it is no white space. -/
theorem CanHead.ofData?_tabbed : Delimiter.ofData? (tabbed columns rows) = some .tab := by
  have hfeed : ∀ b ∈ tabbedLine columns, (b == lineFeed) = false := fun b hb =>
    (Bool.or_eq_false_iff.mp (h.not_isLineEnd b hb)).1
  have hvisible : (tabbedLine columns).all Text.isBlankByte = false := by
    rw [Bool.eq_false_iff]
    intro hall
    -- a line of white space has no cells
    have hidle : ∀ c ∈ ['\t'].intercalate (columns.map String.toList), isAsciiBlank c = true := by
      rw [tabbedLine_eq, List.all_eq_true, ← Text.trimWith_eq_nil_iff, sameTest_blank.trimWith_encode] at hall
      rw [← Text.trimWith_eq_nil_iff]
      exact Utf8.encode_injective hall
    have hnil : Line.cells .tab ⟨0, tabbedLine columns⟩ = .ok [] :=
      cells_eq_nil_iff.mpr ⟨_, tabbedLine_eq columns, hidle⟩
    rw [h.cells_eq] at hnil
    exact h.ne_nil (List.map_eq_nil_iff.mp (Except.ok.inj hnil))
  have htab : (tabbedLine columns).contains tab = true := List.contains_iff_mem.mpr h.tab_mem
  rw [Delimiter.ofData?, tabbed_eq, Text.splitWith_piece_mark hfeed (beq_self_eq_true lineFeed),
    List.find?_cons_of_pos (by rw [hvisible]; rfl)]
  simp only [htab, if_true]

/-- No byte order mark is taken away. -/
theorem CanHead.withoutMark_tabbed : withoutMark (tabbed columns rows) = tabbed columns rows := by
  rw [withoutMark_eq, if_neg]
  intro hmark
  -- the mark stands in the header, or it holds the line feed behind it
  rw [tabbed_eq] at hmark
  rcases List.prefix_or_prefix_of_prefix hmark (List.prefix_append (tabbedLine columns) _) with hin | hout
  · exact h.not_mark hin
  · exact absurd (hout.mem h.tab_mem) (by decide)

/-- **The lines of a content that was written are those that were written into it.** -/
theorem CanHead.bytes_linesOf_tabbed (hrows : ∀ row ∈ rows, CanBeTabbed row) :
    (linesOf (tabbed columns rows)).map (·.bytes) = (columns :: rows).map tabbedLine := by
  have hall : ∀ cells ∈ columns :: rows, CanBeTabbed cells :=
    List.forall_mem_cons.mpr ⟨h.toCanBeTabbed, hrows⟩
  have hbare : ((columns :: rows).map tabbedLine).flatMap bareLines = (columns :: rows).map tabbedLine := by
    have hone : ∀ line ∈ (columns :: rows).map tabbedLine, bareLines line = [line] :=
      List.forall_mem_map.mpr fun cells hcells => Text.splitWith_of_forall_not (hall cells hcells).not_isLineEnd
    rw [List.flatMap_congr hone, List.flatMap_singleton']
  have hfilled : ∀ line ∈ (columns :: rows).map tabbedLine, isFilled line = true := by
    rw [List.forall_mem_map]
    intro cells hcells
    simpa [isFilled] using (hall cells hcells).tabbedLine_ne_nil
  rw [bytes_linesOf, h.withoutMark_tabbed, tabbed, bareLines_ended, hbare, List.filter_append,
    List.filter_eq_self.mpr hfilled]
  exact List.append_nil _

end

/-- **Reading undoes writing.** -/
theorem parse_tabbed {columns : List String} (hcolumns : CanHead columns) {rows : List (List DurationText)}
    (hrows : ∀ row ∈ rows, row.length = columns.length) (path : Path) :
    Records.parse path (tabbed columns (rows.map rowTexts)) = ⟨[], some ⟨path, columns, rows.map rowValues⟩⟩ ∧
      warnings path (tabbed columns (rows.map rowTexts)) = [] := by
  have hne : ∀ row ∈ rows, row ≠ [] := by
    rintro row hrow rfl
    exact hcolumns.ne_nil (List.length_eq_zero_iff.mp (hrows [] hrow).symm)
  have hlines := hcolumns.bytes_linesOf_tabbed (rows.map rowTexts)
    (List.forall_mem_map.mpr fun row hrow => canBeTabbed_rowTexts (hne row hrow))
  obtain ⟨header, after, hcut, hheader, hafter⟩ := List.map_eq_cons_iff.mp hlines
  have hnames : (columns.map String.toList).map String.ofList = columns := by
    rw [List.map_map]
    exact List.map_id'' (fun name => String.ofList_toList) columns
  have hat : HeaderAt .tab (linesOf (tabbed columns (rows.map rowTexts))) [] header after (columns.map String.toList) :=
    { lines_eq := hcut
      headless := fun line hline => absurd hline List.not_mem_nil
      cells_eq := by
        have hcells := hcolumns.cells_eq header.number
        rwa [← hheader] at hcells
      cells_ne := by simpa using hcolumns.ne_nil }
  have hparse := parse_of_headerAt path (hcolumns.ofData?_tabbed _) hat
  rw [hnames, List.nil_append] at hparse
  have hvalues : after.filterMap (fun line => lineRow? .tab columns line.bytes) = rows.map rowValues := by
    have hbytes : after.filterMap (fun line => lineRow? .tab columns line.bytes) =
        ((rows.map rowTexts).map tabbedLine).filterMap (lineRow? .tab columns) := by
      rw [← hafter, List.filterMap_map]
      rfl
    rw [hbytes, List.filterMap_map, List.filterMap_map, ← List.filterMap_eq_map]
    exact List.filterMap_congr fun row hrow => (row_tabbedLine (hne row hrow) (hrows row hrow)).1
  have hskipped : after.filterMap (skippedRow? .tab columns) = [] := by
    rw [List.filterMap_eq_nil_iff]
    intro line hline
    obtain ⟨cells, hcells, hbytes⟩ := List.mem_map.mp (hafter ▸ List.mem_map_of_mem hline)
    obtain ⟨row, hrow, rfl⟩ := List.mem_map.mp hcells
    rw [skippedRow?, ← hbytes, (row_tabbedLine (hne row hrow) (hrows row hrow)).2]
    rfl
  rw [hvalues, hskipped] at hparse
  refine ⟨hparse, ?_⟩
  rw [warnings_eq, hparse]
  rfl

/-- Names with spaces and a quotation mark, one that is empty, two that agree; a number that says nothing of its
    sign, and a zero with one. -/
theorem parse_tabbed_quotation :
    let columns := ["write time", "", "\"3", "\"3"]
    CanHead columns ∧
      Records.parse ⟨[]⟩ (Utf8.encode "write time\t\t\"3\t\"3\n+1.5e1\t-0\t.5\t2\n".toList) =
        ⟨[], some ⟨⟨[]⟩, columns, [[15.0, -0.0, 0.5, 2.0]]⟩⟩ := by
  intro columns
  have hcolumns : CanHead columns :=
    { no_tab := by decide
      no_lineFeed := by decide
      no_return := by decide
      trimmed := by decide
      filled := ⟨"write time", by decide, by decide⟩
      two_le := by decide
      no_mark := by decide }
  let row : List DurationText :=
    [⟨"+1.5e1", 15.0, rfl, by decide, ⟨_, rfl, rfl⟩⟩, ⟨"-0", -0.0, rfl, by decide, ⟨_, rfl, rfl⟩⟩,
      ⟨".5", 0.5, rfl, by decide, ⟨_, rfl, rfl⟩⟩, ⟨"2", 2.0, rfl, by decide, ⟨_, rfl, rfl⟩⟩]
  have hlengths : ∀ r ∈ [row], r.length = columns.length := by
    intro r hr
    rw [List.mem_singleton.mp hr]
    rfl
  have hcontent : tabbed columns [rowTexts row] = Utf8.encode "write time\t\t\"3\t\"3\n+1.5e1\t-0\t.5\t2\n".toList := by
    rw [tabbed, List.map_cons, List.map_cons, List.map_nil, tabbedLine_eq, tabbedLine_eq]
    rfl
  have hparse := (parse_tabbed hcolumns hlengths ⟨[]⟩).1
  rw [List.map_singleton, hcontent] at hparse
  exact ⟨hcolumns, hparse⟩

end LatencyReport
