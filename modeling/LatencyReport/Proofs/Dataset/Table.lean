import LatencyReport.Dataset.Table
import LatencyReport.Proofs.Dataset.File
import LatencyReport.Proofs.Decimal.Layout
import LatencyReport.Proofs.Storage.Change
import LatencyReport.Proofs.Text.Numeral
import LatencyReport.Proofs.Text.Utf8

/-!
# `Proofs.Dataset.Table` — the table read as comma-separated text

Comma-separated text has a grammar of its own: a cell may stand in quotation marks, and then commas and line ends belong
to it and a mark is written twice; lines without anything are no records (`Csv.records`). The table never needs the
marks. **Its cells are plain**, since no label, no phase and no number has a comma, a quotation mark or a line end in its
text, and so the records are the lines, cell by cell (`Csv.decode_tableText`).

The numbers are read back from their cells as they were (`Decimal.readNumeral?_finite`), so the table tells the dataset,
entry by entry and nothing else (`table_decodes`).

## Contents

* `Csv.records`, `Csv.decode` — comma-separated text;
* `Csv.IsPlain`, `Csv.records_line`, `Csv.decode_tableText` — plain cells;
* `Row.entries`, `Dataset.entries`, `Entry.IsToldBy` — what a table has to tell;
* `readNumber?_numberCell`, `isPlain_numberCell` — the cells of a line;
* `table_decodes` — the whole table, and a table of three entries.
-/

namespace LatencyReport

open Storage

/-! ## Comma-separated text -/

namespace Csv

/-- Where a reader stands. -/
inductive Stand where
  /-- Before a cell. -/
  | start
  /-- In a cell that does not start with a quotation mark. -/
  | bare
  /-- Between quotation marks. -/
  | quoted
  /-- Behind a mark that may be the second one of the cell or the first one of two. -/
  | closed
deriving DecidableEq

/-- The records of a text. `cell` is what was read of the cell, and `record` the cells before it. -/
def records : Stand → (cell : List Char) → (record : List (List Char)) → List Char → List (List (List Char))
  | stand, cell, record, [] => if stand = .start && record.isEmpty then [] else [record ++ [cell]]
  | .quoted, cell, record, c :: rest =>
    if c = '\x22' then records .closed cell record rest else records .quoted (cell ++ [c]) record rest
  | stand, cell, record, c :: rest =>
    if c = '\x22' && stand = .start then records .quoted [] record rest
    else if c = '\x22' && stand = .closed then records .quoted (cell ++ ['\x22']) record rest
    else if c = ',' then records .start [] (record ++ [cell]) rest
    else if c = '\n' || c = '\r' then
      if stand = .start && record.isEmpty then records .start [] [] rest
      else (record ++ [cell]) :: records .start [] [] rest
    else records .bare (cell ++ [c]) record rest

/-- The records of a file, if it is text. -/
def decode (bytes : List UInt8) : Option (List (List String)) :=
  match Utf8.decode bytes with
  | .error _ => none
  | .ok text => some ((records .start [] [] text).map (·.map String.ofList))

/-- A cell that needs no quotation marks. -/
def IsPlain (cell : List Char) : Prop :=
  cell ≠ [] ∧ ∀ c ∈ cell, c ≠ '\x22' ∧ c ≠ ',' ∧ c ≠ '\n' ∧ c ≠ '\r'

theorem isPlain_iff {cell : List Char} :
    (!cell.isEmpty && cell.all fun c => c != '\x22' && (c != ',' && (c != '\n' && c != '\r'))) = true ↔ IsPlain cell := by
  simp [IsPlain]

instance (cell : List Char) : Decidable (IsPlain cell) :=
  decidable_of_iff _ isPlain_iff

theorem records_bare {cell : List Char} (h : ∀ c ∈ cell, c ≠ '\x22' ∧ c ≠ ',' ∧ c ≠ '\n' ∧ c ≠ '\r')
    (before : List Char) (record : List (List Char)) (rest : List Char) :
    records .bare before record (cell ++ rest) = records .bare (before ++ cell) record rest := by
  induction cell generalizing before with
  | nil => rw [List.nil_append, List.append_nil]
  | cons c others ih =>
    rw [List.forall_mem_cons] at h
    obtain ⟨⟨hmark, hcomma, hline, hreturn⟩, hothers⟩ := h
    have hstep : records .bare before record (c :: (others ++ rest)) =
        records .bare (before ++ [c]) record (others ++ rest) := by
      simp [records, hmark, hcomma, hline, hreturn]
    rw [List.cons_append, hstep, ih hothers, List.append_assoc, List.singleton_append]

/-- A plain cell is read as it stands. -/
theorem records_plain {cell : List Char} (h : IsPlain cell) (record : List (List Char)) (rest : List Char) :
    records .start [] record (cell ++ rest) = records .bare cell record rest := by
  obtain ⟨c, others, rfl⟩ := List.exists_cons_of_ne_nil h.1
  have hall := List.forall_mem_cons.mp h.2
  obtain ⟨⟨hmark, hcomma, hline, hreturn⟩, hothers⟩ := hall
  have hstep : records .start [] record (c :: (others ++ rest)) = records .bare [c] record (others ++ rest) := by
    simp [records, hmark, hcomma, hline, hreturn]
  rw [List.cons_append, hstep, records_bare hothers, List.singleton_append]

/-- **Plain cells with commas between them are one record.** -/
theorem records_line {cells : List (List Char)} (hne : cells ≠ []) (h : ∀ cell ∈ cells, IsPlain cell)
    (record : List (List Char)) (rest : List Char) :
    records .start [] record ([','].intercalate cells ++ '\n' :: rest) =
      (record ++ cells) :: records .start [] [] rest := by
  induction cells generalizing record with
  | nil => exact absurd rfl hne
  | cons cell others ih =>
    rw [List.forall_mem_cons] at h
    cases others with
    | nil =>
      rw [List.intercalate_singleton, records_plain h.1]
      simp [records]
    | cons other others =>
      have hcomma : ∀ more, records .bare cell record (',' :: more) = records .start [] (record ++ [cell]) more := by
        intro more
        simp [records]
      rw [List.intercalate_cons_cons, List.append_assoc, List.append_assoc, List.singleton_append, records_plain h.1,
        hcomma, ih (List.cons_ne_nil _ _) h.2, List.append_assoc, List.singleton_append]

/-- Lines of plain cells are their records. -/
theorem records_lines {lines : List (List (List Char))} (h : ∀ line ∈ lines, line ≠ [] ∧ ∀ cell ∈ line, IsPlain cell) :
    records .start [] [] (lines.flatMap fun line => [','].intercalate line ++ ['\n']) = lines := by
  induction lines with
  | nil => rfl
  | cons line others ih =>
    rw [List.forall_mem_cons] at h
    rw [List.flatMap_cons, List.append_assoc, List.singleton_append, records_line h.1.1 h.1.2, List.nil_append, ih h.2]

/-- **A table of plain cells is read line by line**, the names of its columns first. -/
theorem decode_tableText {lines : List (List String)} (hlines : lines ≠ [])
    (h : ∀ line ∈ tableColumns :: lines, line ≠ [] ∧ ∀ cell ∈ line, IsPlain cell.toList) :
    decode (Utf8.encode (Dataset.tableText lines).toList) = some (tableColumns :: lines) := by
  have htext : (Dataset.tableText lines).toList =
      ((tableColumns :: lines).map (·.map String.toList)).flatMap fun line => [','].intercalate line ++ ['\n'] := by
    obtain ⟨line, others, rfl⟩ := List.exists_cons_of_ne_nil hlines
    have hjoin : Dataset.tableText (line :: others) =
        String.join ((tableColumns :: line :: others).map Dataset.lineText) := rfl
    rw [hjoin, String.toList_join, List.flatMap_map, List.flatMap_map]
    refine List.flatMap_congr fun cells _ => ?_
    rw [Dataset.lineText, String.toList_append, String.toList_intercalate]
    rfl
  have hplain : ∀ line ∈ (tableColumns :: lines).map (·.map String.toList),
      line ≠ [] ∧ ∀ cell ∈ line, IsPlain cell := by
    rw [List.forall_mem_map]
    intro line hline
    obtain ⟨hne, hcells⟩ := h line hline
    exact ⟨by simpa using hne, List.forall_mem_map.mpr hcells⟩
  have hback : ((tableColumns :: lines).map (·.map String.toList)).map (·.map String.ofList) = tableColumns :: lines := by
    simp [Function.comp_def]
  rw [decode, Utf8.decode_encode]
  simp only [htext, records_lines hplain, hback]

/-- Quotation marks are read, though a table has none. -/
example : records .start [] [] ['\x22', 'a', ',', '\x22', '\x22', '\n', '\x22', ',', 'b', '\r', '\n', '\n', 'c'] =
    [[['a', ',', '\x22', '\n'], ['b']], [['c']]] := by
  decide

end Csv

/-! ## What a table has to tell -/

/-- A phase of a row, with its summary. -/
structure Entry where
  experiment : Experiment
  phase : Phase
  summary : Summary

/-- The phases of a row that have a summary, in the order of phases. -/
def Row.entries (row : Row) : List Entry :=
  Phase.all.filterMap fun phase => (row.phases.get? phase).map fun summary => ⟨row.experiment, phase, summary⟩

/-- The entries of all rows, row by row. -/
def Dataset.entries (d : Dataset) : List Entry :=
  d.rows.flatMap Row.entries

/-- The number that a cell says. -/
def readNumber? (cell : String) : Option Float :=
  (Decimal.readNumeral? cell.toList).map Decimal.Numeral.toFloat

/-- A record tells an entry: six cells that hold the name of the label, the message size in decimal digits, the name of
    the phase, and three numbers that are read as those of the summary. -/
def Entry.IsToldBy (entry : Entry) (record : List String) : Prop :=
  ∃ size mean p99 max,
    record = [entry.experiment.label.name, size, entry.phase.column, mean, p99, max] ∧
      size = toString entry.experiment.messageSize ∧ Text.readUInt64 size.toList = .ok entry.experiment.messageSize ∧
      readNumber? mean = some entry.summary.mean ∧ readNumber? p99 = some entry.summary.p99 ∧
      readNumber? max = some entry.summary.max

/-- The numbers of a summary are numbers. -/
def Summary.IsFinite (s : Summary) : Prop :=
  ∀ statistic, (s.get statistic).isFinite = true

/-- The lines of a table are those of the entries. -/
theorem Dataset.tableLines_eq (d : Dataset) :
    d.tableLines = d.entries.map fun entry => [entry.experiment.label.name, toString entry.experiment.messageSize,
      entry.phase.column, numberCell entry.summary.mean, numberCell entry.summary.p99, numberCell entry.summary.max] := by
  rw [tableLines, entries, List.map_flatMap]
  refine List.flatMap_congr fun row _ => ?_
  rw [Row.lines, PhaseMap.toList, Row.entries, List.map_filterMap, List.map_filterMap]
  refine List.filterMap_congr fun phase _ => ?_
  cases row.phases.get? phase <;> rfl

/-! ## The cells of a line -/

/-- **A finite number is read back from its cell.** -/
theorem readNumber?_numberCell {x : Float} (h : x.isFinite = true) : readNumber? (numberCell x) = some x := by
  obtain ⟨n, hread, hvalue⟩ := Decimal.readNumeral?_finite .table h
  rw [readNumber?, numberCell, String.toList_ofList, Decimal.Layout.number, if_pos h, hread, Option.map_some, hvalue]

theorem isPlain_of_isNumeralChar {cell : List Char} (hne : cell ≠ [])
    (h : ∀ c ∈ cell, Decimal.isNumeralChar c = true) : Csv.IsPlain cell := by
  have hother : ∀ other : Char, Decimal.isNumeralChar other = false → ∀ c ∈ cell, c ≠ other :=
    fun other hnot c hc => ne_of_apply_ne Decimal.isNumeralChar (by rw [h c hc, hnot]; decide)
  exact ⟨hne, fun c hc => ⟨hother _ rfl c hc, hother _ rfl c hc, hother _ rfl c hc, hother _ rfl c hc⟩⟩

/-- The text of a finite number is plain. -/
theorem isPlain_numberCell {x : Float} (h : x.isFinite = true) : Csv.IsPlain (numberCell x).toList := by
  obtain ⟨n, hread, _⟩ := Decimal.readNumeral?_finite .table h
  rw [numberCell, String.toList_ofList, Decimal.Layout.number, if_pos h]
  refine isPlain_of_isNumeralChar ?_ fun c => Decimal.isNumeralChar_of_readNumeral? hread
  intro hnil
  rw [hnil] at hread
  cases hread

theorem isPlain_toString (n : UInt64) : Csv.IsPlain (toString n).toList := by
  have hspells := Text.spells_toString n
  refine isPlain_of_isNumeralChar ?_ fun c hc => ?_
  · obtain ⟨digits, htext | htext, hne, _⟩ := hspells
    · rwa [htext]
    · rw [htext]
      exact List.cons_ne_nil _ _
  · rcases hspells.isDigit_or_eq_plus hc with hdigit | rfl
    · apply Decimal.isNumeralChar_of_isDigit
      rw [Decimal.isDigit, Text.digitValue?_eq, if_pos hdigit]
      rfl
    · rfl

theorem isPlain_name (label : Label) : Csv.IsPlain label.name.toList := by
  cases label <;> decide

theorem isPlain_column (phase : Phase) : Csv.IsPlain phase.column.toList := by
  cases phase <;> decide

/-- What was written of a dataset is its table. -/
theorem read_of_writeTable {d : Dataset} {path : Path} {w : World} (h : ((d.writeTable path : Run _) w).1 = .ok ()) :
    ((d.writeTable path : Run _) w).2.storage.read path = .ok (Utf8.encode d.table.toList) := by
  have hrun : (writeFile path (Utf8.encode d.table.toList) : Run _) w =
      w.change (w.storage.write path (Utf8.encode d.table.toList)) := rfl
  rw [Dataset.writeTable, bind_eq, hrun] at h ⊢
  cases hwrite : w.storage.write path (Utf8.encode d.table.toList) with
  | error e =>
    rw [hwrite] at h
    cases h
  | ok storage => exact read_of_write hwrite

/-- **What is written of a dataset tells the dataset.** For every dataset that has an entry and only finite numbers, the
    table is read as the names of its columns and then one record for every phase of every row that has a summary: the
    rows in their order, the phases of a row in theirs, and each record with the label, the message size, the phase and
    the very numbers of the summary. What is written into a file is this text. -/
theorem table_decodes (d : Dataset) (hentries : d.entries ≠ []) (hfinite : ∀ entry ∈ d.entries, entry.summary.IsFinite) :
    ∃ records, Csv.decode (Utf8.encode d.table.toList) =
        some (["label", "message_size", "phase", "mean_us", "p99_us", "max_us"] :: records) ∧
      List.Forall₂ Entry.IsToldBy d.entries records ∧
      ∀ (path : Path) (w : World), ((d.writeTable path : Run _) w).1 = .ok () →
        ((d.writeTable path : Run _) w).2.storage.read path = .ok (Utf8.encode d.table.toList) := by
  refine ⟨d.tableLines, ?_, ?_, fun path w hwritten => ?_⟩
  · -- every cell of every line is plain, and those of the names of the columns are
    refine Csv.decode_tableText ?_ ?_
    · rw [d.tableLines_eq, Ne, List.map_eq_nil_iff]
      exact hentries
    · rw [List.forall_mem_cons, d.tableLines_eq, List.forall_mem_map]
      refine ⟨by decide, fun entry hentry => ⟨List.cons_ne_nil _ _, ?_⟩⟩
      have hnumbers := hfinite entry hentry
      simp only [List.forall_mem_cons, List.not_mem_nil, false_imp_iff, implies_true, and_true]
      exact ⟨isPlain_name _, isPlain_toString _, isPlain_column _, isPlain_numberCell (hnumbers .mean),
        isPlain_numberCell (hnumbers .p99), isPlain_numberCell (hnumbers .max)⟩
  · -- line by line, the cells are read back
    rw [d.tableLines_eq, List.forall₂_map_right_iff, List.forall₂_same]
    intro entry hentry
    have hnumbers := hfinite entry hentry
    exact ⟨_, _, _, _, rfl, rfl, Text.readUInt64_eq_ok_iff.mpr (Text.spells_toString _),
      readNumber?_numberCell (hnumbers .mean), readNumber?_numberCell (hnumbers .p99),
      readNumber?_numberCell (hnumbers .max)⟩
  · exact read_of_writeTable hwritten

/-- A table of three entries: two phases of a row with the greatest message size, not in the order in which they are
    given, a row without a summary, and one more row. Among the numbers are the least one there is and a zero with a
    sign. -/
theorem table_decodes_in_order :
    let least : Summary := ⟨5e-324, -0.0, 1e300⟩
    let other : Summary := ⟨0.1, 1e16, 123456789.125⟩
    let large : Experiment := ⟨.asyncIoSync, 18446744073709551615⟩
    let d : Dataset := ⟨[⟨large, .ofFn fun phase =>
        if phase = .nonBlocking then some least else if phase = .writeCompleted then some other else none⟩,
      ⟨⟨.mmapIo, 7⟩, .ofFn fun _ => none⟩, ⟨⟨.syncIo, 0⟩, .ofFn fun phase => if phase = .write then some least else none⟩]⟩
    ∃ first second third, Csv.decode (Utf8.encode d.table.toList) =
        some [["label", "message_size", "phase", "mean_us", "p99_us", "max_us"], first, second, third] ∧
      Entry.IsToldBy ⟨large, .writeCompleted, other⟩ first ∧ Entry.IsToldBy ⟨large, .nonBlocking, least⟩ second ∧
      Entry.IsToldBy ⟨⟨.syncIo, 0⟩, .write, least⟩ third := by
  intro least other large d
  have hentries : d.entries =
      [⟨large, .writeCompleted, other⟩, ⟨large, .nonBlocking, least⟩, ⟨⟨.syncIo, 0⟩, .write, least⟩] := by
    simp [d, Dataset.entries, Row.entries, Phase.all]
  have hfinite : ∀ entry ∈ d.entries, entry.summary.IsFinite := by
    have hleast : least.IsFinite := by rintro (_ | _ | _) <;> decide +kernel
    have hother : other.IsFinite := by rintro (_ | _ | _) <;> decide +kernel
    rw [hentries]
    simp [hleast, hother]
  obtain ⟨records, hdecode, htold, _⟩ := table_decodes d (hentries ▸ List.cons_ne_nil _ _) hfinite
  rw [hentries] at htold
  obtain ⟨first, _, hfirst, hrest, rfl⟩ := List.forall₂_cons_left_iff.mp htold
  obtain ⟨second, _, hsecond, hlast, rfl⟩ := List.forall₂_cons_left_iff.mp hrest
  obtain ⟨third, _, hthird, hnone, rfl⟩ := List.forall₂_cons_left_iff.mp hlast
  obtain rfl := List.forall₂_nil_left_iff.mp hnone
  exact ⟨first, second, third, hdecode, hfirst, hsecond, hthird⟩

end LatencyReport
