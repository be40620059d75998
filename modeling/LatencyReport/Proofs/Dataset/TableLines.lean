import LatencyReport.Proofs.Dataset.RowOrder
import LatencyReport.Proofs.Dataset.Table

/-!
# `Proofs.Dataset.TableLines` — the lines of a table in its file

The names of the columns are not written by themselves: they come in front of the first line that tells a phase. So **a
table has its names exactly if some row has a phase** (`lines_of_writeTable`), and then it has one line more than there are
phases in its rows. A dataset without rows, and one whose rows have no phase, leave an empty file.

The lines are told by the bytes of the file, each of them in front of a line feed. No cell of any dataset breaks a line, be
its numbers finite or not (`isPlain_number`), so a line of the file is a line of the table.

## Contents

* `isPlain_number`, `isPlain_of_mem_tableLines` — the cells of every dataset are plain;
* `lineBytes`, `not_isLineEnd_lineBytes` — the bytes of a line;
* `Dataset.fileLines`, `encode_table` — the lines of the file;
* `Dataset.pairCount`, `length_tableLines` — how many there are;
* `lines_of_writeTable` — what a write leaves.
-/

namespace LatencyReport

open Storage

/-! ## The cells of every dataset -/

/-- The text of a number is plain, also of infinity and of what is no number. -/
theorem isPlain_number (x : Float) : Csv.IsPlain (numberCell x).toList := by
  by_cases hfinite : x.isFinite = true
  · exact isPlain_numberCell hfinite
  · rw [numberCell, String.toList_ofList, Decimal.Layout.number, if_neg hfinite]
    split_ifs <;> decide

theorem isPlain_of_mem_tableLines {d : Dataset} {cells : List String} (h : cells ∈ d.tableLines) :
    ∀ cell ∈ cells, Csv.IsPlain cell.toList := by
  rw [d.tableLines_eq] at h
  obtain ⟨entry, -, rfl⟩ := List.mem_map.mp h
  simp only [List.forall_mem_cons, List.not_mem_nil, false_imp_iff, implies_true, and_true]
  exact ⟨isPlain_name _, isPlain_toString _, isPlain_column _, isPlain_number _, isPlain_number _, isPlain_number _⟩

/-! ## The bytes of a line -/

/-- The bytes of a line, without the line feed. -/
def lineBytes (cells : List String) : List UInt8 :=
  Utf8.encode (String.intercalate "," cells).toList

theorem encode_lineText (cells : List String) : Utf8.encode (Dataset.lineText cells).toList = lineBytes cells ++ [lineFeed] := by
  rw [Dataset.lineText, String.toList_append, Utf8.encode_append]
  rfl

/-- What all cells keep clear of, and the comma too, is not in the line. -/
theorem not_mem_intercalate {c : Char} (hcomma : c ≠ ',') {cells : List (List Char)} (h : ∀ cell ∈ cells, c ∉ cell) :
    c ∉ [','].intercalate cells := by
  induction cells with
  | nil => exact List.not_mem_nil
  | cons cell others ih =>
    rw [List.forall_mem_cons] at h
    cases others with
    | nil =>
      rw [List.intercalate_singleton]
      exact h.1
    | cons other others =>
      rw [List.intercalate_cons_cons, List.append_assoc, List.mem_append, List.singleton_append, List.mem_cons]
      rintro (hfirst | hsep | hrest)
      · exact h.1 hfirst
      · exact hcomma hsep
      · exact ih h.2 hrest

/-- **A line of plain cells holds no line end.** -/
theorem not_isLineEnd_lineBytes {cells : List String} (h : ∀ cell ∈ cells, Csv.IsPlain cell.toList) :
    ∀ b ∈ lineBytes cells, isLineEnd b = false := by
  have hplain : ∀ cell ∈ cells.map String.toList, Csv.IsPlain cell := List.forall_mem_map.mpr h
  have hno : ∀ {c : Char} {code : UInt8}, code.toNat < 128 → String.utf8EncodeChar c = [code] → c ≠ ',' →
      (∀ cell ∈ cells.map String.toList, c ∉ cell) → code ∉ lineBytes cells := by
    intro c code hsmall hcode hcomma hcells
    unfold lineBytes
    rw [String.toList_intercalate]
    exact Utf8.not_mem_encode hsmall hcode (not_mem_intercalate hcomma hcells)
  have hfeed : lineFeed ∉ lineBytes cells :=
    hno (by decide) rfl (by decide) fun cell hcell hmem => ((hplain cell hcell).2 '\n' hmem).2.2.1 rfl
  have hreturn : carriageReturn ∉ lineBytes cells :=
    hno (by decide) rfl (by decide) fun cell hcell hmem => ((hplain cell hcell).2 '\r' hmem).2.2.2 rfl
  intro b hb
  rw [isLineEnd, Bool.or_eq_false_iff, beq_eq_false_iff_ne, beq_eq_false_iff_ne]
  exact ⟨ne_of_mem_of_not_mem hb hfeed, ne_of_mem_of_not_mem hb hreturn⟩

/-! ## The lines of the file -/

namespace Dataset

/-- The lines of the file: the names of the columns in front of the others, if there are others. -/
def fileLines (d : Dataset) : List (List UInt8) :=
  if d.tableLines = [] then [] else (tableColumns :: d.tableLines).map lineBytes

theorem encode_lines (lines : List (List String)) :
    Utf8.encode (String.join (lines.map lineText)).toList = ended (lines.map lineBytes) := by
  rw [String.toList_join, List.flatMap_map, ended, List.flatMap_map]
  induction lines with
  | nil => rfl
  | cons cells others ih =>
    rw [List.flatMap_cons, List.flatMap_cons, Utf8.encode_append, encode_lineText, ih]

/-- **The table is its lines**, each of them ended. -/
theorem encode_table (d : Dataset) : Utf8.encode d.table.toList = ended d.fileLines := by
  unfold table fileLines
  cases d.tableLines with
  | nil => rfl
  | cons cells others =>
    rw [if_neg (List.cons_ne_nil _ _)]
    exact encode_lines (tableColumns :: cells :: others)

theorem not_isLineEnd_of_mem_fileLines {d : Dataset} {line : List UInt8} (h : line ∈ d.fileLines) :
    ∀ b ∈ line, isLineEnd b = false := by
  unfold fileLines at h
  split_ifs at h with hnone
  · exact absurd h List.not_mem_nil
  · obtain ⟨cells, hcells, rfl⟩ := List.mem_map.mp h
    apply not_isLineEnd_lineBytes
    rcases List.mem_cons.mp hcells with rfl | hcells
    · decide
    · exact isPlain_of_mem_tableLines hcells

/-- How many phases the rows have, all together. -/
def pairCount (d : Dataset) : ℕ :=
  (d.rows.map fun row => row.phases.toList.length).sum

theorem length_tableLines (d : Dataset) : d.tableLines.length = d.pairCount := by
  rw [tableLines, List.length_flatMap, pairCount]
  refine congrArg List.sum (List.map_congr_left fun row _ => ?_)
  rw [Row.lines, List.length_map]

theorem tableLines_eq_nil_iff {d : Dataset} : d.tableLines = [] ↔ ∀ row ∈ d.rows, row.phases.toList = [] := by
  simp only [tableLines, List.flatMap_eq_nil_iff, Row.lines, List.map_eq_nil_iff]

/-- **What a write of the table leaves.** The file is made of lines, each of them with its line feed and none with a line end
    in it. The first line is that of the names, and there is one more line for every phase of every row, exactly if some row
    has a phase. If no row has one, or there is no row, the file is empty. -/
theorem lines_of_writeTable {d : Dataset} {path : Path} {w : World} (h : ((d.writeTable path : Run _) w).1 = .ok ()) :
    ∃ lines, ((d.writeTable path : Run _) w).2.storage.read path = .ok (ended lines) ∧
      (∀ line ∈ lines, ∀ b ∈ line, isLineEnd b = false) ∧
      (lines.head? = some (Utf8.encode "label,message_size,phase,mean_us,p99_us,max_us".toList) ∧
          lines.length = d.pairCount + 1 ↔
        ∃ row ∈ d.rows, row.phases.toList ≠ []) ∧
      ((∀ row ∈ d.rows, row.phases.toList = []) → lines = []) := by
  have hread := read_of_writeTable h
  rw [encode_table] at hread
  refine ⟨d.fileLines, hread, fun line hline => not_isLineEnd_of_mem_fileLines hline, ?_, fun hnone => ?_⟩
  · have hsome : (∃ row ∈ d.rows, row.phases.toList ≠ []) ↔ d.tableLines ≠ [] := by
      rw [Ne, tableLines_eq_nil_iff]
      push Not
      rfl
    rw [hsome, fileLines]
    split_ifs with hempty
    · exact ⟨fun hnames => absurd hnames.1 nofun, fun hne => absurd hempty hne⟩
    · rw [List.map_cons, List.head?_cons, List.length_cons, List.length_map, d.length_tableLines]
      exact ⟨fun _ => hempty, fun _ => ⟨rfl, rfl⟩⟩
  · rw [fileLines, if_pos (tableLines_eq_nil_iff.mpr hnone)]

/-- A row with a summary of one phase, and one without. Its numbers are infinite and no number. -/
theorem lines_of_writeTable_infinite :
    let summary : Summary := ⟨0 / 0, 1 / 0, -1 / 0⟩
    let d : Dataset := ⟨[⟨⟨.syncIo, 4⟩, .ofFn fun phase => if phase = .write then some summary else none⟩,
      ⟨⟨.syncIo, 8⟩, .ofFn fun _ => none⟩]⟩
    let path : Path := .ofString "summary.csv"
    let w : World := { storage := ⟨.dir [], []⟩ }
    ((d.writeTable path : Run _) w).1 = .ok () ∧
      ∃ lines, ((d.writeTable path : Run _) w).2.storage.read path = .ok (ended lines) ∧
        lines.head? = some (Utf8.encode "label,message_size,phase,mean_us,p99_us,max_us".toList) ∧ lines.length = 2 := by
  intro summary d path w
  have hwritten : ((d.writeTable path : Run _) w).1 = .ok () := rfl
  have hcount : d.pairCount = 1 := by decide +kernel
  have hphase : ∃ row ∈ d.rows, row.phases.toList ≠ [] := by
    refine ⟨_, List.mem_cons_self, List.ne_nil_of_length_pos ?_⟩
    decide +kernel
  obtain ⟨lines, hread, -, hnames, -⟩ := lines_of_writeTable hwritten
  obtain ⟨hhead, hlength⟩ := hnames.mpr hphase
  rw [hcount] at hlength
  exact ⟨hwritten, lines, hread, hhead, hlength⟩

/-- A dataset without rows, and one whose row has no phase: the write succeeds, and the file has no first line. -/
theorem names_missing_without_phases :
    let path : Path := .ofString "summary.csv"
    let w : World := { storage := ⟨.dir [], []⟩ }
    ∀ d ∈ ([⟨[]⟩, ⟨[⟨⟨.syncIo, 4⟩, .ofFn fun _ => none⟩]⟩] : List Dataset),
      ((d.writeTable path : Run _) w).1 = .ok () ∧ ((d.writeTable path : Run _) w).2.storage.read path = .ok [] := by
  intro path w d hd
  rcases List.mem_cons.mp hd with rfl | hd
  · exact ⟨rfl, rfl⟩
  · obtain rfl := List.mem_singleton.mp hd
    exact ⟨rfl, rfl⟩

end Dataset

end LatencyReport
