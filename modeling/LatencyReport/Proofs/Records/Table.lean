import LatencyReport.Proofs.Records.Lines

/-!
# `Proofs.Records.Table` — a table is its header and then line by line

Reading a content finds the header and cuts all lines after it. Nothing is carried from one line to the next: **each
line gives a row, a fault or nothing by itself** (`lineRow?`, `lineFault?`), and the table is the list of what the
lines give (`parse_of_headerAt`). Every table that is read has a header in that sense (`exists_headerAt`).

## Contents

* `lineRow?`, `lineFault?`, `skippedRow?` — what one line gives; `readRows_eq`;
* `Delimiter.Speaks`, `speaks_iff` — lines in which something stands; `lineRow?_or_lineFault?` — they give one thing;
* `Headless`, `HeaderAt`, `forall_headless_or_headerAt` — where the header is;
* `parse_of_headerAt`, `parse_of_headless`, `exists_headerAt` — the table, by its header.
-/

namespace LatencyReport

/-! ## One line -/

/-- The row that a line gives, if it gives one. -/
def lineRow? (δ : Delimiter) (columns : List String) (bytes : List UInt8) : Option (List Float) :=
  match Line.row δ columns ⟨0, bytes⟩ with
  | .ok row => row
  | .error _ => none

/-- Why a line is left out, if it is. -/
def lineFault? (δ : Delimiter) (columns : List String) (bytes : List UInt8) : Option RowFault :=
  match Line.row δ columns ⟨0, bytes⟩ with
  | .ok _ => none
  | .error fault => some fault

/-- The line as a row that is left out, if it is left out. -/
def skippedRow? (δ : Delimiter) (columns : List String) (line : Line) : Option SkippedRow :=
  (lineFault? δ columns line.bytes).map (⟨line.number, ·⟩)

/-- What a line is to the table, from what it gives. -/
theorem row_eq (δ : Delimiter) (columns : List String) (line : Line) :
    line.row δ columns =
      match lineFault? δ columns line.bytes with
      | some fault => .error fault
      | none => .ok (lineRow? δ columns line.bytes) := by
  have hnumber : line.row δ columns = Line.row δ columns ⟨0, line.bytes⟩ := rfl
  unfold lineFault? lineRow?
  rw [hnumber]
  cases Line.row δ columns ⟨0, line.bytes⟩ <;> rfl

theorem lineRow?_of_lineFault? {δ : Delimiter} {columns : List String} {bytes : List UInt8} {fault : RowFault}
    (h : lineFault? δ columns bytes = some fault) : lineRow? δ columns bytes = none := by
  unfold lineFault? at h
  unfold lineRow?
  cases hrow : Line.row δ columns ⟨0, bytes⟩ with
  | ok row => simp [hrow] at h
  | error cause => rfl

/-- **The rows of lines are what the lines give**, one by one. -/
theorem readRows_eq (δ : Delimiter) (columns : List String) (lines : List Line) :
    Records.readRows δ columns lines =
      (lines.filterMap (skippedRow? δ columns), lines.filterMap fun line => lineRow? δ columns line.bytes) := by
  induction lines with
  | nil => rfl
  | cons line rest ih =>
    rw [Records.readRows, ih, row_eq, List.filterMap_cons, List.filterMap_cons, skippedRow?]
    cases hfault : lineFault? δ columns line.bytes with
    | some fault => rw [lineRow?_of_lineFault? hfault]; rfl
    | none => cases lineRow? δ columns line.bytes <;> rfl

/-! ## Lines in which something stands -/

/-- A line says something to a delimiter: it is no text, or one of the cells that its text is cut into is not empty. -/
def Delimiter.Speaks (δ : Delimiter) (bytes : List UInt8) : Prop :=
  ¬Utf8.IsText bytes ∨ ∃ text, bytes = Utf8.encode text ∧ ∃ cell ∈ δ.cut text, cell ≠ []

/-- A line says nothing exactly when it has no cells and is no fault either. -/
theorem speaks_iff {δ : Delimiter} {line : Line} : δ.Speaks line.bytes ↔ line.cells δ ≠ .ok [] := by
  have hempty : ∀ text, (¬∃ cell ∈ δ.cut text, cell ≠ []) ↔ ∀ c ∈ text, δ.idle c = true := by
    intro text
    rw [← all_isEmpty_cut_iff, List.all_eq_true]
    simp
  rw [ne_eq, cells_eq_nil_iff, Delimiter.Speaks]
  constructor
  · rintro (hno | ⟨text, htext, hcell⟩) ⟨other, hother, hidle⟩
    · exact hno ⟨other, hother⟩
    · have hsame := Utf8.encode_injective (htext.symm.trans hother)
      exact (hempty text).mpr (hsame ▸ hidle) hcell
  · intro h
    by_cases htext : Utf8.IsText line.bytes
    · obtain ⟨text, htext⟩ := htext
      refine Or.inr ⟨text, htext, ?_⟩
      by_contra hcell
      exact h ⟨text, htext, (hempty text).mp hcell⟩
    · exact Or.inl htext

/-- A line is nothing to the table exactly when it has no cells. -/
theorem row_eq_none_iff {δ : Delimiter} {columns : List String} {line : Line} :
    line.row δ columns = .ok none ↔ line.cells δ = .ok [] := by
  unfold Line.row
  cases hcells : line.cells δ with
  | error fault => simp
  | ok cells =>
    cases cells with
    | nil => simp
    | cons cell cells => cases hrow : rowOfCells columns (cell :: cells) <;> simp [hrow, Except.map]

/-- **A line that says something gives a row or a fault, and not both**; any other line gives neither. -/
theorem lineRow?_or_lineFault? (δ : Delimiter) (columns : List String) (bytes : List UInt8) :
    (δ.Speaks bytes → (lineRow? δ columns bytes).isSome = !(lineFault? δ columns bytes).isSome) ∧
      (¬δ.Speaks bytes → lineRow? δ columns bytes = none ∧ lineFault? δ columns bytes = none) := by
  have hnone : δ.Speaks bytes ↔ Line.row δ columns ⟨0, bytes⟩ ≠ .ok none := by
    rw [ne_eq, row_eq_none_iff]
    exact @speaks_iff δ ⟨0, bytes⟩
  unfold lineRow? lineFault?
  constructor
  · intro h
    have hrow := hnone.mp h
    cases hline : Line.row δ columns ⟨0, bytes⟩ with
    | error fault => rfl
    | ok row =>
      cases row with
      | none => exact absurd hline hrow
      | some values => rfl
  · intro h
    rw [not_not.mp (mt hnone.mpr h)]
    exact ⟨rfl, rfl⟩

/-! ## The header -/

/-- No header stands in a line: it is no text, or nothing stands in it. -/
def Headless (δ : Delimiter) (line : Line) : Prop :=
  ∀ cells, line.cells δ = .ok cells → cells = []

/-- Where the header of lines is: behind lines in which none stands. -/
structure HeaderAt (δ : Delimiter) (lines before : List Line) (header : Line) (after : List Line)
    (cells : List (List Char)) : Prop where
  lines_eq : lines = before ++ header :: after
  headless : ∀ line ∈ before, Headless δ line
  cells_eq : header.cells δ = .ok cells
  cells_ne : cells ≠ []

/-- A line without a header is a fault exactly when its cells are. -/
theorem lineFault?_of_headless {δ : Delimiter} {line : Line} (h : Headless δ line) (columns : List String) :
    lineFault? δ columns line.bytes = match line.cells δ with | .error fault => some fault | .ok _ => none := by
  have hcells : line.cells δ = Line.cells δ ⟨0, line.bytes⟩ := rfl
  rw [lineFault?, Line.row, ← hcells]
  cases hline : line.cells δ with
  | error fault => rfl
  | ok cells => rw [h cells hline]

theorem readHeader_append {δ : Delimiter} {before : List Line} (h : ∀ line ∈ before, Headless δ line)
    (columns : List String) (rest : List Line) :
    Records.readHeader δ (before ++ rest) =
      (before.filterMap (skippedRow? δ columns) ++ (Records.readHeader δ rest).1, (Records.readHeader δ rest).2) := by
  induction before with
  | nil => rfl
  | cons line before ih =>
    have hline := h line List.mem_cons_self
    have hrest := ih fun l hl => h l (List.mem_cons_of_mem _ hl)
    rw [List.cons_append, Records.readHeader, List.filterMap_cons, skippedRow?, lineFault?_of_headless hline columns]
    cases hcells : line.cells δ with
    | error fault => simp [hrest]
    | ok cells => rw [hline cells hcells]; exact hrest

theorem readHeader_cons {δ : Delimiter} {header : Line} {cells : List (List Char)}
    (hcells : header.cells δ = .ok cells) (hne : cells ≠ []) (after : List Line) :
    Records.readHeader δ (header :: after) = ([], some (cells, after)) := by
  rw [Records.readHeader, hcells]
  cases cells with
  | nil => exact absurd rfl hne
  | cons cell cells => rfl

/-- **The header is in the first line in which one can stand**, if there is such a line. -/
theorem forall_headless_or_headerAt (δ : Delimiter) (lines : List Line) :
    (∀ line ∈ lines, Headless δ line) ∨ ∃ before header after cells, HeaderAt δ lines before header after cells := by
  induction lines with
  | nil => exact Or.inl (by simp)
  | cons line rest ih =>
    by_cases hline : Headless δ line
    · rcases ih with hall | ⟨before, header, after, cells, hat⟩
      · exact Or.inl (List.forall_mem_cons.mpr ⟨hline, hall⟩)
      · refine Or.inr ⟨line :: before, header, after, cells, ?_, ?_, hat.cells_eq, hat.cells_ne⟩
        · rw [hat.lines_eq, List.cons_append]
        · exact List.forall_mem_cons.mpr ⟨hline, hat.headless⟩
    · simp only [Headless, not_forall] at hline
      obtain ⟨cells, hcells, hne⟩ := hline
      exact Or.inr ⟨[], line, rest, cells, rfl, by simp, hcells, hne⟩

/-! ## Tables -/

/-- **The table of a content whose header is known** is what the lines after the header give, line by line; and what
    is left out is what the lines before and after it say is. -/
theorem parse_of_headerAt (path : Path) {δ : Delimiter} {data : List UInt8} {before after : List Line} {header : Line}
    {cells : List (List Char)} (hδ : Delimiter.ofData? data = some δ)
    (h : HeaderAt δ (linesOf data) before header after cells) :
    Records.parse path data =
      ⟨(before ++ after).filterMap (skippedRow? δ (cells.map String.ofList)),
        some ⟨path, cells.map String.ofList,
          after.filterMap fun line => lineRow? δ (cells.map String.ofList) line.bytes⟩⟩ := by
  have hheader : Records.readHeader δ (linesOf data) =
      (before.filterMap (skippedRow? δ (cells.map String.ofList)), some (cells, after)) := by
    rw [h.lines_eq, readHeader_append h.headless (cells.map String.ofList), readHeader_cons h.cells_eq h.cells_ne,
      List.append_nil]
  simp only [Records.parse, hδ, hheader, readRows_eq, List.filterMap_append]

/-- **There is no table without a header**; what is left out is what the lines say is. -/
theorem parse_of_headless (path : Path) {δ : Delimiter} {data : List UInt8} (hδ : Delimiter.ofData? data = some δ)
    (h : ∀ line ∈ linesOf data, Headless δ line) (columns : List String) :
    Records.parse path data = ⟨(linesOf data).filterMap (skippedRow? δ columns), none⟩ := by
  have hheader := readHeader_append h columns []
  rw [List.append_nil] at hheader
  simp only [Records.parse, hδ, hheader, Records.readHeader, List.append_nil]

/-- Nothing is read from a content that is white space. -/
theorem parse_of_ofData?_eq_none (path : Path) {data : List UInt8} (hδ : Delimiter.ofData? data = none) :
    Records.parse path data = ⟨[], none⟩ := by
  simp only [Records.parse, hδ]

/-- **A table that was read has a header.** -/
theorem exists_headerAt {path : Path} {data : List UInt8} {R : Records}
    (h : (Records.parse path data).records? = some R) :
    ∃ δ before header after cells, Delimiter.ofData? data = some δ ∧
      HeaderAt δ (linesOf data) before header after cells := by
  cases hδ : Delimiter.ofData? data with
  | none =>
    rw [parse_of_ofData?_eq_none path hδ] at h
    cases h
  | some δ =>
    rcases forall_headless_or_headerAt δ (linesOf data) with hall | ⟨before, header, after, cells, hat⟩
    · rw [parse_of_headless path hδ hall []] at h
      cases h
    · exact ⟨δ, before, header, after, cells, rfl, hat⟩

end LatencyReport
