import LatencyReport.Proofs.Dataset.RowOrder
import LatencyReport.Proofs.Records.Layout
import LatencyReport.Proofs.Records.Written

/-!
# `Proofs.Records.Gaps` — tabs or spaces between the cells

A table can be laid out with one tab between the cells of a line, or with any run of spaces. The header tells the reader
which, and a line is cut in two quite different ways: between its tabs, with white space trimmed from every piece, or
into its words. **Where every cell is a word, the table is the same** (`parse_of_gaps`): the same columns, the same rows,
and the same rows left out for the same reasons.

Words with tabs between them are these words for either way of cutting (`cells_of_isLineOf`). So it does no harm that a
header of one column holds no tab, and its rows are cut into words although there are tabs in them; and a row is compared
with the header by its cells alone, however many they are.

## Contents

* `IsWord`, `Delimiter.IsGap`, `Delimiter.Joins`, `Delimiter.IsLineOf`, `Delimiter.IsTableOf` — words laid out;
* `words_of_joins`, `textFields_of_joins`, `cells_of_isLineOf` — the cells of a line;
* `parse_ended` — the table of lines that are ended;
* `statedRow?`, `lineRow?_of_cells` — the row that cells say;
* `IsWordTable`, `rows_of_lines` — a table of words, and the rows of its lines;
* `parse_of_isTableOf`, `parse_of_gaps` — the table, with gaps of either kind.
-/

namespace LatencyReport

/-! ## Words laid out -/

/-- A cell that is a word: it is not empty, and no white space stands in it. -/
structure IsWord (cell : String) : Prop where
  ne_empty : cell ≠ ""
  not_isBlank : ∀ c ∈ cell.toList, Text.isBlank c = false

/-- A run of spaces, or nothing. -/
def IsSpaces (s : List Char) : Prop :=
  ∀ c ∈ s, c = ' '

namespace Delimiter

/-- What stands between two cells: one tab, or a run of spaces. -/
def IsGap : Delimiter → List Char → Prop
  | .tab, gap => gap = ['\t']
  | .blanks, gap => gap ≠ [] ∧ IsSpaces gap

/-- Cells one after the other, with a gap between any two. -/
inductive Joins (δ : Delimiter) : List String → List Char → Prop where
  | nil : Joins δ [] []
  | last (cell : String) : Joins δ [cell] cell.toList
  | next (cell : String) {other : String} {rest : List String} {gap line : List Char} (hgap : δ.IsGap gap)
      (hrest : Joins δ (other :: rest) line) : Joins δ (cell :: other :: rest) (cell.toList ++ (gap ++ line))

/-- A line of cells, with or without spaces at either end. -/
def IsLineOf (δ : Delimiter) (cells : List String) (line : List Char) : Prop :=
  ∃ left inner right, line = left ++ inner ++ right ∧ IsSpaces left ∧ IsSpaces right ∧ δ.Joins cells inner

/-- **A content is a table**: a line for each list of cells, and a line feed behind every line. -/
def IsTableOf (δ : Delimiter) (table : List (List String)) (data : List UInt8) : Prop :=
  ∃ lines, List.Forall₂ δ.IsLineOf table lines ∧ data = ended (lines.map Utf8.encode)

end Delimiter

/-! ## The cells of a line -/

section
variable {gaps δ : Delimiter} {cells : List String} {line : List Char}

/-- A gap is white space, whichever it is. -/
theorem Delimiter.IsGap.isBlank {gap : List Char} (h : gaps.IsGap gap) :
    ∃ c more, gap = c :: more ∧ ∀ d ∈ c :: more, Text.isBlank d = true := by
  cases gaps with
  | tab =>
    obtain rfl : gap = ['\t'] := h
    exact ⟨'\t', [], rfl, List.forall_mem_singleton.mpr (by decide)⟩
  | blanks =>
    obtain ⟨hne, hspaces⟩ := h
    obtain ⟨c, more, rfl⟩ := List.exists_cons_of_ne_nil hne
    refine ⟨c, more, rfl, fun d hd => ?_⟩
    rw [hspaces d hd]
    decide

theorem IsWord.toList_ne_nil {cell : String} (h : IsWord cell) : cell.toList ≠ [] :=
  fun hnil => h.ne_empty (String.toList_eq_nil_iff.mp hnil)

/-- No character of a word passes a test that only white space passes. -/
theorem IsWord.fails {cell : String} (h : IsWord cell) {p : Char → Bool} (hp : ∀ c, p c = true → Text.isBlank c = true) :
    ∀ c ∈ cell.toList, p c = false := by
  intro c hc
  rw [← Bool.not_eq_true]
  intro hpass
  have hblank := hp c hpass
  rw [h.not_isBlank c hc] at hblank
  exact Bool.false_ne_true hblank

/-- **The words of a line are its cells**, with gaps of either kind. -/
theorem words_of_joins (h : gaps.Joins cells line) (hwords : ∀ cell ∈ cells, IsWord cell) :
    Text.words line = cells.map String.toList := by
  induction h with
  | nil => rfl
  | last cell =>
    have hcell := hwords cell List.mem_cons_self
    exact Text.words_of_forall_not hcell.toList_ne_nil hcell.not_isBlank
  | @next cell other rest gap line hgap hrest ih =>
    obtain ⟨hcell, hothers⟩ := List.forall_mem_cons.mp hwords
    obtain ⟨c, more, rfl, hblank⟩ := hgap.isBlank
    obtain ⟨hc, hmore⟩ := List.forall_mem_cons.mp hblank
    rw [List.cons_append, Text.words_append_blank hc, Text.words_blanks_append hmore, ih hothers,
      Text.words_of_forall_not hcell.toList_ne_nil hcell.not_isBlank]
    rfl

/-- **What stands between tabs are the cells**, if tabs are the gaps. -/
theorem textFields_of_joins (h : Delimiter.tab.Joins cells line) (hne : cells ≠ [])
    (hwords : ∀ cell ∈ cells, IsWord cell) : textFields line = cells.map String.toList := by
  have htrim : ∀ {cell : String}, IsWord cell → Text.trimWith isAsciiBlank cell.toList = cell.toList :=
    fun hcell => Text.trimWith_of_forall_not (hcell.fails fun c => isBlank_of_isAsciiBlank)
  have hnotab : ∀ {cell : String}, IsWord cell → ∀ c ∈ cell.toList, (c == '\t') = false :=
    fun hcell => hcell.fails fun c => isBlank_of_eq_tab
  unfold textFields
  induction h with
  | nil => exact absurd rfl hne
  | last cell =>
    have hcell := hwords cell List.mem_cons_self
    rw [Text.splitWith_of_forall_not (hnotab hcell), List.map_singleton, List.map_singleton, htrim hcell]
  | @next cell other rest gap line hgap hrest ih =>
    obtain ⟨hcell, hothers⟩ := List.forall_mem_cons.mp hwords
    obtain rfl : gap = ['\t'] := hgap
    rw [List.singleton_append, Text.splitWith_piece_mark (hnotab hcell) rfl, List.map_cons, htrim hcell,
      ih (List.cons_ne_nil _ _) hothers, List.map_cons, List.map_cons, List.map_cons]

/-- Spaces at the ends of a line are taken away. -/
theorem IsSpaces.pads {s : List Char} (h : IsSpaces s) : ∀ c ∈ s, δ.pads c = true := by
  intro c hc
  rw [h c hc]
  cases δ <;> decide

/-- **The cells of a line of words** are these words: for either delimiter if tabs are the gaps, and for white space if
    spaces are. -/
theorem cells_of_isLineOf (hline : gaps.IsLineOf cells line) (hwords : ∀ cell ∈ cells, IsWord cell)
    (hδ : gaps = .tab ∨ δ = .blanks) (number : Nat) :
    Line.cells δ ⟨number, Utf8.encode line⟩ = .ok (cells.map String.toList) := by
  obtain ⟨left, inner, right, rfl, hleft, hright, hjoins⟩ := hline
  refine cells_eq_ok_iff.mpr ⟨_, rfl, ?_⟩
  rw [cut_append_pads hleft.pads hright.pads]
  by_cases hnone : cells = []
  · subst hnone
    cases hjoins
    rw [if_pos (all_isEmpty_cut_iff.mpr (by simp)), List.map_nil]
  · have hcut : δ.cut inner = cells.map String.toList := by
      cases δ with
      | blanks => exact words_of_joins hjoins hwords
      | tab =>
        obtain rfl : gaps = .tab := hδ.resolve_right (by decide)
        exact textFields_of_joins hjoins hnone hwords
    obtain ⟨cell, rest, rfl⟩ := List.exists_cons_of_ne_nil hnone
    rw [hcut, if_neg]
    simp [(hwords cell List.mem_cons_self).ne_empty]

/-- No character of a line is one that stands neither in a word nor in a gap. -/
theorem not_mem_of_isLineOf (hline : gaps.IsLineOf cells line) (hwords : ∀ cell ∈ cells, IsWord cell) {c : Char}
    (hblank : Text.isBlank c = true) (hspace : c ≠ ' ') (htab : gaps = .tab → c ≠ '\t') : c ∉ line := by
  obtain ⟨left, inner, right, rfl, hleft, hright, hjoins⟩ := hline
  have hword : ∀ {cell : String}, IsWord cell → c ∉ cell.toList := by
    intro cell hcell hc
    have hfails := hcell.fails (p := Text.isBlank) (fun d hd => hd) c hc
    exact absurd (hblank.symm.trans hfails) (by decide)
  have hinner : c ∉ inner := by
    induction hjoins with
    | nil => exact List.not_mem_nil
    | last cell => exact hword (hwords cell List.mem_cons_self)
    | @next cell other rest gap line hgap hrest ih =>
      obtain ⟨hcell, hothers⟩ := List.forall_mem_cons.mp hwords
      have hgapc : c ∉ gap := by
        cases gaps with
        | tab =>
          obtain rfl : gap = ['\t'] := hgap
          simpa using htab rfl
        | blanks => exact fun hc => hspace (hgap.2 c hc)
      simp only [List.mem_append, not_or]
      exact ⟨hword hcell, hgapc, ih hothers⟩
  simp only [List.mem_append, not_or]
  exact ⟨⟨fun hc => hspace (hleft c hc), hinner⟩, fun hc => hspace (hright c hc)⟩

end

/-! ## Lines that are ended -/

theorem laysOut_ended (lines : List (List UInt8)) : LaysOut lines (ended lines) := by
  induction lines with
  | nil => exact .nil
  | cons line rest ih =>
    have hcons : ended (line :: rest) = line ++ ([lineFeed] ++ ended rest) := by
      rw [ended, List.flatMap_cons, List.append_assoc]
      rfl
    rw [hcons]
    exact .line line .feed ih

/-- **The table of lines that are ended**, the first of which is the header: every other line gives a row, a fault or
    nothing. -/
theorem parse_ended (path : Path) {δ : Delimiter} {header : List UInt8} {lines : List (List UInt8)}
    {cells : List (List Char)} (hlines : AreLines (header :: lines))
    (hδ : Delimiter.ofData? (ended (header :: lines)) = some δ) (hcells : Line.cells δ ⟨0, header⟩ = .ok cells)
    (hne : cells ≠ []) :
    (Records.parse path (ended (header :: lines))).records? =
        some ⟨path, cells.map String.ofList, lines.filterMap (lineRow? δ (cells.map String.ofList))⟩ ∧
      (Records.parse path (ended (header :: lines))).skipped.map (·.fault) =
        lines.filterMap (lineFault? δ (cells.map String.ofList)) := by
  have hheader : isFilled header = true := isFilled_of_hasCells (δ := δ) <| by
    obtain ⟨cell, rest, rfl⟩ := List.exists_cons_of_ne_nil hne
    rw [hasCells, hcells]
  have hbare : (header :: lines).flatMap bareLines = header :: lines := by
    have hone : ∀ line ∈ header :: lines, bareLines line = [line] :=
      fun line hline => Text.splitWith_of_forall_not (hlines.bare line hline)
    rw [List.flatMap_congr hone, List.flatMap_singleton']
  have hbytes : (linesOf (ended (header :: lines))).map (·.bytes) = header :: lines.filter isFilled := by
    rw [bytes_linesOf, withoutMark_of_laysOut hlines (laysOut_ended _), bareLines_ended, hbare, List.filter_append,
      List.filter_cons_of_pos hheader]
    exact List.append_nil _
  obtain ⟨first, after, hcut, hfirst, hafter⟩ := List.map_eq_cons_iff.mp hbytes
  have hat : HeaderAt δ (linesOf (ended (header :: lines))) [] first after cells :=
    { lines_eq := hcut
      headless := fun line hline => absurd hline List.not_mem_nil
      cells_eq := by rwa [← hfirst] at hcells
      cells_ne := hne }
  have hparse := parse_of_headerAt path hδ hat
  constructor
  · rw [hparse, ← filterMap_filter_isFilled (lineRow?_nil δ _).1 lines, ← hafter, List.filterMap_map]
    rfl
  · rw [hparse, ← filterMap_filter_isFilled (lineRow?_nil δ _).2 lines, ← hafter, List.filterMap_map,
      List.nil_append, List.map_filterMap]
    refine List.filterMap_congr fun line _ => ?_
    rw [skippedRow?, Option.map_map]
    exact Option.map_id'

/-! ## The row that cells say -/

/-- The row that cells say under columns: as many durations as there are columns. -/
def statedRow? (names cells : List String) : Option (List Float) :=
  if cells.length = names.length then cells.mapM fun cell => duration? cell.toList else none

/-- What is wrong with a cell in its column, if it is no duration. -/
def cellFault? (cell name : String) : Option RowFault :=
  if (duration? cell.toList).isSome then none else some (.notADuration cell name)

/-- Why cells are no row: there are too few of them or too many, or else the first one that is no duration. Without
    cells there is nothing to be left out. -/
def statedFault? (names cells : List String) : Option RowFault :=
  if cells = [] then none
  else if cells.length = names.length then (cells.zip names).findSome? fun (cell, name) => cellFault? cell name
  else some (.cellCount names.length cells.length)

/-- **Cells are durations, or one of them is the first that is none.** -/
theorem durations_eq {names cells : List String} (hlength : cells.length = names.length) :
    (∃ xs, durations names (cells.map String.toList) = .ok xs ∧
        (cells.mapM fun cell => duration? cell.toList) = some xs ∧
        ((cells.zip names).findSome? fun (cell, name) => cellFault? cell name) = none) ∨
      ∃ fault, durations names (cells.map String.toList) = .error fault ∧
        (cells.mapM fun cell => duration? cell.toList) = none ∧
        ((cells.zip names).findSome? fun (cell, name) => cellFault? cell name) = some fault := by
  induction cells generalizing names with
  | nil =>
    obtain rfl := List.length_eq_zero_iff.mp hlength.symm
    exact Or.inl ⟨[], rfl, rfl, rfl⟩
  | cons cell cells ih =>
    cases names with
    | nil => cases hlength
    | cons name names =>
      rw [List.map_cons, durations, List.mapM_cons, List.zip_cons_cons, List.findSome?_cons]
      simp only [cellFault?]
      cases hcell : duration? cell.toList with
      | none => exact Or.inr ⟨.notADuration cell name, by rw [String.ofList_toList], rfl, rfl⟩
      | some x =>
        rcases ih (Nat.succ.inj hlength) with ⟨xs, hread, hall, hnone⟩ | ⟨fault, hread, hall, hsome⟩
        · exact Or.inl ⟨x :: xs, by simp [hread, Except.map], by simp [hall], hnone⟩
        · exact Or.inr ⟨fault, by simp [hread, Except.map], by simp [hall], hsome⟩

/-- **A line of cells gives the row that the cells say**, or it is left out for the reason that they give. -/
theorem lineRow?_of_cells {δ : Delimiter} {names cells : List String} {bytes : List UInt8} (hnames : names ≠ [])
    (hcells : Line.cells δ ⟨0, bytes⟩ = .ok (cells.map String.toList)) :
    lineRow? δ names bytes = statedRow? names cells ∧ lineFault? δ names bytes = statedFault? names cells := by
  unfold lineRow? lineFault? Line.row statedRow? statedFault?
  rw [hcells]
  cases cells with
  | nil =>
    have hlength : ¬([] : List String).length = names.length := fun h => hnames (List.length_eq_zero_iff.mp h.symm)
    exact ⟨(if_neg hlength).symm, rfl⟩
  | cons cell cells =>
    have hcount : (cell.toList :: cells.map String.toList).length = (cell :: cells).length := by simp
    simp only [List.map_cons, rowOfCells, hcount, if_neg (List.cons_ne_nil cell cells)]
    by_cases hlength : (cell :: cells).length = names.length
    · simp only [if_pos hlength]
      rcases durations_eq hlength with ⟨xs, hread, hall, hnone⟩ | ⟨fault, hread, hall, hsome⟩
      · rw [List.map_cons] at hread
        rw [hread, hall, hnone]
        exact ⟨rfl, rfl⟩
      · rw [List.map_cons] at hread
        rw [hread, hall, hsome]
        exact ⟨rfl, rfl⟩
    · simp only [if_neg hlength]
      exact ⟨rfl, rfl⟩

/-! ## Tables -/

/-- A table of words: it has a column at least, and the name of the first one does not start with the byte order mark.
    The rows may be of any length. -/
structure IsWordTable (names : List String) (rows : List (List String)) : Prop where
  names_ne : names ≠ []
  isWord : ∀ cells ∈ names :: rows, ∀ cell ∈ cells, IsWord cell
  no_mark : ∀ name ∈ names.head?, name.toList.head? ≠ some '\ufeff'

section
variable {gaps : Delimiter} {names : List String} {rows : List (List String)} {line : List Char}

/-- A line starts with a space or as its first cell does. -/
theorem head?_of_isLineOf (hline : gaps.IsLineOf names line) {c : Char} (hc : line.head? = some c) (hspace : c ≠ ' ')
    (hnames : ∀ cell ∈ names, IsWord cell) : ∀ name ∈ names.head?, name.toList.head? = some c := by
  obtain ⟨left, inner, right, rfl, hleft, -, hjoins⟩ := hline
  have hfirst : ∀ {name : String}, IsWord name → ∀ rest, (name.toList ++ rest).head? = name.toList.head? := by
    intro name hname rest
    rw [List.head?_append_of_ne_nil _ hname.toList_ne_nil]
  cases left with
  | cons d left =>
    obtain rfl : d = c := Option.some.inj hc
    exact absurd (hleft d List.mem_cons_self) hspace
  | nil =>
    cases hjoins with
    | nil => exact fun name hname => absurd hname (by simp)
    | last cell =>
      rintro name ⟨⟩
      rwa [List.nil_append, hfirst (hnames cell List.mem_cons_self)] at hc
    | next cell hgap hrest =>
      rintro name ⟨⟩
      rwa [List.nil_append, List.append_assoc, hfirst (hnames cell List.mem_cons_self)] at hc

/-- No line of words ends before its end. -/
theorem not_isLineEnd_of_isLineOf {cells : List String} (hline : gaps.IsLineOf cells line)
    (hwords : ∀ cell ∈ cells, IsWord cell) : ∀ b ∈ Utf8.encode line, isLineEnd b = false := by
  have hno : ∀ {c : Char} {b : UInt8}, b.toNat < 128 → String.utf8EncodeChar c = [b] → Text.isBlank c = true →
      c ≠ ' ' → c ≠ '\t' → b ∉ Utf8.encode line :=
    fun hsmall hbyte hblank hspace htab =>
      Utf8.not_mem_encode hsmall hbyte (not_mem_of_isLineOf hline hwords hblank hspace fun _ => htab)
  have hfeed : lineFeed ∉ Utf8.encode line := hno (c := '\n') (by decide) rfl (by decide) (by decide) (by decide)
  have hreturn : carriageReturn ∉ Utf8.encode line :=
    hno (c := '\r') (by decide) rfl (by decide) (by decide) (by decide)
  intro b hb
  rw [isLineEnd, Bool.or_eq_false_iff, beq_eq_false_iff_ne, beq_eq_false_iff_ne]
  exact ⟨fun heq => hfeed (heq ▸ hb), fun heq => hreturn (heq ▸ hb)⟩

/-- The lines of a table of words can be told apart, and no byte order mark stands in front of them. -/
theorem IsWordTable.areLines (h : IsWordTable names rows) {lines : List (List Char)}
    (hlines : List.Forall₂ gaps.IsLineOf (names :: rows) lines) : AreLines (lines.map Utf8.encode) := by
  constructor
  · rw [List.forall_mem_map]
    intro line hline
    obtain ⟨i, hi, rfl⟩ := List.getElem_of_mem hline
    have hcells := hlines.length_eq ▸ hi
    exact not_isLineEnd_of_isLineOf (hlines.get hcells hi) (h.isWord _ (List.getElem_mem hcells))
  · obtain ⟨header, others, hheader, -, rfl⟩ := List.forall₂_cons_left_iff.mp hlines
    rintro line ⟨⟩ hmark
    obtain ⟨name, rest, rfl⟩ := List.exists_cons_of_ne_nil h.names_ne
    have hhead := head?_of_isLineOf hheader (head?_of_byteOrderMark hmark) (by decide)
      (h.isWord _ List.mem_cons_self)
    exact h.no_mark name rfl (hhead name rfl)

/-- **The delimiter that a table of words chooses** cuts its lines into the words: with runs of spaces between them no tab
    stands in the header, and tabs between them are right for either delimiter. -/
theorem IsWordTable.exists_ofData? (h : IsWordTable names rows) {lines : List (List Char)}
    (hlines : List.Forall₂ gaps.IsLineOf (names :: rows) lines) :
    ∃ δ, Delimiter.ofData? (ended (lines.map Utf8.encode)) = some δ ∧ (gaps = .tab ∨ δ = .blanks) := by
  have hbare := (h.areLines hlines).bare
  obtain ⟨header, others, hheader, -, rfl⟩ := List.forall₂_cons_left_iff.mp hlines
  have hnames := h.isWord _ List.mem_cons_self
  have hvisible : isVisible (Utf8.encode header) = true := by
    by_contra hno
    have hblank : ∀ c ∈ header, isAsciiBlank c = true := by
      rw [isVisible, Bool.not_eq_true, Bool.not_eq_false', List.all_eq_true, ← Text.trimWith_eq_nil_iff,
        sameTest_blank.trimWith_encode] at hno
      rw [← Text.trimWith_eq_nil_iff]
      exact Utf8.encode_injective hno
    -- a line of white space has no words
    have hnil : Line.cells .blanks ⟨0, Utf8.encode header⟩ = .ok [] :=
      cells_eq_nil_iff.mpr ⟨header, rfl, fun c hc => isBlank_of_isAsciiBlank (hblank c hc)⟩
    rw [cells_of_isLineOf hheader hnames (Or.inr rfl)] at hnil
    exact h.names_ne (List.map_eq_nil_iff.mp (Except.ok.inj hnil))
  refine ⟨.ofLine (Utf8.encode header), ?_, ?_⟩
  · rw [ofData?_of_laysOut hbare (laysOut_ended _), List.map_cons, List.find?_cons_of_pos hvisible, Option.map_some]
  · cases gaps with
    | tab => exact Or.inl rfl
    | blanks =>
      right
      have hnotab : '\t' ∉ header := not_mem_of_isLineOf hheader hnames (by decide) (by decide) (by simp)
      have hbyte : tab ∉ Utf8.encode header := Utf8.not_mem_encode (by decide) rfl hnotab
      rw [Delimiter.ofLine, if_neg]
      rwa [List.contains_iff_mem]

/-- Line by line, the lines give what the cells say. -/
theorem rows_of_lines {δ : Delimiter} (hnames : names ≠ []) (hδ : gaps = .tab ∨ δ = .blanks)
    (hwords : ∀ cells ∈ rows, ∀ cell ∈ cells, IsWord cell) {lines : List (List Char)}
    (hlines : List.Forall₂ gaps.IsLineOf rows lines) :
    (lines.map Utf8.encode).filterMap (lineRow? δ names) = rows.filterMap (statedRow? names) ∧
      (lines.map Utf8.encode).filterMap (lineFault? δ names) = rows.filterMap (statedFault? names) := by
  induction hlines with
  | nil => exact ⟨rfl, rfl⟩
  | @cons cells line rows lines hline _ ih =>
    obtain ⟨hfirst, hrest⟩ := List.forall_mem_cons.mp hwords
    obtain ⟨hrow, hfault⟩ := lineRow?_of_cells hnames (cells_of_isLineOf hline hfirst hδ 0)
    obtain ⟨hrows, hfaults⟩ := ih hrest
    constructor
    · rw [List.map_cons, List.filterMap_cons, List.filterMap_cons, hrow, hrows]
    · rw [List.map_cons, List.filterMap_cons, List.filterMap_cons, hfault, hfaults]

/-- **A table of words is read as it is laid out**, with gaps of either kind: the columns have the names, and each list of
    cells gives the row that it says or is left out for its reason. -/
theorem parse_of_isTableOf (h : IsWordTable names rows) {data : List UInt8} (hdata : gaps.IsTableOf (names :: rows) data)
    (path : Path) :
    (Records.parse path data).records? = some ⟨path, names, rows.filterMap (statedRow? names)⟩ ∧
      (Records.parse path data).skipped.map (·.fault) = rows.filterMap (statedFault? names) := by
  obtain ⟨lines, hlines, rfl⟩ := hdata
  have hare := h.areLines hlines
  obtain ⟨δ, hchosen, hδ⟩ := h.exists_ofData? hlines
  obtain ⟨header, others, hheader, hothers, rfl⟩ := List.forall₂_cons_left_iff.mp hlines
  have hcells := cells_of_isLineOf hheader (h.isWord _ List.mem_cons_self) hδ 0
  have hcolumns : (names.map String.toList).map String.ofList = names := by
    rw [List.map_map]
    exact List.map_id'' (fun name => String.ofList_toList) names
  obtain ⟨hrecords, hfaults⟩ := parse_ended path hare hchosen hcells (by simpa using h.names_ne)
  rw [hcolumns] at hrecords hfaults
  obtain ⟨hrows, hleft⟩ := rows_of_lines h.names_ne hδ (List.forall_mem_cons.mp h.isWord).2 hothers
  rw [List.map_cons, hrecords, hfaults, hrows, hleft]
  exact ⟨rfl, rfl⟩

end

/-- **Tabs and runs of spaces make no difference between words.** -/
theorem parse_of_gaps {names : List String} {rows : List (List String)} (h : IsWordTable names rows)
    {tabbed spaced : List UInt8} (htabbed : Delimiter.tab.IsTableOf (names :: rows) tabbed)
    (hspaced : Delimiter.blanks.IsTableOf (names :: rows) spaced) (path : Path) :
    (Records.parse path tabbed).records? = (Records.parse path spaced).records? ∧
      (Records.parse path spaced).records? = some ⟨path, names, rows.filterMap (statedRow? names)⟩ ∧
      (Records.parse path tabbed).skipped.map (·.fault) = rows.filterMap (statedFault? names) ∧
      (Records.parse path spaced).skipped.map (·.fault) = rows.filterMap (statedFault? names) := by
  obtain ⟨htable, hfaults⟩ := parse_of_isTableOf h htabbed path
  obtain ⟨hother, hothers⟩ := parse_of_isTableOf h hspaced path
  exact ⟨htable.trans hother.symm, hother, hfaults, hothers⟩

/-- A header of one column, which holds no tab, and below it a row that is too long, one without cells and one that is
    no duration. -/
theorem parse_of_gaps_column :
    let rows := [["7"], ["8", "9"], [], ["x"]]
    let tabbed := Utf8.encode "rtt\n7\n8\t9\n\nx\n".toList
    let spaced := Utf8.encode " rtt\n7  \n8   9\n  \nx\n".toList
    IsWordTable ["rtt"] rows ∧ Delimiter.tab.IsTableOf (["rtt"] :: rows) tabbed ∧
      Delimiter.blanks.IsTableOf (["rtt"] :: rows) spaced ∧
      (Records.parse ⟨[]⟩ tabbed).records? = (Records.parse ⟨[]⟩ spaced).records? ∧
      (Records.parse ⟨[]⟩ spaced).records? = some ⟨⟨[]⟩, ["rtt"], [[7.0]]⟩ ∧
      (Records.parse ⟨[]⟩ tabbed).skipped.map (·.fault) = [.cellCount 1 2, .notADuration "x" "rtt"] := by
  intro rows tabbed spaced
  have hword : ∀ cell ∈ ["rtt", "7", "8", "9", "x"], IsWord cell := by
    have hall : ["rtt", "7", "8", "9", "x"].all (fun cell => cell != "" && cell.toList.all fun c => !Text.isBlank c) =
        true := by decide
    intro cell hcell
    have hboth := List.all_eq_true.mp hall cell hcell
    rw [Bool.and_eq_true, bne_iff_ne, List.all_eq_true] at hboth
    exact ⟨hboth.1, fun c hc => by simpa using hboth.2 c hc⟩
  have h : IsWordTable ["rtt"] rows :=
    { names_ne := by simp
      isWord := by
        intro cells hcells cell hcell
        have hmem : ∀ cells ∈ ["rtt"] :: rows, ∀ cell ∈ cells, cell ∈ ["rtt", "7", "8", "9", "x"] := by decide
        exact hword cell (hmem cells hcells cell hcell)
      no_mark := by
        rintro name ⟨⟩
        decide }
  have hspaces : ∀ n, IsSpaces (List.replicate n ' ') := fun n c hc => List.eq_of_mem_replicate hc
  have hline : ∀ {δ : Delimiter} {cells : List String} {inner : List Char} (before behind : ℕ), δ.Joins cells inner →
      δ.IsLineOf cells (List.replicate before ' ' ++ inner ++ List.replicate behind ' ') :=
    fun before behind hjoins => ⟨_, _, _, rfl, hspaces before, hspaces behind, hjoins⟩
  have htabbed : Delimiter.tab.IsTableOf (["rtt"] :: rows) tabbed := by
    refine ⟨["rtt", "7", "8\t9", "", "x"].map String.toList, ?_, rfl⟩
    have hgap : Delimiter.tab.IsGap ['\t'] := rfl
    exact .cons (hline 0 0 (.last "rtt")) <| .cons (hline 0 0 (.last "7")) <|
      .cons (hline 0 0 (.next "8" hgap (.last "9"))) <| .cons (hline 0 0 .nil) <| .cons (hline 0 0 (.last "x")) .nil
  have hspaced : Delimiter.blanks.IsTableOf (["rtt"] :: rows) spaced := by
    refine ⟨[" rtt", "7  ", "8   9", "  ", "x"].map String.toList, ?_, rfl⟩
    have hgap : Delimiter.blanks.IsGap (List.replicate 3 ' ') := ⟨List.cons_ne_nil _ _, hspaces 3⟩
    exact .cons (hline 1 0 (.last "rtt")) <| .cons (hline 0 2 (.last "7")) <|
      .cons (hline 0 0 (.next "8" hgap (.last "9"))) <| .cons (hline 2 0 .nil) <| .cons (hline 0 0 (.last "x")) .nil
  obtain ⟨hsame, htable, hfaults, -⟩ := parse_of_gaps h htabbed hspaced ⟨[]⟩
  exact ⟨h, htabbed, hspaced, hsame, htable, hfaults⟩

end LatencyReport
