import LatencyReport.Proofs.Records.Append
import LatencyReport.Proofs.Records.Header

/-!
# `Proofs.Records.Layout` — ends of lines, and lines between them

A results file can be laid out in many ways: its lines end at line feeds, with a carriage return before them or not; the
last one may have no end; and lines of spaces and tabs may stand anywhere, before the header as well (`LaysOut`). **The
table is the same** (`records?_eq_of_laysOut`).

Two scans read the content. One looks for the delimiter and ends its lines at line feeds alone, so a carriage return
stays at the end of a line; but that is white space and no tab, so the line asks for the same delimiter
(`ofData?_of_laysOut`). The other ends lines at carriage returns as well, so it finds an empty line between the two
bytes of an end; but lines in which nothing stands can be left out before the header is looked for
(`tableOf?_filter`), and those that are left are the same (`filter_bareLines`).

## Contents

* `IsPadding`, `LineEnd`, `LaysOut`, `AreLines` — lines, and how they are laid out;
* `withoutMark_of_laysOut`, `ofData?_of_laysOut` — the byte order mark and the delimiter;
* `tableOf?`, `tells`, `tableOf?_filter`, `records?_parse_eq` — the table of lines;
* `filter_bareLines`, `records?_of_laysOut`, `records?_eq_of_laysOut` — the table of a layout.
-/

namespace LatencyReport

/-! ## Layouts -/

/-- A line of spaces and tabs. -/
def IsPadding (line : List UInt8) : Prop :=
  ∀ b ∈ line, b = 0x20 ∨ b = tab

/-- The bytes that a line can be ended with. -/
inductive LineEnd : List UInt8 → Prop where
  | feed : LineEnd [lineFeed]
  | returnFeed : LineEnd [carriageReturn, lineFeed]

/-- **A content lays out lines**: one after the other, each with an end but perhaps for the last, and any number of
    lines of spaces and tabs in between. -/
inductive LaysOut : List (List UInt8) → List UInt8 → Prop where
  | nil : LaysOut [] []
  | last (line : List UInt8) : LaysOut [line] line
  | lastPadding {padding : List UInt8} (hpadding : IsPadding padding) : LaysOut [] padding
  | line (line : List UInt8) {ending data : List UInt8} {rest : List (List UInt8)} (hending : LineEnd ending)
      (hrest : LaysOut rest data) : LaysOut (line :: rest) (line ++ (ending ++ data))
  | padding {padding ending data : List UInt8} {lines : List (List UInt8)} (hpadding : IsPadding padding)
      (hending : LineEnd ending) (hrest : LaysOut lines data) : LaysOut lines (padding ++ (ending ++ data))

/-- Lines that can be laid out: none holds the end of a line, and the first does not start with the byte order mark. -/
structure AreLines (lines : List (List UInt8)) : Prop where
  bare : ∀ line ∈ lines, ∀ b ∈ line, isLineEnd b = false
  unmarked : ∀ line ∈ lines.head?, ¬byteOrderMark <+: line

variable {lines rest : List (List UInt8)} {line padding ending data : List UInt8} {δ : Delimiter}

theorem LineEnd.exists_cons (h : LineEnd ending) : ∃ b more, ending = b :: more ∧ isLineEnd b = true := by
  cases h with
  | feed => exact ⟨_, _, rfl, rfl⟩
  | returnFeed => exact ⟨_, _, rfl, rfl⟩

theorem IsPadding.not_isLineEnd (h : IsPadding padding) : ∀ b ∈ padding, isLineEnd b = false := by
  intro b hb
  rcases h b hb with rfl | rfl <;> rfl

theorem IsPadding.isBlankByte (h : IsPadding padding) : padding.all Text.isBlankByte = true := by
  rw [List.all_eq_true]
  intro b hb
  rcases h b hb with rfl | rfl <;> rfl

/-- Nothing stands in a line of spaces and tabs. -/
theorem IsPadding.isTextOf (h : IsPadding padding) (δ : Delimiter) : Utf8.IsTextOf δ.idle padding := by
  have hsmall : ∀ b ∈ padding, b.toNat < 128 := by
    intro b hb
    exact small_of_isBlankByte (List.all_eq_true.mp h.isBlankByte b hb)
  obtain ⟨text, rfl⟩ := Utf8.isText_of_forall_small hsmall
  refine Utf8.isTextOf_encode.mpr fun c hc => ?_
  have hblank : isAsciiBlank c = true := by
    by_contra hno
    obtain ⟨b, more, hbytes⟩ := List.exists_cons_of_ne_nil (String.utf8EncodeChar_ne_nil (c := c))
    have hb : b ∈ String.utf8EncodeChar c := hbytes ▸ List.mem_cons_self
    have hfail := sameTest_blank.fail c (by simpa using hno) b hb
    have hpass := List.all_eq_true.mp h.isBlankByte b (List.mem_flatMap.mpr ⟨c, hc, hb⟩)
    exact absurd (hfail.symm.trans hpass) (by decide)
  cases δ with
  | tab => exact hblank
  | blanks => exact isBlank_of_isAsciiBlank hblank

/-! ## The start -/

/-- A byte that the byte order mark does not hold cannot stand inside it. -/
theorem mark_prefix_of_append {front back : List UInt8} {b : UInt8} (hb : b ∉ byteOrderMark)
    (h : byteOrderMark <+: front ++ b :: back) : byteOrderMark <+: front := by
  rw [List.append_cons] at h
  rcases List.prefix_or_prefix_of_prefix h (List.prefix_append (front ++ [b]) back) with hin | hout
  · rcases List.prefix_concat_iff.mp hin with heq | hfront
    · exact absurd (heq ▸ List.mem_append_right _ List.mem_cons_self) hb
    · exact hfront
  · exact absurd (hout.mem (List.mem_append_right _ List.mem_cons_self)) hb

/-- No end of a line stands in the byte order mark. -/
theorem not_mem_byteOrderMark {b : UInt8} (h : isLineEnd b = true) : b ∉ byteOrderMark := by
  intro hb
  simp only [byteOrderMark, List.mem_cons, List.not_mem_nil, or_false] at hb
  rcases hb with rfl | rfl | rfl <;> exact absurd h (by decide)

/-- A line of spaces and tabs does not start with the byte order mark. -/
theorem IsPadding.not_marked (h : IsPadding padding) : ¬byteOrderMark <+: padding := by
  intro hmark
  rcases h 0xEF (hmark.mem (by decide)) with heq | heq <;> exact absurd heq (by decide)

/-- **A content that lays out lines has no byte order mark.** -/
theorem withoutMark_of_laysOut (hlines : AreLines lines) (h : LaysOut lines data) : withoutMark data = data := by
  rw [withoutMark_eq, if_neg]
  -- a mark would stand in the first line, or in spaces and tabs
  cases h with
  | nil => decide
  | last => exact hlines.unmarked _ rfl
  | lastPadding hpadding => exact hpadding.not_marked
  | line first hending =>
    obtain ⟨b, more, rfl, hb⟩ := hending.exists_cons
    intro hmark
    exact hlines.unmarked first rfl (mark_prefix_of_append (not_mem_byteOrderMark hb) hmark)
  | padding hpadding hending =>
    obtain ⟨b, more, rfl, hb⟩ := hending.exists_cons
    intro hmark
    exact hpadding.not_marked (mark_prefix_of_append (not_mem_byteOrderMark hb) hmark)

/-! ## The delimiter -/

/-- Whether a line has a byte that is no ASCII white space. -/
def isVisible (line : List UInt8) : Bool :=
  !line.all Text.isBlankByte

theorem choosingLine?_eq (data : List UInt8) :
    choosingLine? data = (Text.splitWith (· == lineFeed) data).find? isVisible := rfl

/-- A carriage return at the end of a line is white space and no tab. -/
theorem choice_append_return (line : List UInt8) :
    isVisible (line ++ [carriageReturn]) = isVisible line ∧
      Delimiter.ofLine (line ++ [carriageReturn]) = Delimiter.ofLine line := by
  constructor
  · have hreturn : [carriageReturn].all Text.isBlankByte = true := by decide
    rw [isVisible, List.all_append, hreturn, Bool.and_true, isVisible]
  · rw [ofLine_eq_ofLine_iff]
    have htab : tab ≠ carriageReturn := by decide
    simp [htab]

/-- The first line feed is that of the first end, and before it stands the line, with white space behind it. -/
theorem exists_splitWith_ending (hbare : ∀ b ∈ line, isLineEnd b = false) (hending : LineEnd ending)
    (data : List UInt8) :
    ∃ first, Text.splitWith (· == lineFeed) (line ++ (ending ++ data)) =
        first :: Text.splitWith (· == lineFeed) data ∧
      isVisible first = isVisible line ∧ Delimiter.ofLine first = Delimiter.ofLine line := by
  have hfeed : ∀ b ∈ line, (b == lineFeed) = false := fun b hb => (Bool.or_eq_false_iff.mp (hbare b hb)).1
  cases hending with
  | feed => exact ⟨line, Text.splitWith_piece_mark hfeed (beq_self_eq_true _) data, rfl, rfl⟩
  | returnFeed =>
    have hfront : ∀ b ∈ line ++ [carriageReturn], (b == lineFeed) = false := by
      rw [List.forall_mem_append, List.forall_mem_singleton]
      exact ⟨hfeed, by decide⟩
    obtain ⟨hvisible, hdelimiter⟩ := choice_append_return line
    refine ⟨line ++ [carriageReturn], ?_, hvisible, hdelimiter⟩
    have hpiece := Text.splitWith_piece_mark hfront (beq_self_eq_true lineFeed) data
    rwa [List.append_assoc] at hpiece

/-- A line of spaces and tabs chooses no delimiter. -/
theorem IsPadding.not_isVisible (h : IsPadding padding) : isVisible padding = false := by
  rw [isVisible, h.isBlankByte]
  rfl

/-- **The delimiter is that of the first visible line**, however the lines are laid out. -/
theorem ofData?_of_laysOut (hlines : ∀ line ∈ lines, ∀ b ∈ line, isLineEnd b = false) (h : LaysOut lines data) :
    Delimiter.ofData? data = (lines.find? isVisible).map Delimiter.ofLine := by
  have hwhole : ∀ {line : List UInt8}, (∀ b ∈ line, isLineEnd b = false) →
      Text.splitWith (· == lineFeed) line = [line] :=
    fun hline => Text.splitWith_of_forall_not fun b hb => (Bool.or_eq_false_iff.mp (hline b hb)).1
  rw [ofData?_eq, choosingLine?_eq]
  induction h with
  | nil => rfl
  | last => rw [hwhole (hlines _ List.mem_cons_self)]
  | lastPadding hpadding =>
    rw [hwhole hpadding.not_isLineEnd, List.find?_cons, hpadding.not_isVisible]
  | line line hending hrest ih =>
    rw [List.forall_mem_cons] at hlines
    obtain ⟨first, hsplit, hvisible, hdelimiter⟩ := exists_splitWith_ending hlines.1 hending _
    rw [hsplit, List.find?_cons, List.find?_cons, hvisible]
    cases isVisible line with
    | true => exact congrArg some hdelimiter
    | false => exact ih hlines.2
  | padding hpadding hending hrest ih =>
    obtain ⟨first, hsplit, hvisible, _⟩ := exists_splitWith_ending hpadding.not_isLineEnd hending _
    rw [hsplit, List.find?_cons, hvisible, hpadding.not_isVisible]
    exact ih hlines

/-! ## The table of lines -/

/-- Whether a line is more to the table than nothing: it has cells, or it is a fault. -/
def tells (δ : Delimiter) (line : List UInt8) : Bool :=
  match Line.cells δ ⟨0, line⟩ with
  | .ok [] => false
  | _ => true

theorem tells_eq_false_iff : tells δ line = false ↔ Utf8.IsTextOf δ.idle line := by
  rw [← @cells_eq_nil_iff δ ⟨0, line⟩]
  unfold tells
  split
  · rename_i h
    exact iff_of_true rfl h
  · rename_i h
    exact iff_of_false (by simp) h

@[simp]
theorem tells_nil (δ : Delimiter) : tells δ [] = false :=
  tells_eq_false_iff.mpr ⟨[], rfl, by simp⟩

/-- What lines that are not numbered are as a table. -/
def tableOf? (path : Path) (δ : Delimiter) : List (List UInt8) → Option Records
  | [] => none
  | line :: rest =>
    match Line.cells δ ⟨0, line⟩ with
    | .ok (cell :: cells) =>
      let columns := (cell :: cells).map String.ofList
      some ⟨path, columns, rest.filterMap (lineRow? δ columns)⟩
    | _ => tableOf? path δ rest

theorem tells_iff_speaks : tells δ line = true ↔ δ.Speaks line := by
  rw [← not_iff_not, Bool.not_eq_true, tells_eq_false_iff, @speaks_iff δ ⟨0, line⟩, not_not, cells_eq_nil_iff]

/-- A line in which nothing stands gives no row. -/
theorem lineRow?_of_tells (columns : List String) (h : tells δ line = false) : lineRow? δ columns line = none := by
  apply ((lineRow?_or_lineFault? δ columns line).2 _).1
  rw [← tells_iff_speaks, h]
  exact Bool.false_ne_true

/-- **Lines in which nothing stands can be left out.** -/
theorem tableOf?_filter (path : Path) (δ : Delimiter) (lines : List (List UInt8)) :
    tableOf? path δ (lines.filter (tells δ)) = tableOf? path δ lines := by
  have hrows : ∀ columns (rest : List (List UInt8)),
      (rest.filter (tells δ)).filterMap (lineRow? δ columns) = rest.filterMap (lineRow? δ columns) := by
    intro columns rest
    rw [List.filterMap_filter]
    refine List.filterMap_congr fun line _ => ?_
    cases htells : tells δ line with
    | true => rfl
    | false => exact (lineRow?_of_tells columns htells).symm
  induction lines with
  | nil => rfl
  | cons line rest ih =>
    rw [List.filter_cons, tableOf?]
    -- the cells of the line decide what it is: nothing, the header, or a fault in front of it
    cases hcells : Line.cells δ ⟨0, line⟩ with
    | error fault =>
      have htells : tells δ line = true := by rw [tells, hcells]
      rw [if_pos htells, tableOf?, hcells]
      exact ih
    | ok cells =>
      cases cells with
      | nil =>
        have htells : ¬tells δ line = true := by simp [tells, hcells]
        rw [if_neg htells]
        exact ih
      | cons cell cells =>
        have htells : tells δ line = true := by rw [tells, hcells]
        rw [if_pos htells, tableOf?, hcells]
        simp only [hrows]

/-- The table behind the header, by the bytes of lines. -/
theorem readHeader_eq_tableOf? (path : Path) (δ : Delimiter) (lines : List Line) :
    ((Records.readHeader δ lines).2.map fun found =>
        (⟨path, found.1.map String.ofList, (Records.readRows δ (found.1.map String.ofList) found.2).2⟩ : Records)) =
      tableOf? path δ (lines.map (·.bytes)) := by
  induction lines with
  | nil => rfl
  | cons line rest ih =>
    have hnumber : Line.cells δ ⟨0, line.bytes⟩ = line.cells δ := rfl
    rw [Records.readHeader, List.map_cons, tableOf?, hnumber]
    cases line.cells δ with
    | error fault => exact ih
    | ok cells =>
      cases cells with
      | nil => exact ih
      | cons cell cells =>
        simp only [Option.map_some, readRows_eq, List.filterMap_map]
        rfl

/-- **The table of a content is that of its lines**, cut by the delimiter. -/
theorem records?_parse_eq (path : Path) (data : List UInt8) :
    (Records.parse path data).records? =
      (Delimiter.ofData? data).bind fun δ => tableOf? path δ ((bareLines (withoutMark data)).filter (tells δ)) := by
  unfold Records.parse
  cases Delimiter.ofData? data with
  | none => rfl
  | some δ =>
    have hempty : ∀ line, (tells δ line && isFilled line) = tells δ line := by
      intro line
      cases line with
      | nil =>
        rw [tells_nil]
        rfl
      | cons b line => exact Bool.and_true _
    have htable : tableOf? path δ ((linesOf data).map (·.bytes)) =
        tableOf? path δ ((bareLines (withoutMark data)).filter (tells δ)) := by
      rw [← tableOf?_filter, bytes_linesOf, List.filter_filter]
      simp only [hempty]
    rw [Option.bind_some, ← htable, ← readHeader_eq_tableOf?]
    simp only
    cases Records.readHeader δ (linesOf data) with
    | mk skipped found => cases found <;> rfl

/-! ## The table of a layout -/

/-- **The lines in which anything stands** are those that were laid out. -/
theorem filter_bareLines (hlines : ∀ line ∈ lines, ∀ b ∈ line, isLineEnd b = false) (h : LaysOut lines data)
    (δ : Delimiter) : (bareLines data).filter (tells δ) = lines.filter (tells δ) := by
  have hpad : ∀ {padding}, IsPadding padding → tells δ padding = false :=
    fun hpadding => tells_eq_false_iff.mpr (hpadding.isTextOf δ)
  -- the line up to an end is one piece, and an empty one may follow it inside the end
  have hsplit : ∀ {line ending data : List UInt8}, (∀ b ∈ line, isLineEnd b = false) → LineEnd ending →
      (bareLines (line ++ (ending ++ data))).filter (tells δ) =
        (line :: bareLines data).filter (tells δ) := by
    intro line ending data hline hending
    unfold bareLines
    cases hending with
    | feed => exact congrArg _ (Text.splitWith_piece_mark hline rfl data)
    | returnFeed =>
      have hfeed : Text.splitWith isLineEnd (lineFeed :: data) = [] :: Text.splitWith isLineEnd data :=
        @Text.splitWith_piece_mark _ isLineEnd [] lineFeed (by simp) rfl data
      have hreturn : Text.splitWith isLineEnd (line ++ carriageReturn :: lineFeed :: data) =
          line :: [] :: Text.splitWith isLineEnd data := by
        rw [Text.splitWith_piece_mark hline rfl, hfeed]
      show (Text.splitWith isLineEnd (line ++ carriageReturn :: lineFeed :: data)).filter (tells δ) = _
      rw [hreturn]
      simp [List.filter_cons]
  induction h with
  | nil => simp [bareLines]
  | last => rw [bareLines, Text.splitWith_of_forall_not (hlines _ List.mem_cons_self)]
  | lastPadding hpadding =>
    rw [bareLines, Text.splitWith_of_forall_not hpadding.not_isLineEnd, List.filter_cons, hpad hpadding]
    rfl
  | line line hending hrest ih =>
    rw [List.forall_mem_cons] at hlines
    rw [hsplit hlines.1 hending, List.filter_cons, List.filter_cons, ih hlines.2]
  | padding hpadding hending hrest ih =>
    rw [hsplit hpadding.not_isLineEnd hending, List.filter_cons, hpad hpadding]
    exact ih hlines

/-- **The table of a layout** is that of the lines, cut by the delimiter of the first visible one. -/
theorem records?_of_laysOut (path : Path) (hlines : AreLines lines) (h : LaysOut lines data) :
    (Records.parse path data).records? =
      ((lines.find? isVisible).map Delimiter.ofLine).bind fun δ => tableOf? path δ lines := by
  rw [records?_parse_eq, withoutMark_of_laysOut hlines h, ofData?_of_laysOut hlines.bare h]
  refine congrArg _ (funext fun δ => ?_)
  rw [filter_bareLines hlines.bare h, tableOf?_filter]

/-- **Ends of lines and lines of white space do not matter.** Whichever ends the lines have, the last one with an end or
    without, and wherever lines of spaces and tabs stand between them, before the header as well: there is the same
    table, or none at all. -/
theorem records?_eq_of_laysOut (path : Path) {lines : List (List UInt8)} (hlines : AreLines lines)
    {data other : List UInt8} (h : LaysOut lines data) (hother : LaysOut lines other) :
    (Records.parse path data).records? = (Records.parse path other).records? := by
  rw [records?_of_laysOut path hlines h, records?_of_laysOut path hlines hother]

/-- A line of tabs before the header, carriage returns, and no end of the last line. -/
theorem records?_eq_of_laysOut_tabs :
    let lines := ["a\tb", "1\t2"].map (Utf8.encode ·.toList)
    let data := Utf8.encode "a\tb\n1\t2\n".toList
    let other := Utf8.encode "\t \r\na\tb\r\n\n1\t2".toList
    AreLines lines ∧ LaysOut lines data ∧ LaysOut lines other ∧
      (Records.parse ⟨[]⟩ data).records? = (Records.parse ⟨[]⟩ other).records? ∧
      (Records.parse ⟨[]⟩ other).records? = some ⟨⟨[]⟩, ["a", "b"], [[1.0, 2.0]]⟩ := by
  intro lines data other
  have hbare : lines.all (·.all fun b => !isLineEnd b) = true := by decide
  have hlines : AreLines lines := by
    refine ⟨fun line hline b hb => ?_, ?_⟩
    · simpa using List.all_eq_true.mp (List.all_eq_true.mp hbare line hline) b hb
    · rintro line ⟨⟩
      decide
  have hdata : LaysOut lines data := .line _ .feed (.line _ .feed .nil)
  have hpadding : IsPadding [] ∧ IsPadding [tab, 0x20] := ⟨by simp [IsPadding], by simp [IsPadding]⟩
  have hother : LaysOut lines other := by
    have hbytes : other = [tab, 0x20] ++ ([carriageReturn, lineFeed] ++ (Utf8.encode "a\tb".toList ++
        ([carriageReturn, lineFeed] ++ ([] ++ ([lineFeed] ++ Utf8.encode "1\t2".toList))))) := by decide
    rw [hbytes]
    exact .padding hpadding.2 .returnFeed (.line _ .returnFeed (.padding hpadding.1 .feed (.last _)))
  exact ⟨hlines, hdata, hother, records?_eq_of_laysOut ⟨[]⟩ hlines hdata hother, rfl⟩

end LatencyReport
