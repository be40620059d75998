import LatencyReport.Proofs.Records.Cut
import LatencyReport.Proofs.Records.Table

/-!
# `Proofs.Records.Header` — when the delimiter and the header are of one line

The delimiter is chosen by a line that ends at a line feed and holds a byte that is no ASCII white space. The header
is the first line in which a cell stands, where lines end at carriage returns as well and the byte order mark is no
part of the first one. **The two need not be the same line**, and then the header is cut by the delimiter of another
line.

This file says exactly when they are the same (`header_of_firstLine_iff`). All of it is about the first line that is
not white space: it has to be text, the delimiter chosen has to be its own, nothing may stand before it, and of what
stands between its carriage returns only one piece may say anything.

## Contents

* `FirstLine`, `IsHeaderOf` — the first line that is not white space, and a header that is that line's;
* `choosingLine?`, `pieces`, `ScansAgree` — when it is;
* `hasCells`, `HeaderAt.find?_eq` — the header as the first of all pieces that has cells;
* `find?_bareLines`, `idle_of_find?_bareLines` — the lines that are passed over;
* `pads_of_cut_eq`, `cut_eq_of_pads` — a line and its piece are cut into the same cells;
* `header_of_firstLine_iff` — the exact condition; `noBreakSpace_splits_header` — a content that does not meet it.
-/

namespace LatencyReport

/-! ## The first line -/

/-- A line of white space. -/
def IsBlankLine : List UInt8 → Prop :=
  Utf8.IsTextOf Text.isBlank

/-- The first line of a content that is not white space, and the lines before it. Lines end at line feeds; a carriage
    return before the line feed is white space at the end of the line. The byte order mark is no part of a line. -/
structure FirstLine (data : List UInt8) (before : List (List UInt8)) (line : List UInt8) : Prop where
  lines_eq : ∃ after, Text.splitWith (· == lineFeed) (withoutMark data) = before ++ line :: after
  blank : ∀ earlier ∈ before, IsBlankLine earlier
  not_blank : ¬IsBlankLine line

/-- The delimiter that a header line asks for. -/
def Delimiter.ofLine (line : List UInt8) : Delimiter :=
  if line.contains LatencyReport.tab then .tab else .blanks

/-- The delimiter and the columns are those of the first line that is not white space. -/
def IsHeaderOf (data : List UInt8) (δ : Delimiter) (columns : List String) : Prop :=
  ∃ before line text, FirstLine data before line ∧ line = Utf8.encode text ∧ δ = .ofLine line ∧
    columns = (δ.cut text).map String.ofList

/-- The line that chooses the delimiter: the first one with a byte that is no ASCII white space. -/
def choosingLine? (data : List UInt8) : Option (List UInt8) :=
  (Text.splitWith (· == lineFeed) data).find? fun line => !line.all Text.isBlankByte

/-- What stands between the carriage returns of a line. -/
def pieces (line : List UInt8) : List (List UInt8) :=
  Text.splitWith (· == carriageReturn) line

/-- **The scans agree**: the line that chooses the delimiter has a tab exactly when the first line has one, the first
    line is text, nothing stands before it for its delimiter, and all pieces between its carriage returns but one are
    white space that this delimiter takes away. -/
structure ScansAgree (data : List UInt8) (before : List (List UInt8)) (line : List UInt8) : Prop where
  firstLine : FirstLine data before line
  isText : Utf8.IsText line
  chosen : ∃ choosing, choosingLine? data = some choosing ∧ (tab ∈ choosing ↔ tab ∈ line)
  idle : ∀ earlier ∈ before, Utf8.IsTextOf (Delimiter.ofLine line).idle earlier
  alone : ∃ left piece right, pieces line = left ++ piece :: right ∧
    ∀ other ∈ left ++ right, Utf8.IsTextOf (Delimiter.ofLine line).pads other

/-! ## The header among all pieces -/

/-- Whether a line has cells. -/
def hasCells (δ : Delimiter) (bytes : List UInt8) : Bool :=
  match Line.cells δ ⟨0, bytes⟩ with
  | .ok (_ :: _) => true
  | _ => false

section
variable {δ : Delimiter} {data : List UInt8} {before after : List Line} {header : Line} {cells : List (List Char)}

theorem hasCells_eq_false_iff {line : Line} : hasCells δ line.bytes = false ↔ Headless δ line := by
  have hnumber : Line.cells δ ⟨0, line.bytes⟩ = line.cells δ := rfl
  unfold hasCells Headless
  rw [hnumber]
  cases line.cells δ with
  | error fault => simp
  | ok cells => cases cells <;> simp

/-- A text has cells unless it is white space. -/
theorem hasCells_encode_eq_false_iff {text : List Char} :
    hasCells δ (Utf8.encode text) = false ↔ ∀ c ∈ text, δ.idle c = true := by
  rw [@hasCells_eq_false_iff δ ⟨0, Utf8.encode text⟩, ← all_isEmpty_cut_iff]
  have hcells := @cells_eq_ok_iff δ ⟨0, Utf8.encode text⟩ _ |>.mpr ⟨text, rfl, rfl⟩
  constructor
  · intro h
    by_contra hall
    have hnone := h _ hcells
    rw [if_neg hall] at hnone
    rw [hnone] at hall
    exact hall rfl
  · intro hall cells hother
    rw [hcells, if_pos hall] at hother
    exact (Except.ok.inj hother).symm

theorem isFilled_of_hasCells {bytes : List UInt8} (h : hasCells δ bytes = true) : isFilled bytes = true := by
  cases bytes with
  | nil =>
    have hnone : hasCells δ (Utf8.encode []) = false := hasCells_encode_eq_false_iff.mpr (by simp)
    exact absurd (hnone.symm.trans h) (by simp)
  | cons b bytes => rfl

/-- **The header is the first of all pieces that has cells.** -/
theorem HeaderAt.find?_eq (h : HeaderAt δ (linesOf data) before header after cells) :
    (bareLines (withoutMark data)).find? (hasCells δ) = some header.bytes := by
  have hheader : hasCells δ header.bytes = true := by
    by_contra hno
    rw [Bool.not_eq_true, hasCells_eq_false_iff] at hno
    exact h.cells_ne (hno cells h.cells_eq)
  have hlines : ((linesOf data).map (·.bytes)).find? (hasCells δ) = some header.bytes := by
    rw [h.lines_eq, List.map_append, List.map_cons, List.find?_append, List.find?_cons_of_pos hheader,
      List.find?_eq_none.mpr, Option.none_or]
    intro bytes hbytes
    obtain ⟨line, hline, rfl⟩ := List.mem_map.mp hbytes
    rw [Bool.not_eq_true, hasCells_eq_false_iff]
    exact h.headless line hline
  -- the lines are the pieces without the empty ones, and an empty piece has no cells
  rw [bytes_linesOf, List.find?_filter] at hlines
  rw [← hlines]
  refine congrArg (List.find? · _) (funext fun bytes => ?_)
  cases hcells : hasCells δ bytes with
  | false => simp
  | true => simp [isFilled_of_hasCells hcells]

/-- The cells of the header are what its text is cut into. -/
theorem HeaderAt.exists_text {lines : List Line} (h : HeaderAt δ lines before header after cells) :
    ∃ text, header.bytes = Utf8.encode text ∧ cells = δ.cut text := by
  obtain ⟨text, htext, hcells⟩ := cells_eq_ok_iff.mp h.cells_eq
  refine ⟨text, htext, ?_⟩
  split at hcells
  · exact absurd hcells h.cells_ne
  · exact hcells

end

/-! ## The pieces of a line -/

/-- The pieces of a content are those of its lines. -/
theorem bareLines_eq_flatMap (data : List UInt8) :
    bareLines data = (Text.splitWith (· == lineFeed) data).flatMap pieces :=
  Text.splitWith_or _ _ data

/-- The carriage return is one byte. -/
theorem sameTest_return : Utf8.SameTest (· == carriageReturn) (· == '\r') :=
  .of_eq (by decide) rfl

/-- The pieces of a text are texts. -/
theorem pieces_encode (text : List Char) :
    pieces (Utf8.encode text) = (Text.splitWith (· == '\r') text).map Utf8.encode :=
  sameTest_return.splitWith_encode text

/-- A piece of a text and the pieces on either side of it, as texts. -/
theorem exists_of_pieces_eq {text : List Char} {left right : List (List UInt8)} {piece : List UInt8}
    (h : pieces (Utf8.encode text) = left ++ piece :: right) :
    ∃ lefts part rights, Text.splitWith (· == '\r') text = lefts ++ part :: rights ∧
      left = lefts.map Utf8.encode ∧ piece = Utf8.encode part ∧ right = rights.map Utf8.encode := by
  rw [pieces_encode] at h
  obtain ⟨lefts, others, hsplit, rfl, hothers⟩ := List.map_eq_append_iff.mp h
  obtain ⟨part, rights, rfl, rfl, rfl⟩ := List.map_eq_cons_iff.mp hothers
  exact ⟨lefts, part, rights, hsplit, rfl, rfl, rfl⟩

theorem pads_return (δ : Delimiter) : δ.pads '\r' = true := by
  cases δ <;> decide

/-- A line is a text of white space exactly when its pieces are, since the carriage return is white space. -/
theorem forall_mem_iff_forall_pieces {p : Char → Bool} (hp : p '\r' = true) (text : List Char) :
    (∀ c ∈ text, p c = true) ↔ ∀ part ∈ Text.splitWith (· == '\r') text, ∀ c ∈ part, p c = true := by
  refine Text.forall_mem_iff_forall_splitWith (fun c hc => ?_) text
  rw [beq_iff_eq.mp hc]
  exact hp

/-- The pieces of a line of white space are white space. -/
theorem IsBlankLine.piece {line piece : List UInt8} (h : IsBlankLine line) (hpiece : piece ∈ pieces line) :
    IsBlankLine piece := by
  obtain ⟨text, rfl, hblank⟩ := h
  rw [pieces_encode] at hpiece
  obtain ⟨part, hpart, rfl⟩ := List.mem_map.mp hpiece
  have hreturn : Text.isBlank '\r' = true := by decide
  exact ⟨part, rfl, (forall_mem_iff_forall_pieces hreturn text).mp hblank part hpart⟩

section
variable {δ : Delimiter} {data line : List UInt8} {before after : List (List UInt8)}

/-- Nothing stands in a line exactly when none of its pieces has cells. -/
theorem forall_idle_iff_find?_pieces {text : List Char} :
    (∀ c ∈ text, δ.idle c = true) ↔ (pieces (Utf8.encode text)).find? (hasCells δ) = none := by
  rw [forall_mem_iff_forall_pieces (idle_of_pads (pads_return δ)), pieces_encode, List.find?_eq_none,
    List.forall_mem_map]
  refine forall₂_congr fun part _ => ?_
  rw [Bool.not_eq_true]
  exact hasCells_encode_eq_false_iff.symm

/-- Nothing stands in lines of text exactly when none of their pieces has cells. -/
theorem find?_flatMap_pieces_eq_none_iff (htext : ∀ earlier ∈ before, Utf8.IsText earlier) :
    (before.flatMap pieces).find? (hasCells δ) = none ↔ ∀ earlier ∈ before, Utf8.IsTextOf δ.idle earlier := by
  rw [List.find?_flatMap, List.findSome?_eq_none_iff]
  refine forall₂_congr fun earlier hearlier => ?_
  obtain ⟨text, rfl⟩ := htext earlier hearlier
  rw [Utf8.isTextOf_encode, forall_idle_iff_find?_pieces]

/-- **Lines in which nothing stands are passed over**: the header is looked for in the pieces of the first other
    line. -/
theorem find?_bareLines (h : Text.splitWith (· == lineFeed) (withoutMark data) = before ++ line :: after)
    (hbefore : ∀ earlier ∈ before, Utf8.IsTextOf δ.idle earlier) {text : List Char} (htext : line = Utf8.encode text)
    (hline : ¬∀ c ∈ text, δ.idle c = true) :
    (bareLines (withoutMark data)).find? (hasCells δ) = (pieces line).find? (hasCells δ) := by
  have hnone : (before.flatMap pieces).find? (hasCells δ) = none :=
    (find?_flatMap_pieces_eq_none_iff fun earlier hearlier => (hbefore earlier hearlier).isText).mpr hbefore
  have hsome : ((pieces line).find? (hasCells δ)).isSome = true := by
    rwa [Option.isSome_iff_ne_none, htext, ne_eq, ← forall_idle_iff_find?_pieces]
  rw [bareLines_eq_flatMap, h, List.flatMap_append, List.flatMap_cons, List.find?_append, List.find?_append, hnone,
    Option.none_or, Option.or_of_isSome hsome]

/-- Nothing stands in lines of white space that come before the first piece with cells, if that is no white space. -/
theorem idle_of_find?_bareLines {bytes : List UInt8}
    (h : Text.splitWith (· == lineFeed) (withoutMark data) = before ++ after)
    (hblank : ∀ earlier ∈ before, IsBlankLine earlier)
    (hfind : (bareLines (withoutMark data)).find? (hasCells δ) = some bytes) (hbytes : ¬IsBlankLine bytes) :
    ∀ earlier ∈ before, Utf8.IsTextOf δ.idle earlier := by
  refine (find?_flatMap_pieces_eq_none_iff fun earlier hearlier => (hblank earlier hearlier).isText).mp ?_
  rw [bareLines_eq_flatMap, h, List.flatMap_append, List.find?_append] at hfind
  cases hfront : (before.flatMap pieces).find? (hasCells δ) with
  | none => rfl
  | some found =>
    rw [hfront, Option.some_or, Option.some.injEq] at hfind
    obtain ⟨earlier, hearlier, hfound⟩ := List.mem_flatMap.mp (List.mem_of_find?_eq_some hfront)
    exact absurd (hfind ▸ (hblank earlier hearlier).piece hfound) hbytes

end

/-! ## Whose delimiter, whose header -/

/-- The delimiter of a content is that of the line that chooses it. -/
theorem ofData?_eq (data : List UInt8) : Delimiter.ofData? data = (choosingLine? data).map Delimiter.ofLine := by
  unfold Delimiter.ofData? choosingLine?
  cases (Text.splitWith (· == lineFeed) data).find? fun line => !line.all Text.isBlankByte <;> rfl

theorem ofLine_eq_ofLine_iff {line other : List UInt8} :
    Delimiter.ofLine line = Delimiter.ofLine other ↔ (tab ∈ line ↔ tab ∈ other) := by
  unfold Delimiter.ofLine
  by_cases hline : tab ∈ line <;> by_cases hother : tab ∈ other <;> simp [hline, hother]

/-- The line that chooses asks for the delimiter of another line exactly when the two agree on tabs. -/
theorem chosen_iff {data line : List UInt8} {δ : Delimiter} (hδ : Delimiter.ofData? data = some δ) :
    (∃ choosing, choosingLine? data = some choosing ∧ (tab ∈ choosing ↔ tab ∈ line)) ↔ δ = .ofLine line := by
  rw [ofData?_eq, Option.map_eq_some_iff] at hδ
  obtain ⟨choosing, hchoosing, rfl⟩ := hδ
  rw [ofLine_eq_ofLine_iff]
  constructor
  · rintro ⟨other, hother, htab⟩
    rw [hchoosing, Option.some.injEq] at hother
    rwa [hother]
  · intro htab
    exact ⟨choosing, hchoosing, htab⟩

/-- In the first line something stands, for any delimiter. -/
theorem FirstLine.stands {data : List UInt8} {before : List (List UInt8)} {text : List Char}
    (h : FirstLine data before (Utf8.encode text)) (δ : Delimiter) : ¬∀ c ∈ text, δ.idle c = true := by
  intro hall
  exact h.not_blank (Utf8.isTextOf_encode.mpr fun c hc => isBlank_of_idle (hall c hc))

section
variable {δ : Delimiter} {text part : List Char} {lefts rights : List (List Char)}

/-- Texts that are cut into the same cells have the same characters, but for white space. -/
theorem countP_eq_of_cut_eq (h : δ.cut text = δ.cut part) {p : Char → Bool}
    (hp : ∀ c, δ.idle c = true → p c = false) : text.countP p = part.countP p := by
  rw [← countP_cut hp text, h, countP_cut hp part]

/-- A text that is cut into the cells of white space is white space. -/
theorem isBlank_of_cut_eq (h : δ.cut text = δ.cut part) (hpart : ∀ c ∈ part, Text.isBlank c = true) :
    ∀ c ∈ text, Text.isBlank c = true := by
  have hvisible : ∀ c, δ.idle c = true → (!Text.isBlank c) = false := by
    intro c hc
    rw [isBlank_of_idle hc]
    rfl
  have hcount := countP_eq_of_cut_eq h hvisible
  have hnone : part.countP (fun c => !Text.isBlank c) = 0 := by simpa using hpart
  rw [hnone, List.countP_eq_zero] at hcount
  simpa using hcount

/-- **If the header is cut out of the first line, nothing else stands in it**: the other pieces between its carriage
    returns have none of its characters, and none of its tabs where tabs count. -/
theorem pads_of_cut_eq
    (hsplit : Text.splitWith (· == '\r') text = lefts ++ part :: rights) (hcut : δ.cut text = δ.cut part) :
    ∀ other ∈ lefts ++ rights, ∀ c ∈ other, δ.pads c = true := by
  intro other hother c hc
  have hcount := countP_eq_of_cut_eq hcut (p := fun c => !δ.idle c) (by simp)
  have hidle : δ.idle c = true := by
    simpa using Text.not_of_countP_le hsplit hcount.le other hother c hc
  cases δ with
  | blanks => exact hidle
  | tab =>
    -- a tab in another piece would make one cell more
    have htabs : text.count '\t' = part.count '\t' := by
      have hlength := congrArg List.length hcut
      rw [Delimiter.cut, Delimiter.cut, length_textFields, length_textFields] at hlength
      omega
    have hnotab : (c == '\t') = false := Text.not_of_countP_le hsplit htabs.le other hother c hc
    have hother : (c != '\t') = true := by
      rw [bne, hnotab]
      rfl
    exact Bool.and_eq_true_iff.mpr ⟨hidle, hother⟩

/-- **Pieces that a delimiter takes away change no cell** of the text that they stand in. -/
theorem cut_eq_of_pads
    (hsplit : Text.splitWith (· == '\r') text = lefts ++ part :: rights)
    (h : ∀ other ∈ lefts ++ rights, ∀ c ∈ other, δ.pads c = true) : δ.cut text = δ.cut part := by
  have hreturn := pads_return δ
  rw [Text.eq_of_splitWith_eq_append_cons hsplit]
  refine cut_append_pads ?_ ?_ part
  · intro c hc
    obtain ⟨other, hother, hmem⟩ := List.mem_flatMap.mp hc
    rcases List.mem_append.mp hmem with hmem | hmem
    · exact h other (List.mem_append_left _ hother) c hmem
    · rwa [List.mem_singleton.mp hmem]
  · intro c hc
    obtain ⟨other, hother, hmem⟩ := List.mem_flatMap.mp hc
    rcases List.mem_cons.mp hmem with rfl | hmem
    · exact hreturn
    · exact h other (List.mem_append_right _ hother) c hmem

end

section
variable {data : List UInt8} {δ : Delimiter} {before after : List Line} {header : Line} {cells : List (List Char)}

/-- **A header of the first line makes the scans agree.** -/
theorem scansAgree_of_isHeaderOf (hδ : Delimiter.ofData? data = some δ)
    (hat : HeaderAt δ (linesOf data) before header after cells) (h : IsHeaderOf data δ (cells.map String.ofList)) :
    ∃ earlier line, ScansAgree data earlier line := by
  obtain ⟨earlier, line, text, hfirst, rfl, hline, hcolumns⟩ := h
  obtain ⟨part, hpart, hcells⟩ := hat.exists_text
  have hcut : δ.cut text = δ.cut part := by
    rw [← hcells]
    exact (List.map_injective_iff.mpr (fun _ _ => String.ofList_injective) hcolumns).symm
  obtain ⟨rest, hlines⟩ := hfirst.lines_eq
  have hfind := hat.find?_eq
  -- the header is as visible as the first line, so the lines before that one were passed over
  have hvisible : ¬IsBlankLine header.bytes := by
    rw [hpart, IsBlankLine, Utf8.isTextOf_encode]
    intro hblank
    exact hfirst.not_blank (Utf8.isTextOf_encode.mpr (isBlank_of_cut_eq hcut hblank))
  have hidle := idle_of_find?_bareLines hlines hfirst.blank hfind hvisible
  rw [find?_bareLines hlines hidle rfl (hfirst.stands δ), List.find?_eq_some_iff_append] at hfind
  obtain ⟨_, left, right, hsplit, _⟩ := hfind
  obtain ⟨lefts, middle, rights, htexts, rfl, hmiddle, rfl⟩ := exists_of_pieces_eq hsplit
  obtain rfl := Utf8.encode_injective (hpart.symm.trans hmiddle)
  refine ⟨earlier, _, hfirst, ⟨text, rfl⟩, (chosen_iff hδ).mpr hline, hline ▸ hidle, _, _, _, hsplit, ?_⟩
  rw [← List.map_append, List.forall_mem_map]
  intro other hother
  rw [← hline, Utf8.isTextOf_encode]
  exact pads_of_cut_eq htexts hcut other hother

/-- **Where the scans agree, the header is the first line's.** -/
theorem isHeaderOf_of_scansAgree (hδ : Delimiter.ofData? data = some δ)
    (hat : HeaderAt δ (linesOf data) before header after cells) {earlier : List (List UInt8)} {line : List UInt8}
    (h : ScansAgree data earlier line) : IsHeaderOf data δ (cells.map String.ofList) := by
  obtain ⟨hfirst, ⟨text, rfl⟩, hchosen, hidle, left, piece, right, hsplit, halone⟩ := h
  obtain hline := (chosen_iff hδ).mp hchosen
  obtain ⟨rest, hlines⟩ := hfirst.lines_eq
  obtain ⟨lefts, part, rights, htexts, rfl, rfl, rfl⟩ := exists_of_pieces_eq hsplit
  rw [← hline, ← List.map_append, List.forall_mem_map] at halone
  have hpads : ∀ other ∈ lefts ++ rights, ∀ c ∈ other, δ.pads c = true :=
    fun other hother => Utf8.isTextOf_encode.mp (halone other hother)
  have hcut := cut_eq_of_pads htexts hpads
  -- the pieces on the left have no cells, and the one that is left has those of the line
  have hleft : (lefts.map Utf8.encode).find? (hasCells δ) = none := by
    rw [List.find?_eq_none, List.forall_mem_map]
    intro other hother
    rw [Bool.not_eq_true, hasCells_encode_eq_false_iff]
    exact fun c hc => idle_of_pads (hpads other (List.mem_append_left _ hother) c hc)
  have hpart : hasCells δ (Utf8.encode part) = true := by
    rw [← Bool.not_eq_false, hasCells_encode_eq_false_iff, ← all_isEmpty_cut_iff, ← hcut, all_isEmpty_cut_iff]
    exact hfirst.stands δ
  have hfind := hat.find?_eq
  rw [find?_bareLines hlines (hline ▸ hidle) rfl (hfirst.stands δ), hsplit, List.find?_append, hleft, Option.none_or,
    List.find?_cons_of_pos hpart, Option.some.injEq] at hfind
  obtain ⟨same, hsame, hcells⟩ := hat.exists_text
  obtain rfl : part = same := Utf8.encode_injective (hfind.trans hsame)
  exact ⟨earlier, _, text, hfirst, rfl, hline, by rw [hcells, hcut]⟩

end

/-- **The header is the first line's exactly when the scans agree.** Whatever line it is, it is cut by the delimiter
    that the rows after it are cut by. -/
theorem header_of_firstLine_iff {path : Path} {data : List UInt8} {R : Records}
    (hR : (Records.parse path data).records? = some R) :
    ∃ δ before header after, Delimiter.ofData? data = some δ ∧ linesOf data = before ++ header :: after ∧
      header.cells δ = .ok (R.columns.map String.toList) ∧
      R.rows = after.filterMap (fun line => lineRow? δ R.columns line.bytes) ∧
      (IsHeaderOf data δ R.columns ↔ ∃ earlier line, ScansAgree data earlier line) := by
  obtain ⟨δ, before, header, after, cells, hδ, hat⟩ := exists_headerAt hR
  rw [parse_of_headerAt path hδ hat, Option.some.injEq] at hR
  subst hR
  have hcells : (cells.map String.ofList).map String.toList = cells := by simp
  refine ⟨δ, before, header, after, hδ, hat.lines_eq, ?_, rfl, scansAgree_of_isHeaderOf hδ hat, ?_⟩
  · rw [hcells]
    exact hat.cells_eq
  · rintro ⟨earlier, line, hagree⟩
    exact isHeaderOf_of_scansAgree hδ hat hagree

/-- White space in front of a header with tabs, and lines that end at carriage return and line feed. -/
theorem header_of_tabs :
    let data := Utf8.encode " \r\nbefore wait\trtt\r\n".toList
    (Records.parse ⟨[]⟩ data).records? = some ⟨⟨[]⟩, ["before wait", "rtt"], []⟩ ∧
      IsHeaderOf data .tab ["before wait", "rtt"] := by
  intro data
  have hR : (Records.parse ⟨[]⟩ data).records? = some ⟨⟨[]⟩, ["before wait", "rtt"], []⟩ := rfl
  have hline : ¬IsBlankLine (Utf8.encode "before wait\trtt\r".toList) := by
    rintro ⟨text, htext, hblank⟩
    obtain rfl := Utf8.encode_injective htext
    exact absurd (hblank 'b' (by decide)) (by decide)
  have hagree : ScansAgree data [Utf8.encode " \r".toList] (Utf8.encode "before wait\trtt\r".toList) := by
    refine ⟨⟨⟨[[]], rfl⟩, ?_, hline⟩, ⟨_, rfl⟩, ⟨Utf8.encode "before wait\trtt\r".toList, rfl, Iff.rfl⟩, ?_, ?_⟩
    · intro earlier hearlier
      exact ⟨" \r".toList, List.mem_singleton.mp hearlier, List.all_eq_true.mp rfl⟩
    · intro earlier hearlier
      exact ⟨" \r".toList, List.mem_singleton.mp hearlier, List.all_eq_true.mp rfl⟩
    · refine ⟨[], Utf8.encode "before wait\trtt".toList, [[]], rfl, ?_⟩
      intro other hother
      exact ⟨[], List.mem_singleton.mp hother, by simp⟩
  obtain ⟨δ, _, _, _, hδ, _, _, _, hiff⟩ := header_of_firstLine_iff hR
  obtain rfl : Delimiter.tab = δ := Option.some.inj hδ
  exact ⟨hR, hiff.mpr ⟨_, _, hagree⟩⟩

/-- **A no-break space alone in a line splits the header of the next one.** It is white space among characters, and
    none among bytes: its line is not the header, and yet it is asked whether it has a tab. -/
theorem noBreakSpace_splits_header :
    let data := Utf8.encode "\u00a0\nbefore wait\tafter wait\trtt\n100\t200\t350\n".toList
    Delimiter.ofData? data = some .blanks ∧
      (Records.parse ⟨[]⟩ data).records? = some ⟨⟨[]⟩, ["before", "wait", "after", "wait", "rtt"], []⟩ ∧
      ¬IsHeaderOf data .blanks ["before", "wait", "after", "wait", "rtt"] := by
  intro data
  refine ⟨rfl, rfl, ?_⟩
  rintro ⟨before, line, text, hfirst, rfl, hline, _⟩
  obtain ⟨after, hlines⟩ := hfirst.lines_eq
  have hmem : Utf8.encode text ∈ Text.splitWith (· == lineFeed) (withoutMark data) := by
    rw [hlines]
    exact List.mem_append_right _ List.mem_cons_self
  have hsplit : Text.splitWith (· == lineFeed) (withoutMark data) =
      ["\u00a0", "before wait\tafter wait\trtt", "100\t200\t350", ""].map (Utf8.encode ·.toList) := rfl
  rw [hsplit, List.map_cons, List.map_cons, List.map_cons, List.map_cons, List.map_nil] at hmem
  simp only [List.mem_cons, List.not_mem_nil, or_false] at hmem
  -- the lines without a tab are white space, and the others ask for tabs
  rcases hmem with h | h | h | h
  · exact hfirst.not_blank ⟨_, h, List.all_eq_true.mp rfl⟩
  · rw [h] at hline
    exact absurd hline (by decide)
  · rw [h] at hline
    exact absurd hline (by decide)
  · exact hfirst.not_blank ⟨_, h, List.all_eq_true.mp rfl⟩

end LatencyReport
