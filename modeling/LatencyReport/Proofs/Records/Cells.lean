import LatencyReport.Proofs.Text.Utf8
import LatencyReport.Records

/-!
# `Proofs.Records.Cells` — the cells of a line, said of its text

A line is cut into fields, trimmed and read as UTF-8 **field by field, as bytes**. None of the three steps tears a
character apart, so all of it can be said of the text of the line: a line has cells exactly when it is text, and its
cells are what `Delimiter.cut` makes of that text (`cells_eq_ok_iff`).

## Contents

* `Text.words_trimWith`, `Text.words_eq_nil_iff` — words and white space;
* `isAsciiBlank`, `textFields`, `Delimiter.cut` — the cells of a text;
* `fields_eq_ok_iff`, `cells_eq_ok_iff` — the cells of a line are those of its text;
* `Delimiter.idle`, `cells_eq_nil_iff` — when nothing stands in a line.
-/

namespace LatencyReport

/-! ## Words -/

namespace Text

/-- White space in front of a text starts no word. -/
theorem words_blanks_append {left : List Char} (hl : ∀ c ∈ left, isBlank c = true) (s : List Char) :
    words (left ++ s) = words s := by
  induction left with
  | nil => rfl
  | cons c left ih =>
    have hrest := ih fun x hx => hl x (List.mem_cons_of_mem _ hx)
    have hc := words_append_blank (hl c List.mem_cons_self) [] (left ++ s)
    rw [List.cons_append, ← List.nil_append (c :: (left ++ s)), hc, words_nil, List.nil_append, hrest]

/-- A text of white space has no words, and no other text is without. -/
theorem words_eq_nil_iff {s : List Char} : words s = [] ↔ ∀ c ∈ s, isBlank c = true := by
  constructor
  · intro h
    induction s using splitInduction isBlank with
    | last piece hp =>
      by_cases hne : piece = []
      · simp [hne]
      · rw [words_of_forall_not hne hp] at h
        exact absurd h (by simp)
    | mark piece c rest hp hc ih =>
      rw [words_append_blank hc, List.append_eq_nil_iff] at h
      have hpiece : piece = [] := by
        by_contra hne
        rw [words_of_forall_not hne hp] at h
        exact absurd h.1 (by simp)
      rw [hpiece, List.nil_append, List.forall_mem_cons]
      exact ⟨hc, ih h.2⟩
  · intro h
    have := words_blanks_append h []
    rwa [List.append_nil] at this

/-- White space at the end of a text is part of no word. -/
theorem words_append_blanks {right : List Char} (hr : ∀ c ∈ right, isBlank c = true) (s : List Char) :
    words (s ++ right) = words s := by
  cases right with
  | nil => rw [List.append_nil]
  | cons c right =>
    rw [words_append_blank (hr c List.mem_cons_self),
      words_eq_nil_iff.mpr fun x hx => hr x (List.mem_cons_of_mem _ hx), List.append_nil]

/-- **Trimming white space changes no word.** -/
theorem words_trimWith {isMark : Char → Bool} (h : ∀ c, isMark c = true → isBlank c = true) (s : List Char) :
    words (trimWith isMark s) = words s := by
  obtain ⟨left, right, hs, hl, hr⟩ := exists_trimWith isMark s
  conv_rhs => rw [hs]
  rw [words_append_blanks fun c hc => h c (hr c hc), words_blanks_append fun c hc => h c (hl c hc)]

/-- No word is empty, so words that all are empty are none. -/
theorem words_eq_nil_of_all_isEmpty {s : List Char} (h : (words s).all (·.isEmpty) = true) : words s = [] := by
  refine List.eq_nil_iff_forall_not_mem.mpr fun word hword => ?_
  have hempty := List.all_eq_true.mp h word hword
  exact (ne_nil_and_not_isBlank_of_mem_words hword).1 (List.isEmpty_iff.mp hempty)

/-- Words may be looked for between marks that are white space. -/
theorem flatMap_words_splitWith {isMark : Char → Bool} (h : ∀ c, isMark c = true → isBlank c = true)
    (s : List Char) : (splitWith isMark s).flatMap words = words s :=
  flatMap_splitWith (fun xs c ys hc => words_append_blank (h c hc) xs ys) s

end Text

/-! ## Tabs and white space, as bytes and as characters -/

/-- White space that is taken from the ends of a field. -/
def isAsciiBlank (c : Char) : Bool :=
  c == ' ' || c == '\t' || c == '\n' || c == '\x0c' || c == '\r'

theorem isBlank_of_isAsciiBlank {c : Char} (h : isAsciiBlank c = true) : Text.isBlank c = true := by
  simp only [isAsciiBlank, Bool.or_eq_true, beq_iff_eq] at h
  rcases h with (((rfl | rfl) | rfl) | rfl) | rfl <;> decide

theorem isBlank_of_eq_tab {c : Char} (h : (c == '\t') = true) : Text.isBlank c = true := by
  rw [beq_iff_eq.mp h]
  decide

theorem small_of_eq_tab {b : UInt8} (h : (b == tab) = true) : b.toNat < 128 := by
  rw [beq_iff_eq.mp h]
  decide

theorem small_of_isBlankByte {b : UInt8} (h : Text.isBlankByte b = true) : b.toNat < 128 := by
  simp only [Text.isBlankByte, Bool.or_eq_true, beq_iff_eq] at h
  rcases h with (((rfl | rfl) | rfl) | rfl) | rfl <;> decide

/-- The tab is one byte. -/
theorem sameTest_tab : Utf8.SameTest (· == tab) (· == '\t') :=
  .of_eq (by decide) rfl

/-- Each of the five characters is one byte. -/
theorem sameTest_blank : Utf8.SameTest Text.isBlankByte isAsciiBlank := by
  refine .of_small (fun b => small_of_isBlankByte) ?_ ?_
  · intro c hc
    simp only [isAsciiBlank, Bool.or_eq_true, beq_iff_eq] at hc
    rcases hc with (((rfl | rfl) | rfl) | rfl) | rfl <;> exact ⟨_, rfl, rfl⟩
  · intro c b hone hb
    have hchar : ∀ d : Char, String.utf8EncodeChar d = [b] → c = d := by
      intro d hd
      have heq : Utf8.encode [c] = Utf8.encode [d] := by
        rw [Utf8.encode_cons, Utf8.encode_cons, hone, hd]
      simpa using Utf8.encode_injective heq
    simp only [Text.isBlankByte, Bool.or_eq_true, beq_iff_eq] at hb
    rcases hb with (((rfl | rfl) | rfl) | rfl) | rfl
    · rw [hchar ' ' rfl]; rfl
    · rw [hchar '\t' rfl]; rfl
    · rw [hchar '\n' rfl]; rfl
    · rw [hchar '\x0c' rfl]; rfl
    · rw [hchar '\r' rfl]; rfl

/-! ## The cells of a text -/

/-- What stands between the tabs of a text, without white space at the ends. -/
def textFields (text : List Char) : List (List Char) :=
  (Text.splitWith (· == '\t') text).map (Text.trimWith isAsciiBlank)

/-- What a delimiter cuts a text into. -/
def Delimiter.cut : Delimiter → List Char → List (List Char)
  | .tab, text => textFields text
  | .blanks, text => Text.words text

theorem decodeFields_encode (index : Nat) (texts : List (List Char)) :
    decodeFields index (texts.map Utf8.encode) = .ok texts := by
  induction texts generalizing index with
  | nil => rfl
  | cons text texts ih => simp [decodeFields, ih, Except.map]

theorem eq_encode_of_decodeFields {index : Nat} {fields : List (List UInt8)} {texts : List (List Char)}
    (h : decodeFields index fields = .ok texts) : fields = texts.map Utf8.encode := by
  induction fields generalizing index texts with
  | nil =>
    rw [decodeFields, Except.ok.injEq] at h
    rw [← h, List.map_nil]
  | cons field rest ih =>
    cases hfield : Utf8.decode field with
    | error offset => simp [decodeFields, hfield] at h
    | ok text =>
      cases hrest : decodeFields (index + 1) rest with
      | error fault => simp [decodeFields, hfield, hrest, Except.map] at h
      | ok others =>
        simp only [decodeFields, hfield, hrest, Except.map, Except.ok.injEq] at h
        rw [← h, List.map_cons, ih hrest, Utf8.decode_eq_ok_iff.mp hfield]

/-- Fields decode to texts exactly when they are the bytes of those texts. -/
theorem decodeFields_eq_ok_iff {index : Nat} {fields : List (List UInt8)} {texts : List (List Char)} :
    decodeFields index fields = .ok texts ↔ fields = texts.map Utf8.encode := by
  constructor
  · exact eq_encode_of_decodeFields
  · rintro rfl
    exact decodeFields_encode index texts

/-- **The fields of a line are those of its text**, and a line that is no text has none. -/
theorem fields_eq_ok_iff {line : Line} {fields : List (List Char)} :
    line.fields = .ok fields ↔ ∃ text, line.bytes = Utf8.encode text ∧ fields = textFields text := by
  rw [Line.fields, decodeFields_eq_ok_iff]
  have hencode : ∀ text, ((Text.splitWith (· == tab) (Utf8.encode text)).map Text.trimBytes) =
      (textFields text).map Utf8.encode := by
    intro text
    unfold textFields
    rw [sameTest_tab.splitWith_encode, List.map_map, List.map_map]
    exact List.map_congr_left fun piece _ => sameTest_blank.trimWith_encode piece
  constructor
  · intro h
    -- the line is text since every field is: cutting and trimming take small bytes away
    have htext : Utf8.IsText line.bytes := by
      rw [Utf8.isText_iff_forall_splitWith fun b => small_of_eq_tab]
      intro piece hpiece
      rw [← Utf8.isText_trimWith fun b => small_of_isBlankByte]
      have hmem : Text.trimBytes piece ∈ fields.map Utf8.encode := h ▸ List.mem_map_of_mem hpiece
      obtain ⟨field, _, hfield⟩ := List.mem_map.mp hmem
      exact ⟨field, hfield.symm⟩
    obtain ⟨text, htext⟩ := htext
    rw [htext, hencode] at h
    exact ⟨text, htext, (List.map_injective_iff.mpr (fun _ _ => Utf8.encode_injective) h).symm⟩
  · rintro ⟨text, htext, rfl⟩
    rw [htext, hencode]

/-- **The cells of a line are those of its text**, unless all of these are empty. A line that is no text has none. -/
theorem cells_eq_ok_iff {δ : Delimiter} {line : Line} {cells : List (List Char)} :
    line.cells δ = .ok cells ↔
      ∃ text, line.bytes = Utf8.encode text ∧ cells = if (δ.cut text).all (·.isEmpty) then [] else δ.cut text := by
  have hcut : ∀ text, δ.cellsOf (textFields text) = if (δ.cut text).all (·.isEmpty) then [] else δ.cut text := by
    intro text
    cases δ with
    | tab => rfl
    | blanks =>
      -- a tab is white space, so words do not care for the fields that they stand in
      have hwords : (textFields text).flatMap Text.words = Text.words text := by
        rw [textFields, List.flatMap_map, ← Text.flatMap_words_splitWith fun c => isBlank_of_eq_tab]
        exact List.flatMap_congr fun piece _ => Text.words_trimWith (fun c => isBlank_of_isAsciiBlank) piece
      rw [Delimiter.cellsOf, hwords, Delimiter.cut]
      split
      · rename_i hall
        exact Text.words_eq_nil_of_all_isEmpty hall
      · rfl
  constructor
  · intro h
    unfold Line.cells at h
    cases hfields : line.fields with
    | error fault => simp [hfields, Except.map] at h
    | ok fields =>
      simp only [hfields, Except.map, Except.ok.injEq] at h
      obtain ⟨text, htext, rfl⟩ := fields_eq_ok_iff.mp hfields
      exact ⟨text, htext, by rw [← h, hcut]⟩
  · rintro ⟨text, htext, rfl⟩
    rw [Line.cells, fields_eq_ok_iff.mpr ⟨text, htext, rfl⟩, Except.map, hcut]

/-! ## Lines in which nothing stands -/

/-- The white space that a delimiter trims or cuts at. -/
def Delimiter.idle : Delimiter → Char → Bool
  | .tab => isAsciiBlank
  | .blanks => Text.isBlank

/-- A text is cut into nothing but empty cells exactly when it is white space. -/
theorem all_isEmpty_cut_iff {δ : Delimiter} {text : List Char} :
    (δ.cut text).all (·.isEmpty) = true ↔ ∀ c ∈ text, δ.idle c = true := by
  cases δ with
  | tab =>
    show ((Text.splitWith (· == '\t') text).map (Text.trimWith isAsciiBlank)).all (·.isEmpty) = true ↔
      ∀ c ∈ text, isAsciiBlank c = true
    induction text using Text.splitInduction (· == '\t') with
    | last piece hp => simp [Text.splitWith_of_forall_not hp, Text.trimWith_eq_nil_iff]
    | mark piece c rest hp hc ih =>
      have hblank : isAsciiBlank c = true := by
        rw [beq_iff_eq.mp hc]
        rfl
      rw [Text.splitWith_piece_mark hp hc, List.map_cons, List.all_cons, Bool.and_eq_true, ih, List.isEmpty_iff,
        Text.trimWith_eq_nil_iff, List.forall_mem_append, List.forall_mem_cons]
      exact and_congr_right fun _ => (and_iff_right hblank).symm
  | blanks =>
    show (Text.words text).all (·.isEmpty) = true ↔ ∀ c ∈ text, Text.isBlank c = true
    rw [← Text.words_eq_nil_iff]
    constructor
    · exact Text.words_eq_nil_of_all_isEmpty
    · intro h
      rw [h, List.all_nil]

/-- **Nothing stands in a line** exactly when it is a text of white space. -/
theorem cells_eq_nil_iff {δ : Delimiter} {line : Line} :
    line.cells δ = .ok [] ↔ Utf8.IsTextOf δ.idle line.bytes := by
  rw [cells_eq_ok_iff]
  refine exists_congr fun text => and_congr_right fun _ => ?_
  rw [← all_isEmpty_cut_iff]
  by_cases hall : (δ.cut text).all (·.isEmpty) = true
  · simp [hall]
  · rw [if_neg hall]
    refine iff_of_false (fun hnil => hall ?_) hall
    rw [← hnil, List.all_nil]

end LatencyReport
