import LatencyReport.Proofs.Records.Cells

/-!
# `Proofs.Records.Cut` — what cutting a text keeps

A delimiter takes from a text nothing but white space: **every other character stands in a cell** (`countP_cut`), so
the cells of two texts can be told apart by the characters in them. White space at the ends of a text changes no cell,
as long as it holds no tab where tabs count (`cut_append_pads`).

## Contents

* `countP_cut` — the characters in the cells;
* `length_textFields` — how many cells a tab makes;
* `Delimiter.pads`, `cut_append_pads` — white space at the ends of a text.
-/

namespace LatencyReport

/-! ## Every character stands in a cell -/

theorem countP_textFields {p : Char → Bool} (hp : ∀ c, isAsciiBlank c = true → p c = false) (text : List Char) :
    (textFields text).flatten.countP p = text.countP p := by
  unfold textFields
  induction text using Text.splitInduction (· == '\t') with
  | last piece h =>
    rw [Text.splitWith_of_forall_not h, List.map_singleton, List.flatten_singleton, Text.countP_trimWith hp]
  | mark piece c rest h hc ih =>
    have htab : p c = false := hp c (by rw [beq_iff_eq.mp hc]; rfl)
    rw [Text.splitWith_piece_mark h hc, List.map_cons, List.flatten_cons, List.countP_append, ih,
      Text.countP_trimWith hp, List.countP_append, List.countP_cons_of_neg (by simp [htab])]

theorem countP_words {p : Char → Bool} (hp : ∀ c, Text.isBlank c = true → p c = false) (text : List Char) :
    (Text.words text).flatten.countP p = text.countP p := by
  induction text using Text.splitInduction Text.isBlank with
  | last piece h =>
    by_cases hne : piece = []
    · rw [hne, Text.words_nil, List.flatten_nil]
    · rw [Text.words_of_forall_not hne h, List.flatten_singleton]
  | mark piece c rest h hc ih =>
    have hpiece : (Text.words piece).flatten.countP p = piece.countP p := by
      by_cases hne : piece = []
      · rw [hne, Text.words_nil, List.flatten_nil]
      · rw [Text.words_of_forall_not hne h, List.flatten_singleton]
    rw [Text.words_append_blank hc, List.flatten_append, List.countP_append, hpiece, ih, List.countP_append,
      List.countP_cons_of_neg (by simp [hp c hc])]

/-- **Every character that a delimiter does not take for white space stands in a cell.** -/
theorem countP_cut {δ : Delimiter} {p : Char → Bool} (hp : ∀ c, δ.idle c = true → p c = false) (text : List Char) :
    (δ.cut text).flatten.countP p = text.countP p := by
  cases δ with
  | tab => exact countP_textFields hp text
  | blanks => exact countP_words hp text

/-- A text has one field more than it has tabs. -/
theorem length_textFields (text : List Char) : (textFields text).length = text.count '\t' + 1 := by
  unfold textFields
  rw [List.length_map, Text.length_splitWith]

/-! ## White space at the ends -/

/-- The white space that a delimiter takes away at the ends of a text without a trace. -/
def Delimiter.pads : Delimiter → Char → Bool
  | .tab, c => isAsciiBlank c && c != '\t'
  | .blanks, c => Text.isBlank c

theorem idle_of_pads {δ : Delimiter} {c : Char} (h : δ.pads c = true) : δ.idle c = true := by
  cases δ with
  | tab => exact (Bool.and_eq_true_iff.mp h).1
  | blanks => exact h

theorem isBlank_of_idle {δ : Delimiter} {c : Char} (h : δ.idle c = true) : Text.isBlank c = true := by
  cases δ with
  | tab => exact isBlank_of_isAsciiBlank h
  | blanks => exact h

theorem textFields_append_pads {left right : List Char} (hl : ∀ c ∈ left, Delimiter.tab.pads c = true)
    (hr : ∀ c ∈ right, Delimiter.tab.pads c = true) (text : List Char) :
    textFields (left ++ text ++ right) = textFields text := by
  have hblank : ∀ {s : List Char}, (∀ c ∈ s, Delimiter.tab.pads c = true) → ∀ c ∈ s, isAsciiBlank c = true :=
    fun h c hc => @idle_of_pads .tab c (h c hc)
  have hnotab : ∀ {s : List Char}, (∀ c ∈ s, Delimiter.tab.pads c = true) → ∀ c ∈ s, (c == '\t') = false := by
    intro s h c hc
    have hpads := h c hc
    simp only [Delimiter.pads, Bool.and_eq_true, bne_iff_ne] at hpads
    simpa using hpads.2
  unfold textFields
  -- the white space in front belongs to the first field, and to none after it
  induction text using Text.splitInduction (· == '\t') generalizing left with
  | last piece h =>
    have hall : ∀ c ∈ left ++ piece ++ right, (c == '\t') = false := by
      simp only [List.forall_mem_append]
      exact ⟨⟨hnotab hl, h⟩, hnotab hr⟩
    rw [Text.splitWith_of_forall_not hall, Text.splitWith_of_forall_not h, List.map_singleton, List.map_singleton,
      Text.trimWith_append_marks (hblank hl) (hblank hr)]
  | mark piece c rest h hc ih =>
    have hall : ∀ d ∈ left ++ piece, (d == '\t') = false := by
      simp only [List.forall_mem_append]
      exact ⟨hnotab hl, h⟩
    have hrest := @ih [] (by simp)
    have hnone : ∀ d ∈ ([] : List Char), isAsciiBlank d = true := by simp
    have hfront := Text.trimWith_append_marks (hblank hl) hnone piece
    rw [List.append_nil] at hfront
    rw [← List.append_assoc, List.append_assoc _ (c :: rest), List.cons_append, Text.splitWith_piece_mark hall hc,
      Text.splitWith_piece_mark h hc, List.map_cons, List.map_cons, hfront]
    rw [List.nil_append] at hrest
    rw [hrest]

/-- **White space at the ends of a text changes no cell.** -/
theorem cut_append_pads {δ : Delimiter} {left right : List Char} (hl : ∀ c ∈ left, δ.pads c = true)
    (hr : ∀ c ∈ right, δ.pads c = true) (text : List Char) : δ.cut (left ++ text ++ right) = δ.cut text := by
  cases δ with
  | tab => exact textFields_append_pads hl hr text
  | blanks => exact (Text.words_append_blanks hr _).trans (Text.words_blanks_append hl text)

end LatencyReport
