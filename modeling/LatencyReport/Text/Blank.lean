import LatencyReport.Text.Split

/-!
# `Text.Blank` — white space, and the words between it

White space is the **Unicode property of that name**: 25 characters, among them the no-break spaces and
the two separators of line and paragraph, but not the zero-width ones. Bytes have a white space of their
own, the five ASCII characters that separate words in every program, and it is *not* the restriction of the
first to ASCII: the vertical tab belongs to the one and not to the other.

## Contents

* `isBlank` — the property on characters; `trim` and `words` cut by it;
* `isBlankByte` — the five bytes; `trimBytes` cuts by them.
-/

namespace LatencyReport.Text

/-- The ranges of the property `White_Space`, as code points. -/
def blankRanges : List (Nat × Nat) :=
  [(0x09, 0x0D), (0x20, 0x20), (0x85, 0x85), (0xA0, 0xA0), (0x1680, 0x1680), (0x2000, 0x200A),
   (0x2028, 0x2029), (0x202F, 0x202F), (0x205F, 0x205F), (0x3000, 0x3000)]

/-- Whether a code point lies in one of the ranges, both ends included. -/
def inRanges (ranges : List (Nat × Nat)) (code : Nat) : Bool :=
  ranges.any fun range => range.1 ≤ code && code ≤ range.2

/-- White space among the characters. -/
def isBlank (c : Char) : Bool :=
  inRanges blankRanges c.toNat

/-- White space among the bytes: tab, line feed, form feed, carriage return and space. -/
def isBlankByte (b : UInt8) : Bool :=
  b == 0x20 || b == 0x09 || b == 0x0A || b == 0x0C || b == 0x0D

/-- The text without white space at its ends. -/
def trim (s : List Char) : List Char :=
  trimWith isBlank s

/-- The runs of characters between white space, none of them empty. -/
def words (s : List Char) : List (List Char) :=
  (splitWith isBlank s).filter fun word => !word.isEmpty

/-- The bytes without ASCII white space at their ends. -/
def trimBytes (s : List UInt8) : List UInt8 :=
  trimWith isBlankByte s

@[simp] theorem words_nil : words [] = [] := rfl

/-- White space ends a word, and the words after it do not depend on those before it. -/
theorem words_append_blank {c : Char} (h : isBlank c = true) (s t : List Char) :
    words (s ++ c :: t) = words s ++ words t := by
  simp [words, splitWith_append_mark h]

/-- A text without white space is one word, unless it is empty. -/
theorem words_of_forall_not {s : List Char} (hs : s ≠ []) (h : ∀ c ∈ s, isBlank c = false) : words s = [s] := by
  simp [words, splitWith_of_forall_not h, hs]

/-- A word has a character, and none of its characters is white space. -/
theorem ne_nil_and_not_isBlank_of_mem_words {s word : List Char} (h : word ∈ words s) :
    word ≠ [] ∧ ∀ c ∈ word, isBlank c = false := by
  obtain ⟨hw, hne⟩ := List.mem_filter.mp h
  exact ⟨by simpa using hne, not_isMark_of_mem_splitWith hw⟩

end LatencyReport.Text
