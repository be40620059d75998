import LatencyReport.Decimal.Reader
import LatencyReport.Text.Blank
import Mathlib.Data.List.TakeWhile

/-!
# `Proofs.Decimal.Reader` — the characters of a decimal text

The grammar of decimal texts has **five characters beside the digits**: the signs, the point and the letter E. A text
that is read as a number holds no other one, so no white space and no control character stands in it.

## Contents

* `isNumeralChar`, `isNumeralChar_of_readNumeral?` — the characters;
* `not_isBlank_of_isNumeralChar` — none of them is white space.
-/

namespace LatencyReport.Decimal

/-- The characters of decimal texts. -/
def isNumeralChar (c : Char) : Bool :=
  isDigit c || c == '+' || c == '-' || c == '.' || c == 'e' || c == 'E'

theorem isNumeralChar_of_isDigit {c : Char} (h : isDigit c = true) : isNumeralChar c = true := by
  simp [isNumeralChar, h]

theorem isNumeralChar_of_mem_takeWhile {s : List Char} {c : Char} (h : c ∈ s.takeWhile isDigit) :
    isNumeralChar c = true :=
  isNumeralChar_of_isDigit (List.mem_takeWhile_imp h)

theorem mem_splitSign {s : List Char} {c : Char} (h : c ∈ s) : isNumeralChar c = true ∨ c ∈ (splitSign s).2 := by
  unfold splitSign
  split
  · rcases List.mem_cons.mp h with rfl | h
    · exact Or.inl rfl
    · exact Or.inr h
  · rcases List.mem_cons.mp h with rfl | h
    · exact Or.inl rfl
    · exact Or.inr h
  · exact Or.inr h

/-- A power of ten is written with an E, a sign and digits. -/
theorem isNumeralChar_of_mem_power {s : List Char} {power : Int} (h : readPower? s = some power) {c : Char}
    (hc : c ∈ s) : isNumeralChar c = true := by
  cases s with
  | nil => cases hc
  | cons e rest =>
    rw [readPower?] at h
    by_cases he : (e = 'e' || e = 'E') = true
    · rw [if_pos he] at h
      by_cases hdigits : ((splitSign rest).2.isEmpty || !(splitSign rest).2.all isDigit) = true
      · simp [hdigits] at h
      · simp only [Bool.or_eq_true, Bool.not_eq_true', not_or, Bool.not_eq_true, Bool.not_eq_false] at hdigits
        rcases List.mem_cons.mp hc with rfl | hc
        · simp only [Bool.or_eq_true, decide_eq_true_eq] at he
          rcases he with rfl | rfl <;> rfl
        · rcases mem_splitSign hc with hsign | hmem
          · exact hsign
          · exact isNumeralChar_of_isDigit (List.all_eq_true.mp hdigits.2 c hmem)
    · rw [if_neg he] at h
      cases h

/-- **A decimal text has no other characters** than digits, signs, a point and an E. -/
theorem isNumeralChar_of_readNumeral? {s : List Char} {n : Numeral} (h : readNumeral? s = some n) {c : Char}
    (hc : c ∈ s) : isNumeralChar c = true := by
  rcases mem_splitSign hc with hsign | hc
  · exact hsign
  unfold readNumeral? at h
  simp only at h
  generalize (splitSign s).2 = unsigned at h hc
  rw [← List.takeWhile_append_dropWhile (p := isDigit) (l := unsigned)] at hc
  rcases List.mem_append.mp hc with hwhole | hafter
  · exact isNumeralChar_of_mem_takeWhile hwhole
  -- behind the digits there may be a point with digits, and then a power
  generalize unsigned.dropWhile isDigit = after at h hafter
  have hending : ∀ {whole fraction ending : List Char} {f : Int → Numeral},
      (if (whole.isEmpty && fraction.isEmpty) = true then none else (readPower? ending).map f) = some n →
        c ∈ ending → isNumeralChar c = true := by
    intro whole fraction ending f hsome hmem
    split at hsome
    · cases hsome
    · obtain ⟨power, hpower, _⟩ := Option.map_eq_some_iff.mp hsome
      exact isNumeralChar_of_mem_power hpower hmem
  split at h
  · rename_i rest
    rcases List.mem_cons.mp hafter with rfl | hrest
    · rfl
    · rw [← List.takeWhile_append_dropWhile (p := isDigit) (l := rest)] at hrest
      rcases List.mem_append.mp hrest with hfraction | hpower
      · exact isNumeralChar_of_mem_takeWhile hfraction
      · exact hending h hpower
  · exact hending h hafter

theorem not_isBlank_of_isNumeralChar {c : Char} (h : isNumeralChar c = true) : Text.isBlank c = false := by
  simp only [isNumeralChar, Bool.or_eq_true, beq_iff_eq] at h
  rcases h with ((((h | rfl) | rfl) | rfl) | rfl) | rfl
  · unfold isDigit Text.digitValue? at h
    split at h
    · rename_i hrange
      simp only [Bool.and_eq_true, decide_eq_true_eq, Char.le_def, UInt32.le_iff_toNat_le] at hrange
      have hlow : 48 ≤ c.toNat := hrange.1
      have hhigh : c.toNat ≤ 57 := hrange.2
      simp only [Text.isBlank, Text.inRanges, Text.blankRanges, List.any_cons, List.any_nil, Bool.or_false,
        Bool.or_eq_false_iff, Bool.and_eq_false_iff, decide_eq_false_iff_not]
      omega
    · cases h
  all_goals decide

end LatencyReport.Decimal
