import LatencyReport.Proofs.Json.Values

/-!
# `Proofs.Json.Integers` — the numerals that are integers

A natural number has one decimal form, and **digits without a zero in front are the decimal form of their value**
(`digitsOf_valueOf`). So an integer can be told by its text alone: a numeral is read as an integer exactly if it is the
decimal form of one that has 64 bits (`ofNumeral?_eq_int_iff`). A point, a power of ten, or a digit too many makes it
another number, also where the value is whole.

A text that is a numeral and nothing else is read as that numeral (`parse?_numeral`), and a text between marks as the
string of its characters (`parse?_quoted`).

## Contents

* `toDigits_ofDigitChars_of_pos`, `digitsOf_valueOf` — digits and their value;
* `ofUnsigned?_eq_int`, `ofNumeral?_eq_int_iff` — numerals that are integers;
* `parse?_numeral`, `parse?_quoted` — whole texts.
-/

namespace LatencyReport

/-! ## Digits and their value -/

namespace Decimal

theorem isDigit_eq (c : Char) : isDigit c = c.isDigit := by
  rw [isDigit, Text.digitValue?_eq]
  cases c.isDigit <;> rfl

/-- A digit has a value below ten, and is the character of that value. -/
theorem digitChar_sub {c : Char} (h : c.isDigit = true) :
    c.toNat - '0'.toNat < 10 ∧ Nat.digitChar (c.toNat - '0'.toNat) = c := by
  obtain ⟨hlow, hhigh⟩ : 48 ≤ c.toNat ∧ c.toNat ≤ 57 := Char.isDigit_iff_toNat.mp h
  have hlt : c.toNat - 48 < 10 := by omega
  refine ⟨hlt, Char.toNat_inj.mp ?_⟩
  show (Nat.digitChar (c.toNat - 48)).toNat = c.toNat
  rw [Nat.toNat_digitChar_of_lt_ten hlt]
  omega

/-- Digits behind a number that is not zero are written behind its decimal form. -/
theorem toDigits_ofDigitChars_of_pos {digits : List Char} (hdigits : ∀ c ∈ digits, c.isDigit = true) {value : ℕ}
    (hvalue : 0 < value) : Nat.toDigits 10 (Nat.ofDigitChars 10 digits value) = Nat.toDigits 10 value ++ digits := by
  induction digits generalizing value with
  | nil => rw [Nat.ofDigitChars_nil, List.append_nil]
  | cons c rest ih =>
    obtain ⟨hdigit, hrest⟩ := List.forall_mem_cons.mp hdigits
    obtain ⟨hlt, hchar⟩ := digitChar_sub hdigit
    have hfirst := Nat.toDigits_append_toDigits (by decide : 1 < 10) hvalue hlt
    rw [Nat.toDigits_of_lt_base hlt, hchar] at hfirst
    rw [Nat.ofDigitChars_cons, ih hrest (by omega), ← hfirst, List.append_assoc, List.singleton_append]

/-- **Digits without a zero in front are the decimal form of their value.** -/
theorem digitsOf_valueOf {digits : List Char} (hne : digits ≠ []) (hdigits : ∀ c ∈ digits, isDigit c = true)
    (hzero : digits.length ≠ 1 → digits.head? ≠ some '0') : digitsOf (valueOf digits) = digits := by
  have hchars : ∀ c ∈ digits, c.isDigit = true := fun c hc => isDigit_eq c ▸ hdigits c hc
  rw [valueOf_eq hdigits, digitsOf]
  obtain ⟨c, rest, rfl⟩ := List.exists_cons_of_ne_nil hne
  obtain ⟨hdigit, hrest⟩ := List.forall_mem_cons.mp hchars
  obtain ⟨hlt, hchar⟩ := digitChar_sub hdigit
  rw [Nat.ofDigitChars_cons, Nat.mul_zero, Nat.zero_add]
  by_cases hpos : 0 < c.toNat - '0'.toNat
  · rw [toDigits_ofDigitChars_of_pos hrest hpos, Nat.toDigits_of_lt_base hlt, hchar, List.singleton_append]
  · -- a zero in front stands alone
    have hc : c = '0' := by
      rw [← hchar, Nat.eq_zero_of_not_pos hpos]
      rfl
    have hrest : rest = [] := by
      by_contra hmore
      refine hzero ?_ (congrArg some hc)
      rw [List.length_cons]
      simpa using hmore
    subst hc hrest
    rfl

end Decimal

namespace Json

open Decimal (digitsOf)

/-! ## Numerals that are integers -/

/-- A numeral that is all digits and passes the check of the reader is the decimal form of its value. -/
theorem eq_digitsOf_of_check {s : List Char} (hend : (s.dropWhile Decimal.isDigit).isEmpty = true)
    (hcheck : ¬((s.takeWhile Decimal.isDigit).isEmpty ||
      (s.takeWhile Decimal.isDigit).length != 1 && (s.takeWhile Decimal.isDigit).head? == some '0') = true) :
    s = digitsOf (Decimal.valueOf (s.takeWhile Decimal.isDigit)) := by
  have hall : s.takeWhile Decimal.isDigit = s := by
    rw [List.takeWhile_eq_self_iff, ← List.dropWhile_eq_nil_iff]
    exact List.isEmpty_iff.mp hend
  rw [Bool.not_eq_true, Bool.or_eq_false_iff, Bool.and_eq_false_iff, List.isEmpty_eq_false_iff, bne_eq_false_iff_eq,
    beq_eq_false_iff_ne, hall] at hcheck
  rw [hall, Decimal.digitsOf_valueOf hcheck.1 (List.takeWhile_eq_self_iff.mp hall) hcheck.2.resolve_left]

/-- **A numeral without its sign is an integer if it is the decimal form of one** that has 64 bits with the sign. -/
theorem ofUnsigned?_eq_int {negative : Bool} {s : List Char} {n : ℤ} (h : ofUnsigned? negative s = some (.int n)) :
    s = digitsOf n.natAbs ∧ -2 ^ 63 ≤ n ∧ n < 2 ^ 64 ∧ negative = decide (n < 0) := by
  unfold ofUnsigned? at h
  simp only at h
  split at h
  · cases h
  rename_i hcheck
  split at h
  · rename_i hwhole
    simp only [Bool.and_eq_true, decide_eq_true_eq, Bool.not_eq_true'] at hwhole
    obtain ⟨⟨hend, hsign⟩, hfits⟩ := hwhole
    obtain rfl := Json.int.inj (Option.some.inj h)
    have hlt : Decimal.valueOf (s.takeWhile Decimal.isDigit) < 2 ^ 64 := hfits
    refine ⟨eq_digitsOf_of_check hend hcheck, by omega, by omega, ?_⟩
    rw [hsign, eq_comm, decide_eq_false_iff_not]
    omega
  split at h
  · rename_i hwhole
    simp only [Bool.and_eq_true, decide_eq_true_eq] at hwhole
    obtain ⟨⟨⟨hend, hsign⟩, hpos⟩, hfits⟩ := hwhole
    obtain rfl := Json.int.inj (Option.some.inj h)
    have hle : Decimal.valueOf (s.takeWhile Decimal.isDigit) ≤ 2 ^ 63 := hfits
    refine ⟨?_, by omega, by omega, ?_⟩
    · rw [Int.natAbs_neg, Int.natAbs_natCast]
      exact eq_digitsOf_of_check hend hcheck
    · rw [hsign, eq_comm, decide_eq_true_eq]
      omega
  -- with a fraction, with a power, or with more bits it is another number
  · split at h
    · cases h
    · split at h
      · cases h
      · split at h <;> cases h

/-- **A numeral is an integer exactly if it is the decimal form of one that has 64 bits.** -/
theorem ofNumeral?_eq_int_iff {s : List Char} {n : ℤ} :
    ofNumeral? s = some (.int n) ↔ s = (toString n).toList ∧ -2 ^ 63 ≤ n ∧ n < 2 ^ 64 := by
  constructor
  · intro h
    rw [toList_toString]
    unfold ofNumeral? at h
    split at h
    · obtain ⟨hs, hlow, hhigh, hsign⟩ := ofUnsigned?_eq_int h
      rw [← hsign, if_pos rfl, ← hs]
      exact ⟨rfl, hlow, hhigh⟩
    · obtain ⟨hs, hlow, hhigh, hsign⟩ := ofUnsigned?_eq_int h
      rw [← hsign, if_neg Bool.false_ne_true]
      exact ⟨hs, hlow, hhigh⟩
  · rintro ⟨rfl, hlow, hhigh⟩
    exact (spells_int hlow hhigh).ofNumeral?_eq

/-- A numeral is an integer or another number. -/
theorem ofNumeral?_int_or_float {s : List Char} {value : Json} (h : ofNumeral? s = some value) :
    (∃ n, value = .int n) ∨ ∃ x, value = .float x := by
  have hunsigned : ∀ {negative digits}, ofUnsigned? negative digits = some value →
      (∃ n, value = .int n) ∨ ∃ x, value = .float x := by
    intro negative digits h
    unfold ofUnsigned? at h
    simp only at h
    split at h
    · cases h
    split at h
    · exact Or.inl ⟨_, (Option.some.inj h).symm⟩
    split at h
    · exact Or.inl ⟨_, (Option.some.inj h).symm⟩
    split at h
    · cases h
    split at h
    · cases h
    split at h
    · exact Or.inr ⟨_, (Option.some.inj h).symm⟩
    · cases h
  unfold ofNumeral? at h
  split at h <;> exact hunsigned h

/-- Every integer is written with the characters of numerals. -/
theorem isNumeralChar_of_mem_toString {n : ℤ} {c : Char} (hc : c ∈ (toString n).toList) : isNumeralChar c = true := by
  have hdigits : c ∈ digitsOf n.natAbs → isNumeralChar c = true := by
    intro hc
    rw [isNumeralChar_eq, Decimal.isNumeralChar_of_isDigit ((Decimal.digitsOf_spec _).2.1 c hc)]
  rw [toList_toString] at hc
  split_ifs at hc
  · rcases List.mem_cons.mp hc with rfl | hc
    · rfl
    · exact hdigits hc
  · exact hdigits hc

/-! ## Whole texts -/

/-- The text between marks. -/
def quoted (s : String) : String :=
  String.ofList ('\x22' :: s.toList ++ ['\x22'])

/-- A numeral and nothing else, as a value in front of nothing. -/
theorem readValue?_numeralChars {s : List Char} (hne : s ≠ []) (hs : ∀ c ∈ s, isNumeralChar c = true) (nesting : ℕ) :
    readValue? (nesting + 1) s = (ofNumeral? s).map fun value => (value, []) := by
  obtain ⟨htake, hdrop⟩ := @Decimal.span_append _ _ [] hs nofun
  rw [List.append_nil] at htake hdrop
  have hother : ∀ c more, isNumeralChar c = false → s ≠ c :: more := by
    rintro c more hc rfl
    exact absurd (hs c List.mem_cons_self) (by rw [hc]; decide)
  -- no other value begins with a character of a number
  rw [readValue?]
  · rw [htake, hdrop]
  all_goals
    intros
    exact hother _ _ rfl ‹_›

/-- **A text of the characters of numerals is read as a numeral.** -/
theorem parse?_numeral {s : List Char} (hne : s ≠ []) (hs : ∀ c ∈ s, isNumeralChar c = true) :
    parse? (String.ofList s) = ofNumeral? s := by
  have hstart : skipBlank s = s := by
    obtain ⟨first, others, rfl⟩ := List.exists_cons_of_ne_nil hne
    have hfirst := fun c => @ne_of_isNumeralChar first c (hs first List.mem_cons_self)
    exact skipBlank_cons ⟨hfirst _ rfl, hfirst _ rfl, hfirst _ rfl, hfirst _ rfl⟩ others
  unfold parse?
  simp only [String.toList_ofList, hstart, readValue?_numeralChars hne hs]
  cases ofNumeral? s <;> rfl

/-- No character of a numeral has to be escaped. -/
theorem escapeChar_of_isNumeralChar {c : Char} (h : isNumeralChar c = true) : escapeChar c = [c] := by
  have hne := fun other => @ne_of_isNumeralChar c other h
  have hprinted : ¬c.toNat < 0x20 := by
    intro hcontrol
    have hnumeral : ∀ n < 0x20, isNumeralChar (Char.ofNat n) = false := by decide
    rw [← Char.ofNat_toNat c, hnumeral c.toNat hcontrol] at h
    cases h
  unfold escapeChar
  split
  -- the characters that have a letter of their own are none of a numeral
  iterate 7 exact absurd rfl (hne _ rfl)
  exact if_neg hprinted

/-- **A numeral between marks is read as the string of its characters.** -/
theorem parse?_quoted {s : String} (hs : ∀ c ∈ s.toList, isNumeralChar c = true) :
    parse? (quoted s) = some (.str s) := by
  have hplain : ∀ c ∈ s.toList, escapeChar c = [c] := fun c hc => escapeChar_of_isNumeralChar (hs c hc)
  have htext : compact (.str s) = quoted s := by
    rw [compact, put, putString, List.flatMap_congr hplain, List.flatMap_singleton', quoted]
  rw [← htext]
  exact parse?_compact (by simp [IsReadable])

end Json

end LatencyReport
