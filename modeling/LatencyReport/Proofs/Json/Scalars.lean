import LatencyReport.Json.Reader
import LatencyReport.Json.Writer
import LatencyReport.Proofs.Decimal.Layout

/-!
# `Proofs.Json.Scalars` — strings and numbers read back

A string is read **character by character**: what one character was escaped to is read as the character, whatever stands
behind it (`readString?_escapeChar`). That is no matter of course for a code, since two codes can be one character; the
codes of controls are never halves of one.

A number is read as what its text looks like. An integer has digits only, and another number has a point or a power of
ten, so **neither is taken for the other** (`spells_int`, `spells_finite`).

## Contents

* `readString?_escapeChar`, `readString?_flatMap_escapeChar` — strings;
* `Spells` — the text of a number; `spells_int`, `spells_finite` — what is written of a number spells it.
-/

namespace LatencyReport.Json

open Decimal (Parts digitsOf)

/-! ## Strings -/

/-- A backslash and a letter are the character that the letter stands for. -/
theorem readString?_letter {letter c : Char} (hletter : letter ≠ 'u') (hc : unescape? letter = some c)
    (rest : List Char) :
    readString? ('\\' :: letter :: rest) = (readString? rest).map fun (text, ending) => (c :: text, ending) := by
  rw [readString?, hc]
  · cases readString? rest <;> rfl
  all_goals simp [hletter]

/-- A code that is no half of a pair is its character, also in front of another code. -/
theorem readString?_code {a b c d : Char} {n : ℕ} (hcode : hexValues? a b c d = some n) (hn : n < 0xD800)
    (rest : List Char) :
    readString? ('\\' :: 'u' :: a :: b :: c :: d :: rest) =
      (readString? rest).map fun (text, ending) => (Char.ofNat n :: text, ending) := by
  have hhigh : (decide (0xD800 ≤ n) && decide (n < 0xDC00)) = false := by
    rw [decide_eq_false (by omega), Bool.false_and]
  have hlow : (decide (0xDC00 ≤ n) && decide (n < 0xE000)) = false := by
    rw [decide_eq_false (by omega), Bool.false_and]
  have hpair : (decide (0xD800 ≤ n) && decide (n < 0xE000)) = false := by
    rw [decide_eq_false (by omega), Bool.false_and]
  -- where another code follows, the reader looks at both of them before it turns to the second one
  by_cases hnext : ∃ e f g h more, rest = '\\' :: 'u' :: e :: f :: g :: h :: more
  · obtain ⟨e, f, g, h, more, rfl⟩ := hnext
    rw [readString?, hcode]
    simp only [Option.bind_eq_bind, Option.bind_some, hhigh, hlow]
    cases readString? ('\\' :: 'u' :: e :: f :: g :: h :: more) <;> rfl
  · rw [readString?, hcode]
    · simp only [Option.bind_eq_bind, Option.bind_some, hpair]
      cases readString? rest <;> rfl
    · rintro e f g h more rfl
      exact hnext ⟨e, f, g, h, more, rfl⟩

/-- Every other character is itself, unless it is a control. -/
theorem readString?_plain {c : Char} (hmark : c ≠ '\x22') (hslash : c ≠ '\\') (hc : 0x20 ≤ c.toNat)
    (rest : List Char) :
    readString? (c :: rest) = (readString? rest).map fun (text, ending) => (c :: text, ending) := by
  rw [readString?, if_neg (by omega)]
  · cases readString? rest <;> rfl
  all_goals simp_all

theorem hexValues?_control :
    ∀ n < 0x20, hexValues? '0' '0' (Nat.digitChar (n / 16)) (Nat.digitChar (n % 16)) = some n := by
  decide

/-- **An escaped character is read as the character.** -/
theorem readString?_escapeChar (c : Char) (rest : List Char) :
    readString? (escapeChar c ++ rest) = (readString? rest).map fun (text, ending) => (c :: text, ending) := by
  unfold escapeChar
  split
  -- the seven characters that have a letter of their own
  iterate 7 exact readString?_letter (by decide) rfl rest
  rename_i hmark hslash _ _ _ _ _
  split_ifs with hcontrol
  · have hcode := hexValues?_control c.toNat hcontrol
    have hread := readString?_code hcode (by omega) rest
    rwa [Char.ofNat_toNat] at hread
  · exact readString?_plain hmark hslash (by omega) rest

/-- **A string is read as the characters that were escaped**, and what stands behind its mark is left. -/
theorem readString?_flatMap_escapeChar (s rest : List Char) :
    readString? (s.flatMap escapeChar ++ '\x22' :: rest) = some (s, rest) := by
  induction s with
  | nil => rw [List.flatMap_nil, List.nil_append, readString?]
  | cons c s ih => rw [List.flatMap_cons, List.append_assoc, readString?_escapeChar, ih, Option.map_some]

/-! ## Numbers -/

/-- The characters of numerals are those of decimal texts. -/
theorem isNumeralChar_eq (c : Char) : isNumeralChar c = Decimal.isNumeralChar c := by
  unfold isNumeralChar Decimal.isNumeralChar
  simp only [← Bool.beq_eq_decide_eq]
  rw [Bool.or_right_comm (Decimal.isDigit c)]

/-- A text spells a number if it has no other characters than those of numerals, and is read as the number. -/
structure Spells (text : List Char) (value : Json) : Prop where
  ne_nil : text ≠ []
  isNumeralChar : ∀ c ∈ text, isNumeralChar c = true
  ofNumeral?_eq : ofNumeral? text = some value

theorem Spells.exists_cons {text : List Char} {value : Json} (h : Spells text value) :
    ∃ c others, text = c :: others ∧ Json.isNumeralChar c = true := by
  obtain ⟨c, others, htext⟩ := List.exists_cons_of_ne_nil h.ne_nil
  exact ⟨c, others, htext, h.isNumeralChar c (htext ▸ List.mem_cons_self)⟩

/-- A sign in front is taken off. -/
theorem ofNumeral?_signed {s : List Char} (h : s.head? ≠ some '-') (negative : Bool) :
    ofNumeral? (if negative then '-' :: s else s) = ofUnsigned? negative s := by
  cases negative with
  | true => rfl
  | false =>
    rw [if_neg Bool.false_ne_true, ofNumeral?]
    rintro rest rfl
    exact h rfl

theorem head?_append_ne_minus {digits : List Char} (hne : digits ≠ []) (h : ∀ c ∈ digits, Decimal.isDigit c = true)
    (rest : List Char) : (digits ++ rest).head? ≠ some '-' := by
  obtain ⟨c, others, rfl⟩ := List.exists_cons_of_ne_nil hne
  intro hc
  obtain rfl : c = '-' := Option.some.inj hc
  exact absurd (h '-' List.mem_cons_self) (by decide)

/-- Digits pass the check of the reader if no zero that does not count stands in front. -/
theorem digits_check {digits : List Char} (hne : digits ≠ []) (hzeros : digits.length ≠ 1 → digits.head? ≠ some '0') :
    (digits.isEmpty || (digits.length != 1 && digits.head? == some '0')) = false := by
  rw [Bool.or_eq_false_iff, List.isEmpty_eq_false_iff, Bool.and_eq_false_iff, bne_eq_false_iff_eq, beq_eq_false_iff_ne]
  exact ⟨hne, (em (digits.length = 1)).imp_right hzeros⟩

/-- **Digits alone are an integer**, as long as it has 64 bits. -/
theorem ofUnsigned?_digitsOf {negative : Bool} {n : ℕ}
    (h : if negative then 0 < n ∧ n ≤ 2 ^ 63 else n < 2 ^ 64) :
    ofUnsigned? negative (digitsOf n) = some (.int (if negative then -n else n)) := by
  obtain ⟨hne, hdigits, hvalue⟩ := Decimal.digitsOf_spec n
  obtain ⟨hwhole, hrest⟩ := @Decimal.span_append _ _ [] hdigits nofun
  rw [List.append_nil] at hwhole hrest
  have hzeros : (digitsOf n).length ≠ 1 → (digitsOf n).head? ≠ some '0' := fun hlong => Decimal.head?_digitsOf <| by
    rintro rfl
    exact hlong rfl
  unfold ofUnsigned?
  simp only [hwhole, hrest, hvalue, digits_check hne hzeros]
  cases negative with
  | false =>
    have hsize : n < UInt64.size := h
    simp [hsize]
  | true =>
    obtain ⟨hpos, hle⟩ : 0 < n ∧ n ≤ Nat.pow 2 63 := h
    simp [hpos, hle]

/-- An integer is written with its sign and its digits. -/
theorem toList_toString (n : ℤ) :
    (toString n).toList = if decide (n < 0) then '-' :: digitsOf n.natAbs else digitsOf n.natAbs := by
  cases n with
  | ofNat n => exact Nat.toList_repr
  | negSucc n =>
    show ("-" ++ Nat.repr (n + 1)).toList = _
    rw [String.toList_append, Nat.toList_repr, if_pos (decide_eq_true (Int.negSucc_lt_zero n))]
    rfl

theorem toList_toString_ne_nil (n : ℤ) : (toString n).toList ≠ [] := by
  rw [toList_toString]
  split_ifs
  · exact List.cons_ne_nil _ _
  · exact (Decimal.digitsOf_spec _).1

/-- **What is written of an integer spells it.** -/
theorem spells_int {n : ℤ} (hlow : -2 ^ 63 ≤ n) (hhigh : n < 2 ^ 64) : Spells (toString n).toList (.int n) := by
  obtain ⟨hne, hdigits, -⟩ := Decimal.digitsOf_spec n.natAbs
  have hchars : ∀ c ∈ digitsOf n.natAbs, isNumeralChar c = true := fun c hc => by
    rw [isNumeralChar_eq, Decimal.isNumeralChar_of_isDigit (hdigits c hc)]
  have hhead := head?_append_ne_minus hne hdigits []
  rw [List.append_nil] at hhead
  refine ⟨toList_toString_ne_nil n, ?_, ?_⟩
  · rw [toList_toString]
    split_ifs
    · exact List.forall_mem_cons.mpr ⟨rfl, hchars⟩
    · exact hchars
  · rw [toList_toString, ofNumeral?_signed hhead, ofUnsigned?_digitsOf]
    · congr 2
      simp only [decide_eq_true_eq]
      omega
    · simp only [decide_eq_true_eq]
      split_ifs
      · omega
      · omega

/-- **A numeral with a fraction or a power is no integer**, but the number that it is read as. -/
theorem ofUnsigned?_text {p : Parts} (hp : p.IsNumber) {negative : Bool} {x : Float} (hx : x.isFinite = true)
    (hread : Decimal.Numeral.toFloat ⟨negative, p.decimal⟩ = x) : ofUnsigned? negative p.text = some (.float x) := by
  obtain ⟨hwhole, hbehind⟩ := p.span_text
  obtain ⟨hfraction, hending⟩ := Decimal.span_append p.isDigit_fraction p.not_isDigit_ending
  unfold ofUnsigned?
  simp only [hwhole, hbehind, digits_check p.whole_ne_nil hp.no_zeros]
  by_cases hnone : p.fraction = []
  · -- without a fraction there is a power, so the text does not end behind the digits
    have hne := hp.not_integer hnone
    obtain ⟨rest, hletter⟩ := p.ending_eq.resolve_left hne
    have hpower := p.readPower?_ending
    rw [hletter] at hpower
    rw [Parts.decimal, hnone, List.append_nil, List.length_nil, Nat.cast_zero, sub_zero] at hread
    simp [hnone, hletter, hpower, hread, hx]
  · rw [Parts.decimal] at hread
    simp [hnone, hfraction, hending, p.readPower?_ending, hread, hx]

/-- **What is written of a finite number spells it.** -/
theorem spells_finite {x : Float} (hx : x.isFinite = true) : Spells (Decimal.Layout.json.finite x) (.float x) := by
  obtain ⟨p, htext, hread, hnumber⟩ := Decimal.exists_parts_finite .json hx
  obtain ⟨n, hnumeral, -⟩ := Decimal.readNumeral?_finite .json hx
  refine ⟨?_, fun c hc => ?_, ?_⟩
  · intro hnil
    rw [hnil] at hnumeral
    cases hnumeral
  · rw [isNumeralChar_eq, Decimal.isNumeralChar_of_readNumeral? hnumeral hc]
  · have hhead : p.text.head? ≠ some '-' := head?_append_ne_minus p.whole_ne_nil p.isDigit_whole _
    rw [htext, ofNumeral?_signed hhead, ofUnsigned?_text hnumber hx hread]

end LatencyReport.Json
