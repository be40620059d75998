import LatencyReport.Decimal.Layout
import LatencyReport.Proofs.Decimal.Reader
import LatencyReport.Proofs.Decimal.Shortest
import LatencyReport.Proofs.Text.Numeral

/-!
# `Proofs.Decimal.Layout` — laid-out numbers read back

Wherever the point stands, what is laid out is a **numeral**: digits, a point with digits behind it or none, and a power
of ten or none (`exists_parts`). A numeral is read as the decimal that it says (`Parts.readNumeral?_eq`), and that has
the value of the one that was laid out, though zeros may have come to its digits. So a finite number is read back from
its text, sign and all (`readNumeral?_finite`).

## Contents

* `valueOf_eq`, `digitsOf_spec`, `head?_digitsOf` — digits;
* `Parts`, `Parts.text`, `Parts.readNumeral?_eq` — numerals, and how they are read;
* `readPower?_power`, `Parts.cut`, `exists_parts` — what is laid out is a numeral;
* `exists_parts_finite`, `readNumeral?_finite` — numbers.
-/

namespace LatencyReport.Decimal

/-! ## Digits -/

/-- The value of digits, as the core library has it. -/
theorem valueOf_eq {digits : List Char} (h : ∀ c ∈ digits, isDigit c = true) :
    valueOf digits = Nat.ofDigitChars 10 digits 0 := by
  have hrun : ∀ start, digits.foldl (fun value c => 10 * value + (Text.digitValue? c).getD 0) start =
      Nat.ofDigitChars 10 digits start := by
    induction digits with
    | nil => exact fun _ => rfl
    | cons c rest ih =>
      intro start
      rw [List.forall_mem_cons] at h
      obtain ⟨d, hd⟩ := Option.isSome_iff_exists.mp h.1
      have hvalue : d = c.toNat - '0'.toNat := by
        unfold Text.digitValue? at hd
        split at hd
        · exact (Option.some.inj hd).symm
        · cases hd
      rw [List.foldl_cons, Nat.ofDigitChars_cons, ih h.2, hd, Option.getD_some, hvalue]
  exact hrun 0

theorem valueOf_append {front back : List Char} (hfront : ∀ c ∈ front, isDigit c = true)
    (hback : ∀ c ∈ back, isDigit c = true) :
    valueOf (front ++ back) = valueOf front * 10 ^ back.length + valueOf back := by
  have hboth : ∀ c ∈ front ++ back, isDigit c = true := List.forall_mem_append.mpr ⟨hfront, hback⟩
  rw [valueOf_eq hboth, valueOf_eq hfront, valueOf_eq hback, Nat.ofDigitChars_append,
    Nat.ofDigitChars_eq_ofDigitChars_zero, mul_comm]

theorem isDigit_of_mem_zeros {n : ℕ} {c : Char} (h : c ∈ List.replicate n '0') : isDigit c = true := by
  rw [List.eq_of_mem_replicate h]
  rfl

@[simp]
theorem valueOf_zeros (n : ℕ) : valueOf (List.replicate n '0') = 0 := by
  rw [valueOf_eq fun c => isDigit_of_mem_zeros, Nat.ofDigitChars_replicate_zero, mul_zero]

/-- **What is written of a natural number is read as it.** -/
theorem digitsOf_spec (n : ℕ) : digitsOf n ≠ [] ∧ (∀ c ∈ digitsOf n, isDigit c = true) ∧ valueOf (digitsOf n) = n := by
  have hdigits : ∀ c ∈ digitsOf n, isDigit c = true := by
    intro c hc
    have h := Nat.isDigit_of_mem_toDigits (by decide) (by decide) hc
    rw [isDigit, Text.digitValue?]
    simp only [Char.isDigit, Bool.and_eq_true, decide_eq_true_eq] at h
    rw [if_pos]
    · rfl
    · simpa [Char.le_def] using h
  exact ⟨Nat.toDigits_ne_nil, hdigits, (valueOf_eq hdigits).trans Nat.ofDigitChars_ten_toDigits⟩

/-- The first digit of a number other than zero is not zero. -/
theorem head?_digitsOf {n : ℕ} (hn : n ≠ 0) : (digitsOf n).head? ≠ some '0' :=
  Text.head?_toDigits hn

/-- Digits in front are no sign. -/
theorem splitSign_append {digits : List Char} (hne : digits ≠ []) (h : ∀ c ∈ digits, isDigit c = true)
    (rest : List Char) : splitSign (digits ++ rest) = (false, digits ++ rest) := by
  obtain ⟨c, others, rfl⟩ := List.exists_cons_of_ne_nil hne
  have hdigit := h c List.mem_cons_self
  have hminus : c ≠ '-' := by
    rintro rfl
    exact absurd hdigit (by decide)
  have hplus : c ≠ '+' := by
    rintro rfl
    exact absurd hdigit (by decide)
  rw [List.cons_append]
  unfold splitSign
  split
  · rename_i heq
    exact absurd (List.cons.inj heq).1 hminus
  · rename_i heq
    exact absurd (List.cons.inj heq).1 hplus
  · rfl

/-- A run of characters of a class ends where another character stands. -/
theorem span_append {p : Char → Bool} {front rest : List Char} (hfront : ∀ c ∈ front, p c = true)
    (hrest : ∀ c ∈ rest.head?, p c = false) :
    (front ++ rest).takeWhile p = front ∧ (front ++ rest).dropWhile p = rest := by
  have hempty : rest.takeWhile p = [] ∧ rest.dropWhile p = rest := by
    cases rest with
    | nil => exact ⟨rfl, rfl⟩
    | cons c rest =>
      have hc := hrest c rfl
      exact ⟨List.takeWhile_cons_of_neg (by simp [hc]), List.dropWhile_cons_of_neg (by simp [hc])⟩
  rw [List.takeWhile_append_of_pos hfront, List.dropWhile_append_of_pos hfront, hempty.1, hempty.2, List.append_nil]
  exact ⟨rfl, rfl⟩

/-! ## Numerals -/

/-- What stands in a numeral without a sign: digits, the digits behind the point if there is one, and the text of a power
    of ten if there is one. -/
structure Parts where
  whole : List Char
  fraction : List Char
  ending : List Char
  power : ℤ
  whole_ne_nil : whole ≠ []
  isDigit_whole : ∀ c ∈ whole, isDigit c = true
  isDigit_fraction : ∀ c ∈ fraction, isDigit c = true
  ending_eq : ending = [] ∨ ∃ rest, ending = 'e' :: rest
  readPower?_ending : readPower? ending = some power

namespace Parts

variable (p : Parts)

/-- The text of a numeral. -/
def text : List Char :=
  p.whole ++ ((if p.fraction = [] then [] else '.' :: p.fraction) ++ p.ending)

/-- The decimal that a numeral says. -/
def decimal : Decimal :=
  ⟨valueOf (p.whole ++ p.fraction), p.power - p.fraction.length⟩

theorem not_isDigit_ending : ∀ c ∈ p.ending.head?, isDigit c = false := by
  intro c hc
  rcases p.ending_eq with hnone | ⟨rest, hsome⟩
  · rw [hnone] at hc
    cases hc
  · rw [hsome] at hc
    obtain rfl : c = 'e' := (Option.some.inj hc).symm
    rfl

theorem not_isDigit_behind :
    ∀ c ∈ ((if p.fraction = [] then [] else '.' :: p.fraction) ++ p.ending).head?, isDigit c = false := by
  intro c hc
  split_ifs at hc
  · exact p.not_isDigit_ending c hc
  · obtain rfl : c = '.' := (Option.some.inj hc).symm
    rfl

theorem splitSign_text : splitSign p.text = (false, p.text) :=
  splitSign_append p.whole_ne_nil p.isDigit_whole _

/-- The whole digits of a numeral, and what stands behind them. -/
theorem span_text :
    p.text.takeWhile isDigit = p.whole ∧
      p.text.dropWhile isDigit = (if p.fraction = [] then [] else '.' :: p.fraction) ++ p.ending :=
  span_append p.isDigit_whole p.not_isDigit_behind

/-- **A numeral is read as the decimal that it says.** -/
theorem readNumeral?_eq {s : List Char} {negative : Bool} (h : splitSign s = (negative, p.text)) :
    readNumeral? s = some ⟨negative, p.decimal⟩ := by
  obtain ⟨hwhole, hbehind⟩ := p.span_text
  obtain ⟨hfraction, hending⟩ := span_append p.isDigit_fraction p.not_isDigit_ending
  unfold readNumeral?
  rw [h]
  simp only [hwhole, hbehind]
  by_cases hnone : p.fraction = []
  · have hpoint : ∀ rest, p.ending ≠ '.' :: rest := by
      rintro rest hrest
      rcases p.ending_eq with hnil | ⟨others, hsome⟩
      · rw [hnil] at hrest
        cases hrest
      · rw [hsome] at hrest
        cases hrest
    rw [if_pos hnone, List.nil_append]
    split
    · rename_i rest hrest
      exact absurd hrest (hpoint rest)
    · rw [if_neg (by simp [p.whole_ne_nil]), p.readPower?_ending, decimal, hnone]
      simp
  · rw [if_neg hnone, List.cons_append]
    simp only [hfraction, hending]
    rw [if_neg (by simp [hnone]), p.readPower?_ending, decimal]
    rfl

end Parts

/-! ## What is laid out -/

theorem readPower?_power (layout : Layout) (e : ℤ) : readPower? ('e' :: layout.power e) = some e := by
  obtain ⟨hne, hdigits, hvalue⟩ := digitsOf_spec e.natAbs
  have hcheck : ((digitsOf e.natAbs).isEmpty || !(digitsOf e.natAbs).all isDigit) = false := by
    rw [Bool.or_eq_false_iff, List.isEmpty_eq_false_iff, Bool.not_eq_false', List.all_eq_true]
    exact ⟨hne, hdigits⟩
  have hsigned : ∀ negative rest, splitSign rest = (negative, digitsOf e.natAbs) →
      (if negative then -(e.natAbs : ℤ) else e.natAbs) = e → readPower? ('e' :: rest) = some e := by
    intro negative rest hrest he
    have hletter : ('e' = 'e' || 'e' = 'E') = true := rfl
    rw [readPower?, if_pos hletter, hrest]
    simp only [hcheck, hvalue]
    exact congrArg some he
  unfold Layout.power
  split_ifs with hneg hplus
  · exact hsigned true _ rfl (by rw [if_pos rfl]; omega)
  · exact hsigned false _ rfl (by rw [if_neg Bool.false_ne_true]; omega)
  · have hsign := splitSign_append hne hdigits []
    rw [List.append_nil] at hsign
    exact hsigned false _ hsign (by rw [if_neg Bool.false_ne_true]; omega)

namespace Parts

/-- A numeral that is no integer: it has a fraction or a power of ten, and no zero that does not count in front. -/
structure IsNumber (p : Parts) : Prop where
  not_integer : p.fraction = [] → p.ending ≠ []
  no_zeros : p.whole.length ≠ 1 → p.whole.head? ≠ some '0'

/-- Digits with the point behind some of them, and a power of ten or none. -/
def cut (s : List Char) (k : ℕ) (ending : List Char) (power : ℤ) (h : s ≠ [] ∧ 0 < k ∧ ∀ c ∈ s, isDigit c = true)
    (hending : (ending = [] ∨ ∃ rest, ending = 'e' :: rest) ∧ readPower? ending = some power) : Parts where
  whole := s.take k
  fraction := s.drop k
  ending := ending
  power := power
  whole_ne_nil := by
    rw [Ne, List.take_eq_nil_iff, not_or]
    exact ⟨h.2.1.ne', h.1⟩
  isDigit_whole := fun c hc => h.2.2 c (List.mem_of_mem_take hc)
  isDigit_fraction := fun c hc => h.2.2 c (List.mem_of_mem_drop hc)
  ending_eq := hending.1
  readPower?_ending := hending.2

variable {s : List Char} {k : ℕ} {ending : List Char} {power : ℤ} {h : s ≠ [] ∧ 0 < k ∧ ∀ c ∈ s, isDigit c = true}
  {hending : (ending = [] ∨ ∃ rest, ending = 'e' :: rest) ∧ readPower? ending = some power}

theorem text_cut_of_lt (hk : k < s.length) :
    (cut s k ending power h hending).text = s.take k ++ '.' :: s.drop k ++ ending := by
  have hfraction : s.drop k ≠ [] := by
    rw [Ne, List.drop_eq_nil_iff]
    omega
  simp [text, cut, hfraction]

theorem text_cut_of_length_le (hk : s.length ≤ k) : (cut s k ending power h hending).text = s ++ ending := by
  simp [text, cut, List.drop_eq_nil_of_le hk, List.take_of_length_le hk]

theorem value_cut : (cut s k ending power h hending).decimal.value = valueOf s * 10 ^ (power - (s.length - k : ℕ)) := by
  simp [decimal, cut, value]

theorem isNumber_cut (hsplit : k < s.length ∨ ending ≠ []) (hzeros : k ≠ 1 → s.head? ≠ some '0') :
    (cut s k ending power h hending).IsNumber where
  not_integer := by
    intro hnone
    have hle : s.length ≤ k := List.drop_eq_nil_iff.mp hnone
    exact hsplit.resolve_left (by omega)
  no_zeros := by
    intro hlong
    have hlength : 0 < s.length := List.length_pos_iff.mpr h.1
    have hk : (s.take k).length ≠ 1 := hlong
    rw [List.length_take] at hk
    show (s.take k).head? ≠ some '0'
    rw [List.head?_take, if_neg h.2.1.ne']
    exact hzeros (by omega)

end Parts

/-- **What is laid out is a numeral of the same value**, in each of the five ways that the point can stand. -/
theorem exists_parts (layout : Layout) {d : Decimal} (hd : d.digits = 0 → d.exponent = 0) :
    ∃ p : Parts, layout.decimal d = p.text ∧ p.decimal.value = d.value ∧ p.IsNumber := by
  obtain ⟨hne, hdigits, hvalue⟩ := digitsOf_spec d.digits
  have hlength : 0 < (digitsOf d.digits).length := List.length_pos_iff.mpr hne
  have hhead : d.digits ≠ 0 → (digitsOf d.digits).head? ≠ some '0' := head?_digitsOf
  have hzero : d.digits = 0 → (digitsOf d.digits).length = 1 := fun h0 => by rw [h0]; rfl
  unfold Layout.decimal
  simp only
  generalize digitsOf d.digits = s at hne hdigits hvalue hlength hhead hzero
  split_ifs with hwhole hinside hbelow hsingle
  · -- zeros behind the digits, and one behind the point
    rw [Bool.and_eq_true, decide_eq_true_eq, decide_eq_true_eq] at hwhole
    obtain ⟨n, hn⟩ := Int.eq_ofNat_of_zero_le hwhole.1
    rw [hn, Int.toNat_natCast]
    have hzeros : s ++ List.replicate n '0' ++ ['0'] = s ++ List.replicate (n + 1) '0' := by
      rw [List.append_assoc, List.replicate_succ']
    have hall : ∀ c ∈ s ++ List.replicate n '0' ++ ['0'], isDigit c = true := by
      rw [hzeros]
      exact List.forall_mem_append.mpr ⟨hdigits, fun c => isDigit_of_mem_zeros⟩
    refine ⟨.cut (s ++ List.replicate n '0' ++ ['0']) (s.length + n) [] 0 ⟨by simp, by omega, hall⟩ ⟨Or.inl rfl, rfl⟩,
      ?_, ?_, Parts.isNumber_cut (Or.inl (by simp)) fun hlong => ?_⟩
    · have hfront : (s ++ List.replicate n '0').length = s.length + n := by simp
      rw [Parts.text_cut_of_lt (by simp), ← hfront, List.take_left, List.drop_left]
      simp
    · have hback : (s ++ List.replicate n '0' ++ ['0']).length - (s.length + n) = 1 := by
        rw [hzeros, List.length_append, List.length_replicate]
        omega
      rw [Parts.value_cut, hback, hzeros, valueOf_append hdigits fun c => isDigit_of_mem_zeros, hvalue, valueOf_zeros,
        List.length_replicate, add_zero, pow_succ, value, hn, zpow_natCast]
      push_cast
      norm_num
      ring
    · have hn0 : d.digits ≠ 0 := by
        intro h0
        have := hd h0
        have := hzero h0
        omega
      rw [List.append_assoc, List.head?_append_of_ne_nil _ hne]
      exact hhead hn0
  · -- the point among the digits
    simp only [Bool.and_eq_true, decide_eq_true_eq] at hwhole hinside
    obtain ⟨k, hk⟩ := Int.eq_ofNat_of_zero_le hinside.1.le
    rw [hk, Int.toNat_natCast]
    have hn0 : d.digits ≠ 0 := by
      intro h0
      have := hd h0
      omega
    refine ⟨.cut s k [] 0 ⟨hne, by omega, hdigits⟩ ⟨Or.inl rfl, rfl⟩, ?_, ?_,
      Parts.isNumber_cut (Or.inl (by omega)) fun _ => hhead hn0⟩
    · rw [Parts.text_cut_of_lt (by omega), List.append_nil]
    · rw [Parts.value_cut, hvalue, value]
      congr 2
      omega
  · -- zeros between the point and the digits
    rw [Bool.and_eq_true, decide_eq_true_eq, decide_eq_true_eq] at hbelow
    obtain ⟨n, hn⟩ := Int.eq_ofNat_of_zero_le (neg_nonneg.mpr hbelow.2)
    rw [hn, Int.toNat_natCast]
    have hall : ∀ c ∈ '0' :: (List.replicate n '0' ++ s), isDigit c = true := by
      rw [List.forall_mem_cons, List.forall_mem_append]
      exact ⟨rfl, fun c => isDigit_of_mem_zeros, hdigits⟩
    refine ⟨.cut ('0' :: (List.replicate n '0' ++ s)) 1 [] 0 ⟨by simp, by omega, hall⟩ ⟨Or.inl rfl, rfl⟩, ?_, ?_,
      Parts.isNumber_cut (Or.inl (by simp; omega)) fun hlong => absurd rfl hlong⟩
    · rw [Parts.text_cut_of_lt (by simp; omega)]
      simp
    · have hzeros : '0' :: (List.replicate n '0' ++ s) = List.replicate (n + 1) '0' ++ s := rfl
      rw [Parts.value_cut, hzeros, valueOf_append (fun c => isDigit_of_mem_zeros) hdigits, hvalue, valueOf_zeros,
        zero_mul, zero_add, value]
      congr 2
      simp
      omega
  · -- one digit and a power of ten
    have hn0 : d.digits ≠ 0 := by
      intro h0
      have := hd h0
      simp only [Bool.and_eq_true, decide_eq_true_eq] at hwhole
      omega
    refine ⟨.cut s 1 ('e' :: layout.power ((s.length : ℤ) + d.exponent - 1)) _ ⟨hne, by omega, hdigits⟩
      ⟨Or.inr ⟨_, rfl⟩, readPower?_power layout _⟩, ?_, ?_, Parts.isNumber_cut (Or.inr (by simp)) fun _ => hhead hn0⟩
    · rw [Parts.text_cut_of_length_le hsingle.le]
    · rw [Parts.value_cut, hvalue, value]
      congr 2
      omega
  · -- the point behind the first digit, and a power of ten
    have hn0 : d.digits ≠ 0 := fun h0 => hsingle (hzero h0)
    refine ⟨.cut s 1 ('e' :: layout.power ((s.length : ℤ) + d.exponent - 1)) _ ⟨hne, by omega, hdigits⟩
      ⟨Or.inr ⟨_, rfl⟩, readPower?_power layout _⟩, ?_, ?_, Parts.isNumber_cut (Or.inr (by simp)) fun _ => hhead hn0⟩
    · rw [Parts.text_cut_of_lt (by omega)]
    · rw [Parts.value_cut, hvalue, value]
      congr 2
      omega

/-! ## Numbers -/

/-- The shortest decimal of zero has no power of ten. -/
theorem exponent_shortest_of_digits_eq_zero {x : Float} (hx : x.isFinite = true) (h : (shortest x).digits = 0) :
    (shortest x).exponent = 0 := by
  obtain ⟨v, hv⟩ := Binary64.isFinite_iff.mp hx
  have hrounded := rounded_shortest hv
  rw [value, h, Nat.cast_zero, zero_mul, Binary64.rounded_zero] at hrounded
  obtain rfl := abs_eq_zero.mp hrounded.symm
  unfold shortest
  rw [binaryParts_eq]
  simp only [Binary64.significandOf_eq_zero hv, if_true]

/-- **A finite number is laid out as a numeral that is read as the number.** -/
theorem exists_parts_finite (layout : Layout) {x : Float} (hx : x.isFinite = true) :
    ∃ p : Parts, layout.finite x = (if isNegative x then '-' :: p.text else p.text) ∧
      Numeral.toFloat ⟨isNegative x, p.decimal⟩ = x ∧ p.IsNumber := by
  obtain ⟨p, htext, hvalue, hnumber⟩ := exists_parts layout (exponent_shortest_of_digits_eq_zero hx)
  refine ⟨p, ?_, toFloat_eq_of_value_eq hx hvalue, hnumber⟩
  unfold Layout.finite isNegative
  rw [htext]
  by_cases hsign : x.toBits < 0x8000000000000000
  · simp [hsign]
  · simp [hsign]

/-- **A finite number is read back from its text**, to the last bit and with the sign of its zero. -/
theorem readNumeral?_finite (layout : Layout) {x : Float} (hx : x.isFinite = true) :
    ∃ n, readNumeral? (layout.finite x) = some n ∧ n.toFloat = x := by
  obtain ⟨p, htext, hread, _⟩ := exists_parts_finite layout hx
  refine ⟨_, p.readNumeral?_eq ?_, hread⟩
  rw [htext]
  cases isNegative x with
  | true => rfl
  | false => exact p.splitSign_text

end LatencyReport.Decimal
