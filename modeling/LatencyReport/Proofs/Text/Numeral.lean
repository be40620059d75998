import LatencyReport.Text.Numeral

/-!
# `Proofs.Text.Numeral` — what a numeral spells

A text spells a number if it is a run of decimal digits of that value; a plus sign may stand in front. Leading zeros
do not count, so **one number has many spellings**, and a text spells one number at most (`Spells.unique`). Reading
stops at the first digit that takes the value to 2^64, and the value never falls again: so what is read is exactly
what is spelled below 2^64 (`readUInt64_eq_ok_iff`).

## Contents

* `Spells`, `Spells.unique` — what a text spells;
* `readDigits_eq_ok_iff`, `readUInt64_eq_ok_iff` — what is read is what is spelled;
* `head?_toDigits`, `spells_toString` — the spelling that is written.
-/

namespace LatencyReport.Text

/-- A text spells a number: it is a run of digits with that value, or a plus sign and such a run. -/
def Spells (text : List Char) (n : Nat) : Prop :=
  ∃ digits, (text = digits ∨ text = '+' :: digits) ∧ digits ≠ [] ∧ (∀ c ∈ digits, c.isDigit = true) ∧
    Nat.ofDigitChars 10 digits 0 = n

theorem digitValue?_eq (c : Char) : digitValue? c = if c.isDigit then some (c.toNat - '0'.toNat) else none := rfl

/-- The value of digits is at least the value of those that were read before. -/
theorem le_ofDigitChars (digits : List Char) (value : Nat) : value ≤ Nat.ofDigitChars 10 digits value := by
  induction digits generalizing value with
  | nil => simp
  | cons c rest ih =>
    rw [Nat.ofDigitChars_cons]
    exact Nat.le_trans (by omega) (ih _)

/-- **Digits are read if they are digits and their value stays below 2^64**; then the value is theirs. -/
theorem readDigits_eq_ok_iff {value n : Nat} (hvalue : value < UInt64.size) {digits : List Char} :
    readDigits value digits = .ok n ↔
      (∀ c ∈ digits, c.isDigit = true) ∧ Nat.ofDigitChars 10 digits value = n ∧ n < UInt64.size := by
  induction digits generalizing value with
  | nil =>
    rw [readDigits, Nat.ofDigitChars_nil, Except.ok.injEq]
    constructor
    · rintro rfl
      exact ⟨by simp, rfl, hvalue⟩
    · exact fun h => h.2.1
  | cons c rest ih =>
    rw [readDigits, digitValue?_eq, Nat.ofDigitChars_cons, List.forall_mem_cons]
    by_cases hdigit : c.isDigit = true
    · rw [if_pos hdigit]
      simp only
      split
      · rename_i hsmall
        rw [ih hsmall, and_iff_right hdigit]
      · -- the value is too large already, and what follows makes it no smaller
        rename_i hlarge
        have hle := le_ofDigitChars rest (10 * value + (c.toNat - '0'.toNat))
        constructor
        · intro h
          cases h
        · rintro ⟨_, rfl, hsmall⟩
          omega
    · rw [if_neg hdigit]
      constructor
      · intro h
        cases h
      · exact fun h => absurd h.1.1 hdigit

/-- What follows the sign of a text, and whether it spells a number. -/
theorem spells_plus_iff {rest : List Char} {n : Nat} :
    Spells ('+' :: rest) n ↔
      rest ≠ [] ∧ (∀ c ∈ rest, c.isDigit = true) ∧ Nat.ofDigitChars 10 rest 0 = n := by
  constructor
  · rintro ⟨digits, rfl | hsign, hne, hdigits, hn⟩
    · exact absurd (hdigits '+' List.mem_cons_self) (by decide)
    · obtain rfl := (List.cons.inj hsign).2
      exact ⟨hne, hdigits, hn⟩
  · exact fun h => ⟨rest, Or.inr rfl, h⟩

/-- A text without a sign spells the value of its digits. -/
theorem spells_iff_of_head? {text : List Char} (h : text.head? ≠ some '+') {n : Nat} :
    Spells text n ↔ text ≠ [] ∧ (∀ c ∈ text, c.isDigit = true) ∧ Nat.ofDigitChars 10 text 0 = n := by
  constructor
  · rintro ⟨digits, rfl | hsign, hrest⟩
    · exact hrest
    · exact absurd (by rw [hsign, List.head?_cons]) h
  · exact fun hrest => ⟨text, Or.inl rfl, hrest⟩

/-- A text spells one number at most. -/
theorem Spells.unique {text : List Char} {m n : Nat} (hm : Spells text m) (hn : Spells text n) : m = n := by
  by_cases hsign : text.head? = some '+'
  · obtain ⟨rest, rfl⟩ := List.head?_eq_some_iff.mp hsign
    exact (spells_plus_iff.mp hm).2.2.symm.trans (spells_plus_iff.mp hn).2.2
  · exact ((spells_iff_of_head? hsign).mp hm).2.2.symm.trans ((spells_iff_of_head? hsign).mp hn).2.2

/-- A numeral holds digits and a plus sign, and nothing else. -/
theorem Spells.isDigit_or_eq_plus {text : List Char} {n : Nat} (h : Spells text n) {c : Char} (hc : c ∈ text) :
    c.isDigit = true ∨ c = '+' := by
  obtain ⟨digits, rfl | rfl, _, hdigits, _⟩ := h
  · exact Or.inl (hdigits c hc)
  · rcases List.mem_cons.mp hc with rfl | hrest
    · exact Or.inr rfl
    · exact Or.inl (hdigits c hrest)

/-- The digits of a text, if there are any, are read as its value. -/
theorem map_readDigits_eq_ok_iff {digits : List Char} {n : UInt64} :
    (readDigits 0 digits).map UInt64.ofNat = .ok n ↔
      (∀ c ∈ digits, c.isDigit = true) ∧ Nat.ofDigitChars 10 digits 0 = n.toNat := by
  have hread := fun m => @readDigits_eq_ok_iff 0 m (by decide) digits
  constructor
  · intro h
    cases hdigits : readDigits 0 digits with
    | error fault =>
      rw [hdigits] at h
      cases h
    | ok m =>
      obtain ⟨hall, hm, hsmall⟩ := (hread m).mp hdigits
      rw [hdigits] at h
      obtain rfl : UInt64.ofNat m = n := Except.ok.inj h
      exact ⟨hall, hm.trans (UInt64.toNat_ofNat_of_lt' hsmall).symm⟩
  · rintro ⟨hall, hn⟩
    rw [(hread n.toNat).mpr ⟨hall, hn, n.toNat_lt⟩]
    exact congrArg Except.ok UInt64.ofNat_toNat

/-- Behind a sign the digits are read. -/
theorem readUInt64_plus {rest : List Char} (h : rest ≠ []) :
    readUInt64 ('+' :: rest) = (readDigits 0 rest).map UInt64.ofNat := by
  cases rest with
  | nil => exact absurd rfl h
  | cons c rest => rfl

/-- Without a sign all of a text is read as digits. -/
theorem readUInt64_cons {c : Char} (h : c ≠ '+') (rest : List Char) :
    readUInt64 (c :: rest) = (readDigits 0 (c :: rest)).map UInt64.ofNat := by
  unfold readUInt64
  simp [h]

/-- **What is read of a text is the number that it spells**, if that is below 2^64. -/
theorem readUInt64_eq_ok_iff {text : List Char} {n : UInt64} : readUInt64 text = .ok n ↔ Spells text n.toNat := by
  by_cases hsign : text.head? = some '+'
  · obtain ⟨rest, rfl⟩ := List.head?_eq_some_iff.mp hsign
    rw [spells_plus_iff, ← map_readDigits_eq_ok_iff]
    by_cases hempty : rest = []
    · simp [hempty, readUInt64]
    · rw [readUInt64_plus hempty, and_iff_right hempty]
  · rw [spells_iff_of_head? hsign, ← map_readDigits_eq_ok_iff]
    cases text with
    | nil => simp [readUInt64]
    | cons c rest =>
      have hc : c ≠ '+' := fun h => hsign (by rw [h, List.head?_cons])
      rw [readUInt64_cons hc, and_iff_right (List.cons_ne_nil c rest)]

/-- A text is not read exactly when it spells no number below 2^64. -/
theorem readUInt64_eq_error_iff {text : List Char} :
    (∃ fault, readUInt64 text = .error fault) ↔ ∀ n, Spells text n → UInt64.size ≤ n := by
  constructor
  · rintro ⟨fault, hfault⟩ n hn
    refine Nat.not_lt.mp fun hsmall => ?_
    have hread : readUInt64 text = .ok (UInt64.ofNat n) := by
      rw [readUInt64_eq_ok_iff, UInt64.toNat_ofNat_of_lt' hsmall]
      exact hn
    rw [hread] at hfault
    cases hfault
  · intro h
    cases hread : readUInt64 text with
    | error fault => exact ⟨fault, rfl⟩
    | ok n => exact absurd (h _ (readUInt64_eq_ok_iff.mp hread)) (Nat.not_le.mpr n.toNat_lt)

/-- The first digit that is written of a number other than zero is not zero. -/
theorem head?_toDigits {n : Nat} (hn : n ≠ 0) : (Nat.toDigits 10 n).head? ≠ some '0' := by
  induction n using Nat.strongRecOn with
  | _ n ih =>
    rw [Nat.toDigits_eq_if (by decide)]
    split
    · rw [List.head?_cons, Ne, Option.some.injEq, Nat.digitChar_eq_zero]
      exact hn
    · rename_i hlarge
      have hfront := ih (n / 10) (by omega) (by omega)
      rw [List.head?_append]
      rwa [List.head?_eq_some_head Nat.toDigits_ne_nil] at hfront ⊢

/-- **What is written of a number spells it.** -/
theorem spells_toString (n : UInt64) : Spells (toString n).toList n.toNat := by
  have hdigits : (toString n).toList = Nat.toDigits 10 n.toNat := Nat.toList_repr
  rw [hdigits]
  refine ⟨Nat.toDigits 10 n.toNat, Or.inl rfl, ?_, ?_, Nat.ofDigitChars_ten_toDigits⟩
  · exact Nat.toDigits_ne_nil
  · exact fun c hc => Nat.isDigit_of_mem_toDigits (by decide) (by decide) hc

end LatencyReport.Text
