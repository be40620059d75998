import LatencyReport.Proofs.Binary64.Arithmetic

/-!
# `Proofs.Binary64.Scientific` — decimals to numbers

A decimal `m · 10 ^ e` becomes **the number that it is rounded to** (`rounds_ofScientific`), in two ways. If the digits
and the power of ten are numbers themselves, one multiplication or division rounds once. Otherwise whole numbers of any
length are multiplied or divided; only where the power is so great or so small that the result is known from it, neither
is computed.

## Contents

* `rounds_toFloat`, `value?_toFloat`, `value?_powerOfTen` — digits and powers of ten that are numbers;
* `rounds_ofScientific_parts` — whole numbers of any length;
* `rounds_ofScientific` — decimals; `value?_whole` — whole numbers among them.
-/

namespace LatencyReport.Binary64

open Float.Model Float.Model.UnpackedFloat

/-! ## What is a number itself -/

theorem abs_natCast_lt_limit {n : ℕ} (h : n < 2 ^ 128) : |(n : ℚ)| < limit := by
  have hn : (n : ℚ) < 2 ^ (128 : ℤ) := by exact_mod_cast h
  rw [Nat.abs_cast]
  exact hn.trans (two_zpow_lt_limit (by norm_num))

/-- **A 64-bit number is rounded.** -/
theorem rounds_toFloat (n : UInt64) : Rounds n.toFloat n.toNat := by
  have hround := isRounded_normalize n.toNat 0 .positive
  rw [zpow_zero, mul_one, Int.cast_natCast] at hround
  exact rounds_ofParts hround

theorem value?_toFloat {n : UInt64} (hn : n.toNat < 2 ^ 53) : value? n.toFloat = some (n.toNat : ℚ) :=
  (rounds_toFloat n).exact (representable_natCast hn) (abs_natCast_lt_limit (by omega))

theorem powerOfTen_eq : ∀ e : Fin Float.exactlyRepresentablePowersOfTen.size,
    Float.exactlyRepresentablePowersOfTen[(e : ℕ)] =
      ofParts (UnpackedFloat.normalize Format.binary64 (10 ^ (e : ℕ)) 0 .positive) := by
  decide +kernel

/-- **A power of ten up to the 22nd is a number**: its odd part has 53 digits. -/
theorem value?_powerOfTen {e : ℕ} (he : e < Float.exactlyRepresentablePowersOfTen.size) :
    value? Float.exactlyRepresentablePowersOfTen[e] = some (10 ^ e) := by
  have hle : e ≤ 22 := Nat.le_of_lt_succ he
  have hround := isRounded_normalize (10 ^ e) 0 .positive
  rw [zpow_zero, mul_one, Int.cast_pow, Int.cast_ofNat] at hround
  have hodd : 5 ^ e < 2 ^ 53 := lt_of_le_of_lt (Nat.pow_le_pow_right (by norm_num) hle) (by norm_num)
  have hrep : Representable (10 ^ e) := by
    refine ⟨5 ^ e, e, ?_, by omega, ?_⟩
    · rw [abs_of_nonneg (by positivity)]
      exact_mod_cast hodd
    · rw [zpow_natCast, Int.cast_pow, Int.cast_ofNat, ← mul_pow]
      norm_num
  have hlimit : |((10 : ℚ) ^ e)| < limit := by
    have hsmall : 10 ^ e < 2 ^ 128 := lt_of_le_of_lt (Nat.pow_le_pow_right (by norm_num) hle) (by norm_num)
    have h := abs_natCast_lt_limit hsmall
    push_cast at h
    exact h
  rw [powerOfTen_eq ⟨e, he⟩]
  exact (rounds_ofParts hround).exact hrep hlimit

/-! ## Whole numbers of any length -/

/-- What is below half of the least number is rounded to zero. -/
theorem rounded_eq_zero {q : ℚ} (h : 0 ≤ q) (hlt : q < 2 ^ (-1075 : ℤ)) : rounded q = 0 := by
  have hulp : ulpExponent q = -1074 := by
    apply le_antisymm _ (neg_1074_le_ulpExponent q)
    apply ulpExponent_le_of_lt (le_refl _)
    rw [abs_of_nonneg h]
    exact hlt.trans (zpow_lt_zpow_right₀ one_lt_two (by norm_num))
  have hhalf : q / 2 ^ (-1074 : ℤ) < 1 / 2 := by
    have hexp : (2 : ℚ) ^ (-1075 : ℤ) = 1 / 2 * 2 ^ (-1074 : ℤ) := by
      rw [show (-1075 : ℤ) = -1 + -1074 by norm_num, zpow_add₀ two_ne_zero]
      norm_num
    rwa [div_lt_iff₀ (by positivity), ← hexp]
  have hfloor : ⌊q / 2 ^ (-1074 : ℤ)⌋ = 0 := by
    rw [Int.floor_eq_zero_iff]
    exact ⟨by positivity, hhalf.trans (by norm_num)⟩
  have hnearest : nearestInt (q / 2 ^ (-1074 : ℤ)) = 0 := by
    rw [nearestInt, Int.fract, hfloor, Int.cast_zero, sub_zero, if_pos hhalf]
  rw [rounded, hulp, hnearest, Int.cast_zero, zero_mul]

/-- Digits are fewer than the next power of two. -/
theorem natCast_lt_two_zpow_log2 (m : ℕ) : (m : ℚ) < 2 ^ ((m.log2 : ℤ) + 1) := by
  have hlt : m < 2 ^ (m.log2 + 1) := Nat.lt_log2_self
  exact_mod_cast hlt

/-- **Digits and a power of ten become the number that they are rounded to.** -/
theorem rounds_ofScientific_parts (m : ℕ) (e : ℤ) :
    Rounds (ofParts (UnpackedFloat.ofScientific Format.binary64 m e)) (m * 10 ^ e) := by
  have hexponents : (2 : ℤ) ^ Format.binary64.exponentBits = 2048 := rfl
  unfold UnpackedFloat.ofScientific
  simp only [hexponents]
  split_ifs with hm hhigh hlow hsign
  · rw [hm, Nat.cast_zero, zero_mul]
    exact rounds_ofParts ⟨trivial, congrArg some rounded_zero.symm⟩
  · -- beyond the limit already without the digits
    have hgreat : limit ≤ m * 10 ^ e := by
      have hone : (1 : ℚ) ≤ m := by exact_mod_cast Nat.one_le_iff_ne_zero.mpr hm
      calc limit ≤ (2 : ℚ) ^ e := zpow_le_zpow_right₀ one_le_two (by omega)
        _ ≤ 10 ^ e := zpow_le_zpow_left₀ (by omega) two_pos.le (by norm_num)
        _ ≤ m * 10 ^ e := le_mul_of_one_le_left (by positivity) hone
    have hrounded : limit ≤ rounded (m * 10 ^ e) := le_rounded (representable_two_zpow (by norm_num)) hgreat
    have hpos : 0 ≤ rounded (m * 10 ^ e) := limit_pos.le.trans hrounded
    rw [Rounds, abs_of_nonneg hpos, if_neg (not_lt.mpr hrounded), if_neg (not_lt.mpr hpos)]
    exact parts_ofParts trivial
  · -- the power of ten takes away all digits, and half of the least number with them
    have hsmall : (m : ℚ) * 10 ^ e < 2 ^ (-1075 : ℤ) := by
      calc (m : ℚ) * 10 ^ e < 2 ^ ((m.log2 : ℤ) + 1) * 10 ^ e := by
            gcongr
            exact natCast_lt_two_zpow_log2 m
        _ ≤ 2 ^ ((m.log2 : ℤ) + 1) * 2 ^ e := by
            have hneg : (10 : ℚ) ^ e ≤ 2 ^ e := by
              rw [← neg_neg e, zpow_neg, zpow_neg (2 : ℚ)]
              exact inv_anti₀ (by positivity) (zpow_le_zpow_left₀ (by omega) two_pos.le (by norm_num))
            gcongr
        _ = 2 ^ ((m.log2 : ℤ) + 1 + e) := (zpow_add₀ two_ne_zero _ _).symm
        _ ≤ 2 ^ (-1075 : ℤ) := zpow_le_zpow_right₀ one_le_two (by omega)
    have hzero := rounded_eq_zero (by positivity) hsmall
    exact rounds_ofParts ⟨trivial, congrArg some hzero.symm⟩
  · obtain ⟨n, rfl⟩ := Int.eq_ofNat_of_zero_le hsign
    have hvalue : ((m <<< 53 : ℕ) : ℚ) * 2 ^ (-53 : ℤ) * (((10 ^ n : ℕ) : ℚ) * 2 ^ (0 : ℤ)) = m * 10 ^ (n : ℤ) := by
      rw [Nat.shiftLeft_eq, zpow_zero, zpow_natCast]
      push_cast
      rw [mul_assoc (m : ℚ)]
      norm_num
    have hplace : (-53 : ℤ) + 0 ≤
        ulpExponent (((m <<< 53 : ℕ) : ℚ) * 2 ^ (-53 : ℤ) * (((10 ^ n : ℕ) : ℚ) * 2 ^ (0 : ℤ))) := by
      have hone : (1 : ℚ) ≤ m * 10 ^ n := by
        exact_mod_cast Nat.one_le_iff_ne_zero.mpr (Nat.mul_ne_zero hm (by positivity))
      rw [hvalue, zpow_natCast, le_ulpExponent_iff, abs_of_nonneg (by positivity)]
      exact Or.inr ((zpow_le_one_of_nonpos₀ one_le_two (by norm_num)).trans hone)
    rw [← hvalue]
    exact rounds_ofParts (isRounded_mul_finite .positive .positive _ _ hplace)
  · obtain ⟨n, hn⟩ := Int.eq_ofNat_of_zero_le (a := -e) (by omega)
    have hvalue : (m : ℚ) * 2 ^ (0 : ℤ) / (((10 ^ (-e).toNat : ℕ) : ℚ) * 2 ^ (0 : ℤ)) = m * 10 ^ e := by
      obtain rfl : e = -(n : ℤ) := by omega
      rw [neg_neg, Int.toNat_natCast, zpow_neg, zpow_natCast, zpow_zero, mul_one, mul_one, div_eq_mul_inv]
      push_cast
      rfl
    rw [← hvalue]
    exact rounds_ofParts (isRounded_div_finite .positive .positive _ _)

/-! ## Decimals -/

/-- **A decimal becomes the number that it is rounded to.** -/
theorem rounds_ofScientific (m : ℕ) (negative : Bool) (e : ℕ) :
    Rounds (Float.ofScientific m negative e) (m * 10 ^ (if negative then -(e : ℤ) else e)) := by
  unfold Float.ofScientific
  split_ifs with hfew hneg hneg
  · have hsame : m.toUInt64.toNat = m := by
      show (UInt64.ofNat m).toNat = m
      rw [UInt64.toNat_ofNat']
      omega
    have hdigits := value?_toFloat (n := m.toUInt64) (by rw [hsame]; exact hfew.1)
    have hdiv := rounds_div hdigits (value?_powerOfTen (Nat.lt_succ_of_le hfew.2)) (by positivity)
    rw [hsame] at hdiv
    rwa [zpow_neg, zpow_natCast, ← div_eq_mul_inv]
  · have hsame : m.toUInt64.toNat = m := by
      show (UInt64.ofNat m).toNat = m
      rw [UInt64.toNat_ofNat']
      omega
    have hdigits := value?_toFloat (n := m.toUInt64) (by rw [hsame]; exact hfew.1)
    have hmul := rounds_mul hdigits (value?_powerOfTen (Nat.lt_succ_of_le hfew.2))
    rw [hsame] at hmul
    rwa [zpow_natCast]
  · have hparts := rounds_ofScientific_parts m (Int.negOfNat e)
    rwa [Int.negOfNat_eq] at hparts
  · exact rounds_ofScientific_parts m e

/-- **A whole number of 53 digits, written with a zero behind the point**, is that number. -/
theorem value?_whole {m n : ℕ} (hm : m = n * 10) (hn : n < 2 ^ 53) :
    value? (OfScientific.ofScientific m true 1) = some (n : ℚ) := by
  subst hm
  have hsame : ((n * 10 : ℕ) : ℚ) * 10 ^ (if true then -((1 : ℕ) : ℤ) else (1 : ℕ)) = n := by
    rw [if_pos rfl, zpow_neg, zpow_natCast]
    push_cast
    field_simp
  have hround := rounds_ofScientific (n * 10) true 1
  rw [hsame] at hround
  exact hround.exact (representable_natCast hn) (abs_natCast_lt_limit (by omega))

end LatencyReport.Binary64
