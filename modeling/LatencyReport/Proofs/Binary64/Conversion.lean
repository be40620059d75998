import LatencyReport.Proofs.Binary64.Scientific

/-!
# `Proofs.Binary64.Conversion` — natural numbers to numbers and back

A natural number is a decimal without a power of ten, so it becomes **the number that it is rounded to**
(`rounds_ofNat`). Back, a number that is not negative becomes **its whole part**, or the greatest 64-bit number if that is
less (`toNat_toUInt64`).

## Contents

* `rounds_ofNat`, `value?_ofNat`, `value?_ofNat_of_le`, `value?_toFloat_rounded` — from natural numbers, and from 64-bit
  ones;
* `toNat_toUInt64` — to natural numbers.
-/

namespace LatencyReport.Binary64

open Float.Model Float.Model.UnpackedFloat

/-! ## From natural numbers -/

/-- **A natural number is rounded.** -/
theorem rounds_ofNat (n : ℕ) : Rounds (Float.ofNat n) n := by
  have h := rounds_ofScientific n false 0
  rw [if_neg Bool.false_ne_true, Nat.cast_zero, zpow_zero, mul_one] at h
  exact h

theorem rounded_natCast_le {n : ℕ} (hn : n < 2 ^ 64) : rounded n ≤ 2 ^ (64 : ℤ) := by
  apply rounded_le (representable_two_zpow (by norm_num))
  exact_mod_cast hn.le

/-- What 64 bits are rounded to is not too great. -/
theorem Rounds.value_natCast {x : Float} {n : ℕ} (h : Rounds x n) (hn : n < 2 ^ 64) : value? x = some (rounded n) := by
  apply h.value
  rw [abs_of_nonneg (rounded_nonneg (Nat.cast_nonneg n))]
  exact lt_of_le_of_lt (rounded_natCast_le hn) (two_zpow_lt_limit (by norm_num))

theorem value?_ofNat {n : ℕ} (hn : n < 2 ^ 64) : value? (Float.ofNat n) = some (rounded n) :=
  (rounds_ofNat n).value_natCast hn

/-- A natural number up to `2 ^ 53` is a number itself. -/
theorem value?_ofNat_of_le {n : ℕ} (h : n ≤ 2 ^ 53) : value? (Float.ofNat n) = some (n : ℚ) := by
  rw [value?_ofNat (by omega), rounded_of_representable (representable_natCast_of_le h)]

theorem value?_toFloat_rounded (n : UInt64) : value? n.toFloat = some (rounded n.toNat) :=
  (rounds_toFloat n).value_natCast n.toNat_lt

/-! ## To natural numbers -/

/-- The digits before the point are the whole part. -/
theorem roundToInt_spec (m : ℕ) (e : ℤ) : roundToInt .positive m e = ⌊(m : ℚ) * 2 ^ e⌋ := by
  have hshift : ∀ m k : ℕ, ((ExtendedMantissa.ofMantissaAndAccuracy m .exact >>> k).mantissa : ℤ) = ⌊(m : ℚ) / 2 ^ k⌋ :=
    fun m k => ((stands_exact m).shiftRight k).floor_eq.symm
  rcases le_total 0 e with hle | hge
  · obtain ⟨n, hn, he⟩ := decreaseExponent_spec m hle
    have hsame : (m : ℚ) * 2 ^ e = ((m * 2 ^ n : ℕ) : ℚ) / 2 ^ 0 := by
      rw [he, zero_add, zpow_natCast, pow_zero, div_one]
      push_cast
      rfl
    unfold roundToInt
    rw [hn, hsame, ← hshift]
    rfl
  · obtain ⟨k, hk⟩ := Int.eq_ofNat_of_zero_le (neg_nonneg.mpr hge)
    have hsame : (m : ℚ) * 2 ^ e = m / 2 ^ k := by
      rw [← zpow_natCast, ← hk, zpow_neg, div_inv_eq_mul]
    unfold roundToInt
    rw [decreaseExponent_of_le m hge, hsame, ← hshift]
    simp only [shiftToExponent, zero_sub, hk, Int.toNat_natCast]
    rfl

theorem toNat_ofNatClamp (n : ℕ) : (UInt64.ofNatClamp n).toNat = min n (2 ^ 64 - 1) := by
  have hsize : UInt64.size = 2 ^ 64 := rfl
  unfold UInt64.ofNatClamp
  split_ifs with h
  · rw [UInt64.toNat_ofNatLT]
    omega
  · rw [UInt64.toNat_ofNatLT]
    omega

/-- **The whole part of a number that is not negative**, or the greatest 64-bit number if that is less. -/
theorem toNat_toUInt64 {x : Float} {v : ℚ} (h : value? x = some v) (hv : 0 ≤ v) :
    x.toUInt64.toNat = min ⌊v⌋.toNat (2 ^ 64 - 1) := by
  show (UInt64.ofNatClamp ((parts x).toInt 0 (UInt64.size - 1)).toNat).toNat = _
  unfold value? at h
  rw [toNat_ofNatClamp]
  cases hx : parts x with
  | zero s =>
    rw [hx] at h
    obtain rfl := Option.some.inj h
    rw [Int.floor_zero]
    rfl
  | finite s m e hpos =>
    rw [hx] at h
    obtain rfl := Option.some.inj h
    have hmag : (0 : ℚ) < m * 2 ^ e := by positivity
    cases s with
    | negative => exact absurd (neg_lt_zero.mpr hmag) (not_lt.mpr hv)
    | positive => rw [UnpackedFloat.toInt, roundToInt_spec, signed]
  | _ =>
    rw [hx] at h
    cases h

theorem toNat_toUInt64_le {x : Float} {v : ℚ} (h : value? x = some v) (hv : 0 ≤ v) : (x.toUInt64.toNat : ℚ) ≤ v := by
  have hmin : x.toUInt64.toNat ≤ ⌊v⌋.toNat := by
    rw [toNat_toUInt64 h hv]
    exact min_le_left _ _
  have hfloor : ((⌊v⌋.toNat : ℕ) : ℤ) = ⌊v⌋ := Int.toNat_of_nonneg (Int.floor_nonneg.mpr hv)
  have hcast : ((⌊v⌋.toNat : ℕ) : ℚ) = (⌊v⌋ : ℚ) := by exact_mod_cast hfloor
  calc (x.toUInt64.toNat : ℚ) ≤ (⌊v⌋.toNat : ℕ) := by exact_mod_cast hmin
    _ = (⌊v⌋ : ℚ) := hcast
    _ ≤ v := Int.floor_le v

end LatencyReport.Binary64
