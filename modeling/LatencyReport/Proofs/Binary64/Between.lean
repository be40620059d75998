import LatencyReport.Proofs.Binary64.Arithmetic

/-!
# `Proofs.Binary64.Between` — a value between two numbers

A value between two numbers is computed as the lower one and a part of the gap, and that rounds three times: the gap,
its part, and the sum. The gap can be rounded up, so that the lower number and all of it would be beyond the upper one.
But a part that is not the whole is less by `2 ^ -53` of it at least, and that is enough: what is rounded up in the gap
is less than a digit, and **the part of a rounded gap is not more than the gap was** (`rounded_mul_rounded_le_self`).
So the value stays between the two numbers (`value?_between`).

Where the last digit is the least one there is, nothing is rounded up: numbers are multiples of it, and so are their
differences (`Representable.sub`).

## Contents

* `ulpExponent_eq`, `rounded_eq_of_near` — what is rounded to a number that is near;
* `Representable.exists_multiple`, `Representable.sub` — differences that are exact;
* `Representable.fract`, `Representable.le_of_lt_one` — fractions;
* `exists_below_of_lt_rounded`, `rounded_part_eq`, `rounded_mul_rounded_le_self` — a part of a gap;
* `le_rounded_add`, `rounded_add_le`, `value?_between` — a value between two numbers.
-/

namespace LatencyReport.Binary64

/-! ## What is near to a number -/

/-- A full mantissa has its last digit at the exponent. -/
theorem ulpExponent_eq {m e : ℤ} (hlow : 2 ^ 52 ≤ m) (hhigh : m < 2 ^ 53) (he : -1074 ≤ e) :
    ulpExponent (m * 2 ^ e) = e := by
  have hpos : (0 : ℚ) < 2 ^ e := by positivity
  have habs : |(m : ℚ) * 2 ^ e| = 2 ^ e * m := by
    rw [abs_of_nonneg (mul_nonneg (by exact_mod_cast (by omega : 0 ≤ m)) hpos.le), mul_comm]
  apply le_antisymm
  · apply ulpExponent_le_of_lt he
    rw [habs, zpow_add₀ two_ne_zero]
    exact mul_lt_mul_of_pos_left (by exact_mod_cast hhigh) hpos
  · rw [le_ulpExponent_iff, habs, zpow_add₀ two_ne_zero]
    exact Or.inr (mul_le_mul_of_nonneg_left (by exact_mod_cast hlow) hpos.le)

/-- **What is above a number by less than half of its last digit is rounded to it.** -/
theorem rounded_eq_of_near {v q : ℚ} (h : Representable v) (hv : 0 ≤ v) (hle : v ≤ q)
    (hnear : q - v < 2 ^ ulpExponent v / 2) : rounded q = v := by
  set e := ulpExponent v with he
  set n := nearestInt (v / 2 ^ e)
  have hpos : (0 : ℚ) < 2 ^ e := by positivity
  have hmultiple : v = n * 2 ^ e := (rounded_of_representable h).symm
  -- up to the next multiple, the last digit has the same place
  have hplace : ulpExponent q = e := by
    apply le_antisymm
    · apply ulpExponent_le_of_lt (neg_1074_le_ulpExponent v)
      have hlt := abs_lt_of_ulpExponent v
      rw [abs_of_nonneg hv, ← he, zpow_add₀ two_ne_zero, mul_comm] at hlt
      have hint : (n : ℚ) < (2 ^ (53 : ℤ) : ℚ) := by
        rw [hmultiple] at hlt
        exact lt_of_mul_lt_mul_right hlt hpos.le
      have hnext : (n : ℚ) + 1 ≤ 2 ^ (53 : ℤ) := by
        have hcast : n < 2 ^ 53 := by exact_mod_cast hint
        exact_mod_cast (by omega : n + 1 ≤ 2 ^ 53)
      calc |q| = q := abs_of_nonneg (hv.trans hle)
        _ < (n + 1) * 2 ^ e := by linarith
        _ ≤ 2 ^ (53 : ℤ) * 2 ^ e := by gcongr
        _ = 2 ^ (e + 53) := by rw [add_comm, zpow_add₀ two_ne_zero]
    · apply ulpExponent_mono
      rwa [abs_of_nonneg hv, abs_of_nonneg (hv.trans hle)]
  rw [hmultiple]
  exact rounded_eq hplace (by linarith) (by linarith) (Or.inr ⟨by linarith, by linarith⟩)

/-! ## Differences and fractions that are exact -/

/-- A number is a multiple of the least last digit. -/
theorem Representable.exists_multiple {v : ℚ} (h : Representable v) : ∃ j : ℤ, v = j * 2 ^ (-1074 : ℤ) := by
  obtain ⟨m, e, -, he, rfl⟩ := h
  obtain ⟨k, hk⟩ := Int.eq_ofNat_of_zero_le (by omega : 0 ≤ e + 1074)
  have hsum : e = k + -1074 := by omega
  refine ⟨m * 2 ^ k, ?_⟩
  rw [hsum, zpow_add₀ two_ne_zero, zpow_natCast, ← mul_assoc, Int.cast_mul, Int.cast_pow, Int.cast_ofNat]

/-- **A difference whose last digit is the least one is exact.** -/
theorem Representable.sub {a b : ℚ} (ha : Representable a) (hb : Representable b) (h : ulpExponent (a - b) = -1074) :
    Representable (a - b) := by
  have hlt := abs_lt_of_ulpExponent (a - b)
  obtain ⟨i, hi⟩ := ha.exists_multiple
  obtain ⟨j, hj⟩ := hb.exists_multiple
  have hpos : (0 : ℚ) < 2 ^ (-1074 : ℤ) := by positivity
  have hmultiple : a - b = ((i - j : ℤ) : ℚ) * 2 ^ (-1074 : ℤ) := by rw [hi, hj, ← sub_mul, Int.cast_sub]
  rw [h, hmultiple, abs_mul, abs_of_pos hpos, zpow_add₀ two_ne_zero, mul_comm] at hlt
  have hfew : |((i - j : ℤ) : ℚ)| < 2 ^ (53 : ℤ) := lt_of_mul_lt_mul_left hlt hpos.le
  exact ⟨i - j, -1074, by exact_mod_cast hfew, le_refl _, hmultiple⟩

/-- **What a number is above its whole part is exact.** -/
theorem Representable.fract {r : ℚ} (h : Representable r) (hr : 0 ≤ r) : Representable (Int.fract r) := by
  obtain ⟨m, e, hm, he, rfl⟩ := h
  have hpos : (0 : ℚ) < 2 ^ e := by positivity
  obtain ⟨n, rfl⟩ := Int.eq_ofNat_of_zero_le (Int.cast_nonneg_iff.mp (nonneg_of_mul_nonneg_left hr hpos))
  rcases le_total 0 e with hwhole | hpart
  · obtain ⟨k, rfl⟩ := Int.eq_ofNat_of_zero_le hwhole
    have hint : ((n : ℤ) : ℚ) * 2 ^ (k : ℤ) = ((n * 2 ^ k : ℕ) : ℚ) := by
      push_cast
      rw [zpow_natCast]
    rw [hint, Int.fract_natCast]
    exact representable_zero
  · obtain ⟨k, hk⟩ := Int.eq_ofNat_of_zero_le (neg_nonneg.mpr hpart)
    have hpow : (2 : ℚ) ^ e = (((2 ^ k : ℕ) : ℚ))⁻¹ := by
      rw [← neg_neg e, hk, zpow_neg, zpow_natCast, Nat.cast_pow, Nat.cast_ofNat]
    refine ⟨(n % 2 ^ k : ℕ), e, ?_, he, ?_⟩
    · have hle := Nat.mod_le n (2 ^ k)
      rw [Nat.abs_cast] at hm ⊢
      omega
    · rw [hpow, ← div_eq_mul_inv, ← div_eq_mul_inv, Int.cast_natCast, Int.cast_natCast,
        Int.fract_div_natCast_eq_div_natCast_mod]

/-- **A number below one is below it by `2 ^ -53` at least.** -/
theorem Representable.le_of_lt_one {t : ℚ} (h : Representable t) (ht0 : 0 ≤ t) (ht : t < 1) :
    t ≤ 1 - 2 ^ (-53 : ℤ) := by
  set e := ulpExponent t with he
  set n := nearestInt (t / 2 ^ e)
  have hpos : (0 : ℚ) < 2 ^ e := by positivity
  have hmultiple : t = n * 2 ^ e := (rounded_of_representable h).symm
  have hplace : e ≤ -53 := by
    apply ulpExponent_le_of_lt (by norm_num)
    rwa [abs_of_nonneg ht0, neg_add_cancel, zpow_zero]
  have hfew : n ≤ 2 ^ 53 - 1 := by
    have hlt := div_two_zpow_lt t
    rw [← he, hmultiple, mul_div_assoc, div_self hpos.ne', mul_one] at hlt
    have hcast : n < 2 ^ 53 := by exact_mod_cast (le_abs_self _).trans_lt hlt
    omega
  calc t = n * 2 ^ e := hmultiple
    _ ≤ (2 ^ 53 - 1) * 2 ^ e := by
        gcongr
        exact_mod_cast hfew
    _ ≤ (2 ^ 53 - 1) * 2 ^ (-53 : ℤ) := by
        gcongr
        norm_num
    _ = 1 - 2 ^ (-53 : ℤ) := by norm_num

/-! ## A value between two numbers -/

/-- **What is rounded up** stands between a number of 53 digits and the next one, unless its last digit is the least. -/
theorem exists_below_of_lt_rounded {q : ℚ} (hq : 0 ≤ q) (hplace : -1074 < ulpExponent q) (hup : q < rounded q) :
    ∃ m e : ℤ, 2 ^ 52 ≤ m ∧ m < 2 ^ 53 ∧ -1074 ≤ e ∧ m * 2 ^ e ≤ q ∧ rounded q = (m + 1) * 2 ^ e := by
  set e := ulpExponent q with he
  set n := nearestInt (q / 2 ^ e) with hn
  have hpos : (0 : ℚ) < 2 ^ e := by positivity
  have hround : rounded q = n * 2 ^ e := rfl
  have hmore : q / 2 ^ e < n := by
    rw [div_lt_iff₀ hpos]
    exact hup
  have hfull : (2 : ℚ) ^ (52 : ℤ) ≤ q / 2 ^ e := by
    rcases le_ulpExponent_iff.mp (le_refl e) with hleast | hhigh
    · omega
    · rw [abs_of_nonneg hq, add_comm, zpow_add₀ two_ne_zero] at hhigh
      rwa [le_div_iff₀ hpos]
  have hlow : (2 : ℤ) ^ 52 < n := by exact_mod_cast hfull.trans_lt hmore
  have hhigh : n ≤ 2 ^ 53 := by
    have hle : |n| ≤ (2 ^ 53 : ℕ) := abs_nearestInt_le (by exact_mod_cast (div_two_zpow_lt q).le)
    exact_mod_cast (le_abs_self n).trans hle
  have hfloor : n - 1 ≤ ⌊q / 2 ^ e⌋ := by
    have h := nearestInt_le_floor_add_one (q / 2 ^ e)
    omega
  refine ⟨n - 1, e, by omega, by omega, hplace.le, ?_, ?_⟩
  · rw [← le_div_iff₀ hpos]
    exact (Int.cast_le.mpr hfloor).trans (Int.floor_le _)
  · rw [hround, Int.cast_sub, Int.cast_one, sub_add_cancel]

/-- **The greatest part of a number is rounded to the number below it.** -/
theorem rounded_part_eq {m e : ℤ} (hlow : 2 ^ 52 ≤ m) (hhigh : m < 2 ^ 53) (he : -1074 ≤ e) :
    rounded ((m + 1) * 2 ^ e * (1 - 2 ^ (-53 : ℤ))) = m * 2 ^ e := by
  have hpos : (0 : ℚ) < 2 ^ e := by positivity
  have hlowQ : (2 : ℚ) ^ 52 ≤ m := by exact_mod_cast hlow
  have hhighQ : (m : ℚ) + 1 ≤ 2 ^ 53 := by exact_mod_cast (by omega : m + 1 ≤ 2 ^ 53)
  have hrep : Representable (m * 2 ^ e) := ⟨m, e, by rw [abs_of_nonneg (by omega)]; exact hhigh, he, rfl⟩
  have hexact : ((m : ℚ) + 1) * 2 ^ e * (1 - 2 ^ (-53 : ℤ)) = m * 2 ^ e + (1 - (m + 1) / 2 ^ 53) * 2 ^ e := by
    have hpart : (2 : ℚ) ^ (-53 : ℤ) = 1 / 2 ^ 53 := by norm_num
    rw [hpart]
    ring
  have hrest : (0 : ℚ) ≤ 1 - (m + 1) / 2 ^ 53 ∧ 1 - ((m : ℚ) + 1) / 2 ^ 53 < 1 / 2 := by
    constructor <;> linarith
  rw [hexact]
  apply rounded_eq_of_near hrep
  · positivity
  · exact le_add_of_nonneg_right (mul_nonneg hrest.1 hpos.le)
  · have hhalf := mul_lt_mul_of_pos_right hrest.2 hpos
    rw [ulpExponent_eq hlow hhigh he, add_sub_cancel_left]
    linarith

/-- **A part of a rounded gap is not more than the gap**, unless it is the whole. If the gap was rounded up, the part is
    rounded down. -/
theorem rounded_mul_rounded_le_self {gap t : ℚ} (hgap : 0 ≤ gap)
    (hexact : ulpExponent gap = -1074 → Representable gap) (ht : t ≤ 1 - 2 ^ (-53 : ℤ)) :
    rounded (rounded gap * t) ≤ gap := by
  have hpart : rounded gap * t ≤ rounded gap * (1 - 2 ^ (-53 : ℤ)) :=
    mul_le_mul_of_nonneg_left ht (rounded_nonneg hgap)
  rcases le_or_gt (rounded gap) gap with hdown | hup
  · have hle : rounded gap * (1 - 2 ^ (-53 : ℤ)) ≤ rounded gap :=
      mul_le_of_le_one_right (rounded_nonneg hgap) (sub_le_self _ (by positivity))
    exact (rounded_le (representable_rounded gap) (hpart.trans hle)).trans hdown
  · have hplace : -1074 < ulpExponent gap := by
      refine lt_of_le_of_ne (neg_1074_le_ulpExponent gap) fun hleast => ?_
      rw [rounded_of_representable (hexact hleast.symm)] at hup
      exact lt_irrefl _ hup
    obtain ⟨m, e, hlow, hhigh, he, hbelow, hround⟩ := exists_below_of_lt_rounded hgap hplace hup
    rw [hround] at hpart ⊢
    calc rounded ((m + 1) * 2 ^ e * t) ≤ rounded ((m + 1) * 2 ^ e * (1 - 2 ^ (-53 : ℤ))) := rounded_mono hpart
      _ = m * 2 ^ e := rounded_part_eq hlow hhigh he
      _ ≤ gap := hbelow

section
variable {a b t : ℚ} (ha : Representable a) (hb : Representable b) (hab : a ≤ b) (ht0 : 0 ≤ t)
include ha hab ht0

/-- **A value between two numbers is not below the lower one.** -/
theorem le_rounded_add : a ≤ rounded (a + rounded (rounded (b - a) * t)) := by
  apply le_rounded ha
  have hpart : 0 ≤ rounded (rounded (b - a) * t) :=
    rounded_nonneg (mul_nonneg (rounded_nonneg (sub_nonneg.mpr hab)) ht0)
  linarith

include hb

/-- **A value between two numbers is not above the upper one.** -/
theorem rounded_add_le (ht : Representable t) (ht1 : t < 1) : rounded (a + rounded (rounded (b - a) * t)) ≤ b := by
  apply rounded_le hb
  have hpart := rounded_mul_rounded_le_self (sub_nonneg.mpr hab) (hb.sub ha) (ht.le_of_lt_one ht0 ht1)
  linarith

end

/-- **A value that is computed between two numbers stays between them**, and nothing on the way is infinite. -/
theorem value?_between {x y z : Float} {a b t : ℚ} (hx : value? x = some a) (hy : value? y = some b)
    (hz : value? z = some t) (ha0 : 0 ≤ a) (hab : a ≤ b) (ht0 : 0 ≤ t) (ht1 : t < 1) :
    ∃ p, value? (x + (y - x) * z) = some p ∧ a ≤ p ∧ p ≤ b := by
  have ha := representable_of_value? hx
  have hb := representable_of_value? hy
  have ht := representable_of_value? hz
  have hb0 : 0 ≤ b := ha0.trans hab
  have hfinite : ∀ {q : ℚ}, 0 ≤ q → q ≤ b → |q| < limit := by
    intro q hq hle
    have hlimit := abs_lt_limit hy
    rw [abs_of_nonneg hb0] at hlimit
    rw [abs_of_nonneg hq]
    exact hle.trans_lt hlimit
  have hgap0 : 0 ≤ rounded (b - a) := rounded_nonneg (sub_nonneg.mpr hab)
  have hgap : rounded (b - a) ≤ b := rounded_le hb (sub_le_self b ha0)
  have hpart0 : 0 ≤ rounded (rounded (b - a) * t) := rounded_nonneg (mul_nonneg hgap0 ht0)
  have hpart : rounded (rounded (b - a) * t) ≤ b :=
    (rounded_le (representable_rounded _) (mul_le_of_le_one_right hgap0 ht1.le)).trans hgap
  have hsum : rounded (a + rounded (rounded (b - a) * t)) ≤ b := rounded_add_le ha hb hab ht0 ht ht1
  have hyx := (rounds_sub hy hx).value (hfinite hgap0 hgap)
  have hmul := (rounds_mul hyx hz).value (hfinite hpart0 hpart)
  have hadd := (rounds_add hx hmul).value (hfinite (rounded_nonneg (add_nonneg ha0 hpart0)) hsum)
  exact ⟨_, hadd, le_rounded_add ha hab ht0, hsum⟩

end LatencyReport.Binary64
