import LatencyReport.Tick
import LatencyReport.Proofs.Binary64.Conversion
import LatencyReport.Proofs.Decimal.Shortest

/-!
# `Proofs.Tick.Powers` — which whole numbers are written as powers

A number is written as a power of two if its logarithm is hardly off a whole number. How far off the number itself may be
then **grows with the power**: for the power `2^n` it is the `6931473 / 10^16`-th part of it (`margin`). Up to `2^30` that is
less than one, so there only the powers themselves are written as powers. From `2^31` on the whole numbers beside a power
are written as the power too, one on each side at first and six millions just below `2^53`.

The text of a whole number is then decided by its distance from the powers. The margins of two powers never meet
(`IsNear.unique`), and what is near to none is written out (`format_of_value`).

## Contents

* `factor`, `isNearPower_iff` — what the comparison in natural numbers says of rationals;
* `log2_add_eq` — the power below a number;
* `margin`, `IsNear`, `isNearPower_iff_isNear` — the distance of whole numbers;
* `exponent?_eq_some_iff`, `roundHalfUp_eq`, `nearest_eq` — the two ways to write a number;
* `format_ofNat` — the texts of whole numbers.
-/

namespace LatencyReport.Tick

open Binary64 Decimal

/-! ## Powers and rationals -/

/-- The factor that a number may be off. -/
def factor (place : ℤ) : ℚ :=
  1 + excess place / logUnit

theorem isBelowFactor_iff {place : ℤ} {a b : ℕ} : isBelowFactor place a b = true ↔ (a : ℚ) < b * factor place := by
  have hunit : (0 : ℚ) < logUnit := by
    rw [logUnit]
    norm_num
  have hfactor : (b : ℚ) * factor place * logUnit = ((b * (logUnit + excess place) : ℕ) : ℚ) := by
    push_cast
    unfold factor
    field_simp
  rw [isBelowFactor, decide_eq_true_iff, ← mul_lt_mul_iff_left₀ hunit, hfactor]
  exact_mod_cast Iff.rfl

/-- **A number counts as a power if it is less than a factor away from it**, on the side where it is. -/
theorem isNearPower_iff (m : ℕ) (q n : ℤ) :
    isNearPower m q n = true ↔
      (m : ℚ) * 2 ^ q < 2 ^ n * factor (lastPlace n true) ∧ (2 : ℚ) ^ n < m * 2 ^ q * factor (lastPlace n false) := by
  have hpow : ∀ k : ℕ, Nat.pow 2 k = 2 ^ k := fun _ => rfl
  have hscale : (0 : ℚ) < 2 ^ (n - q).toNat / 2 ^ n := by positivity
  -- both sides are multiplied by the power of two that leaves whole numbers
  have hvalue : ((m * 2 ^ (q - n).toNat : ℕ) : ℚ) = m * 2 ^ q * (2 ^ (n - q).toNat / 2 ^ n) := by
    have hshift := zpow_mul_pow_toNat (b := (2 : ℚ)) two_ne_zero (q - n)
    rw [neg_sub, zpow_sub₀ two_ne_zero] at hshift
    push_cast
    rw [← hshift]
    ring
  have hpower : ((2 ^ (n - q).toNat : ℕ) : ℚ) = 2 ^ n * (2 ^ (n - q).toNat / 2 ^ n) := by
    push_cast
    field_simp
  unfold isNearPower
  simp only [Bool.and_eq_true, isBelowFactor_iff, hpow, hvalue, hpower]
  rw [mul_right_comm (2 ^ n : ℚ), mul_right_comm (m * 2 ^ q : ℚ), mul_lt_mul_iff_left₀ hscale, mul_lt_mul_iff_left₀ hscale]

/-- The greatest power of two that is not above a number, from the digits of its significand. -/
theorem log2_add_eq {m v : ℕ} {q : ℤ} (hm : m ≠ 0) (hv : (m : ℚ) * 2 ^ q = v) : (m.log2 : ℤ) + q = v.log2 := by
  have hv0 : v ≠ 0 := by
    rintro rfl
    rw [Nat.cast_zero] at hv
    exact absurd hv (mul_ne_zero (Nat.cast_ne_zero.mpr hm) (zpow_ne_zero q two_ne_zero))
  have hbounds : ∀ {k : ℕ}, k ≠ 0 → (2 : ℚ) ^ (k.log2 : ℤ) ≤ k ∧ (k : ℚ) < 2 ^ ((k.log2 : ℤ) + 1) := fun {k} hk => by
    refine ⟨?_, natCast_lt_two_zpow_log2 k⟩
    rw [zpow_natCast]
    exact_mod_cast Nat.log2_self_le hk
  obtain ⟨hmlow, hmhigh⟩ := hbounds hm
  obtain ⟨hvlow, hvhigh⟩ := hbounds hv0
  have hq : (0 : ℚ) < 2 ^ q := by positivity
  have hlow : (2 : ℚ) ^ ((m.log2 : ℤ) + q) < 2 ^ ((v.log2 : ℤ) + 1) :=
    calc (2 : ℚ) ^ ((m.log2 : ℤ) + q) = 2 ^ (m.log2 : ℤ) * 2 ^ q := zpow_add₀ two_ne_zero _ _
      _ ≤ m * 2 ^ q := mul_le_mul_of_nonneg_right hmlow hq.le
      _ = v := hv
      _ < 2 ^ ((v.log2 : ℤ) + 1) := hvhigh
  have hhigh : (2 : ℚ) ^ (v.log2 : ℤ) < 2 ^ ((m.log2 : ℤ) + 1 + q) :=
    calc (2 : ℚ) ^ (v.log2 : ℤ) ≤ v := hvlow
      _ = m * 2 ^ q := hv.symm
      _ < 2 ^ ((m.log2 : ℤ) + 1) * 2 ^ q := mul_lt_mul_of_pos_right hmhigh hq
      _ = 2 ^ ((m.log2 : ℤ) + 1 + q) := (zpow_add₀ two_ne_zero _ _).symm
  have hbelow := (zpow_lt_zpow_iff_right₀ one_lt_two).mp hlow
  have habove := (zpow_lt_zpow_iff_right₀ one_lt_two).mp hhigh
  omega

/-! ## Whole numbers beside a power -/

/-- How far from `2^n` a whole number may be that is written as this power. -/
def margin (n : ℕ) : ℕ :=
  6931473 * 2 ^ n / 10 ^ 16

/-- **A whole number is near to a power of two** if it is no further from it than the margin. -/
structure IsNear (v n : ℕ) : Prop where
  le_add : v ≤ 2 ^ n + margin n
  power_le_add : 2 ^ n ≤ v + margin n

instance (v n : ℕ) : Decidable (IsNear v n) :=
  decidable_of_iff (v ≤ 2 ^ n + margin n ∧ 2 ^ n ≤ v + margin n) ⟨fun h => ⟨h.1, h.2⟩, fun h => ⟨h.1, h.2⟩⟩

theorem three_mul_margin_lt (n : ℕ) : 3 * margin n < 2 ^ n := by
  have hpos : 0 < 2 ^ n := by positivity
  unfold margin
  omega

theorem margin_eq_zero {n : ℕ} (h : n ≤ 30) : margin n = 0 := by
  have hle : 2 ^ n ≤ 2 ^ 30 := Nat.pow_le_pow_right (by decide) h
  unfold margin
  omega

theorem isNear_self (n : ℕ) : IsNear (2 ^ n) n :=
  ⟨Nat.le_add_right _ _, Nat.le_add_right _ _⟩

/-- **A number is near to one power at most.** -/
theorem IsNear.unique {v n k : ℕ} (hn : IsNear v n) (hk : IsNear v k) : n = k := by
  have hapart : ∀ {n k : ℕ}, IsNear v n → IsNear v k → ¬n < k := by
    intro n k hn hk hlt
    have hdouble : 2 ^ (n + 1) ≤ 2 ^ k := Nat.pow_le_pow_right (by decide) hlt
    have hsmall := three_mul_margin_lt n
    have hsmall' := three_mul_margin_lt k
    have hle := hn.le_add
    have hge := hk.power_le_add
    rw [pow_succ] at hdouble
    omega
  exact le_antisymm (not_lt.mp (hapart hk hn)) (not_lt.mp (hapart hn hk))

/-- The power is the one below the number or the next. -/
theorem IsNear.eq_log2_or {v n : ℕ} (hv : v ≠ 0) (h : IsNear v n) : n = v.log2 ∨ n = v.log2 + 1 := by
  have hlow := Nat.log2_self_le hv
  have hhigh := @Nat.lt_log2_self v
  have hsmall := three_mul_margin_lt n
  have hle := h.le_add
  have hge := h.power_le_add
  by_contra hno
  rcases lt_or_gt_of_ne (not_or.mp hno).1 with hbelow | habove
  · have hdouble : 2 ^ (n + 1) ≤ 2 ^ v.log2 := Nat.pow_le_pow_right (by decide) hbelow
    rw [pow_succ] at hdouble
    omega
  · have hdouble : 2 ^ (v.log2 + 1 + 1) ≤ 2 ^ n := Nat.pow_le_pow_right (by decide) (by omega)
    rw [pow_succ] at hdouble
    omega

/-- Up to `2^53` the margin is where the factor ends: on either side the last number at this distance is less than the
    factor away, and the next one is not. -/
theorem margin_fits : ∀ n : Fin 54,
    (2 ^ (n : ℕ) + margin n) * logUnit < 2 ^ (n : ℕ) * (logUnit + excess (lastPlace n true)) ∧
    2 ^ (n : ℕ) * (logUnit + excess (lastPlace n true)) ≤ (2 ^ (n : ℕ) + margin n + 1) * logUnit ∧
    2 ^ (n : ℕ) * logUnit < (2 ^ (n : ℕ) - margin n) * (logUnit + excess (lastPlace n false)) ∧
    (2 ^ (n : ℕ) - margin n - 1) * (logUnit + excess (lastPlace n false)) ≤ 2 ^ (n : ℕ) * logUnit := by
  decide +kernel

/-- **A whole number counts as the powers that it is near to.** -/
theorem isNearPower_iff_isNear {m v n : ℕ} {q : ℤ} (hv : (m : ℚ) * 2 ^ q = v) (hn : n ≤ 53) :
    isNearPower m q n = true ↔ IsNear v n := by
  have hbelow : isNearPower m q n = true ↔
      isBelowFactor (lastPlace n true) v (2 ^ n) = true ∧ isBelowFactor (lastPlace n false) (2 ^ n) v = true := by
    rw [isNearPower_iff, hv, isBelowFactor_iff, isBelowFactor_iff]
    push_cast
    rw [zpow_natCast]
  obtain ⟨hlast, hnext, hlast', hnext'⟩ := margin_fits ⟨n, Nat.lt_succ_of_le hn⟩
  have hsmall := three_mul_margin_lt n
  rw [hbelow, isBelowFactor, isBelowFactor, decide_eq_true_iff, decide_eq_true_iff]
  constructor
  · rintro ⟨habove, hunder⟩
    refine ⟨Nat.lt_succ_iff.mp (Nat.lt_of_mul_lt_mul_right (habove.trans_le hnext)), ?_⟩
    have hlt : 2 ^ n - margin n - 1 < v := Nat.lt_of_mul_lt_mul_right (hnext'.trans_lt hunder)
    omega
  · rintro ⟨hle, hge⟩
    have hle' : 2 ^ n - margin n ≤ v := by omega
    exact ⟨(Nat.mul_le_mul_right logUnit hle).trans_lt hlast, hlast'.trans_le (Nat.mul_le_mul_right _ hle')⟩

/-! ## The text of a whole number -/

section
variable {x : Float} {v : ℕ}

theorem binaryParts_of_value (h : value? x = some (v : ℚ)) : ((binaryParts x).1 : ℚ) * 2 ^ (binaryParts x).2 = v := by
  rw [value_binaryParts h, abs_of_nonneg (Nat.cast_nonneg v)]

/-- **The exponent found is that of the power that the number is near to.** -/
theorem exponent?_eq_some_iff (h : value? x = some (v : ℚ)) (hpos : v ≠ 0) (hle : v ≤ 2 ^ 53) {e : ℤ} :
    exponent? x = some e ↔ ∃ n : ℕ, e = n ∧ IsNear v n := by
  have hv := binaryParts_of_value h
  have hm : (binaryParts x).1 ≠ 0 := by
    intro hzero
    rw [hzero, Nat.cast_zero, zero_mul] at hv
    exact hpos (Nat.cast_eq_zero.mp hv.symm)
  have hlog := log2_add_eq hm hv
  have hlog53 : v.log2 ≤ 53 := by
    have hlt := (Nat.log2_lt hpos).mpr (show v < 2 ^ 54 by omega)
    omega
  unfold exponent?
  simp only [hlog, isNearPower_iff_isNear hv hlog53]
  by_cases hbelow : IsNear v v.log2
  · rw [if_pos hbelow, Option.some.injEq]
    constructor
    · rintro rfl
      exact ⟨v.log2, rfl, hbelow⟩
    · rintro ⟨n, rfl, hn⟩
      rw [hn.unique hbelow]
  · -- `2^53` itself is near to the power below, so the next power is not too great
    have hnext53 : v.log2 + 1 ≤ 53 := by
      by_contra hgreat
      have hlow := Nat.log2_self_le hpos
      obtain hlast : v.log2 = 53 := by omega
      rw [hlast] at hlow hbelow
      exact hbelow ((le_antisymm hle hlow) ▸ isNear_self 53)
    have hnext := isNearPower_iff_isNear hv hnext53
    push_cast at hnext
    rw [if_neg hbelow]
    simp only [hnext]
    constructor
    · intro he
      split_ifs at he with habove
      exact ⟨v.log2 + 1, (Option.some.inj he).symm, habove⟩
    · rintro ⟨n, rfl, hn⟩
      rcases hn.eq_log2_or hpos with rfl | rfl
      · exact absurd hn hbelow
      · rw [if_pos hn]
        rfl

/-- A whole number is the nearest one to itself. -/
theorem roundHalfUp_eq {m : ℕ} {q : ℤ} (hv : (m : ℚ) * 2 ^ q = v) : roundHalfUp m q = v := by
  have hpow : ∀ k : ℕ, Nat.pow 2 k = 2 ^ k := fun _ => rfl
  have hshift : m * 2 ^ q.toNat = v * 2 ^ (-q).toNat := by
    have hscale := zpow_mul_pow_toNat (b := (2 : ℚ)) two_ne_zero q
    have hcast : (m : ℚ) * 2 ^ q.toNat = v * 2 ^ (-q).toNat := by
      rw [← hscale, ← mul_assoc, hv]
    exact_mod_cast hcast
  have hpos : 0 < 2 ^ (-q).toNat := by positivity
  have hhalf : 2 ^ (-q).toNat / (2 * 2 ^ (-q).toNat) = 0 := Nat.div_eq_of_lt (by omega)
  unfold roundHalfUp
  calc (2 * m * Nat.pow 2 q.toNat + Nat.pow 2 (-q).toNat) / (2 * Nat.pow 2 (-q).toNat)
      = (2 ^ (-q).toNat + 2 * 2 ^ (-q).toNat * v) / (2 * 2 ^ (-q).toNat) := by
        rw [hpow, hpow, mul_assoc, hshift]
        congr 1
        ring
    _ = 2 ^ (-q).toNat / (2 * 2 ^ (-q).toNat) + v := Nat.add_mul_div_left _ _ (by omega)
    _ = v := by rw [hhalf, Nat.zero_add]

/-- **A whole number is written out as it is.** -/
theorem nearest_eq (h : value? x = some (v : ℚ)) (hlt : v < 2 ^ 64) : nearest x = v := by
  have hgreatest : v ≤ greatest := by
    have hsize : UInt64.size = 2 ^ 64 := rfl
    unfold greatest
    omega
  unfold nearest
  rw [if_pos (isFinite_iff.mpr ⟨v, h⟩)]
  exact (congrArg (min · greatest) (roundHalfUp_eq (binaryParts_of_value h))).trans (min_eq_left hgreatest)

/-- The text of a whole number is that of the power it is near to, or its digits. -/
theorem format_of_value (h : value? x = some (v : ℚ)) (hpos : v ≠ 0) (hle : v ≤ 2 ^ 53) :
    (∃ n : ℕ, IsNear v n ∧ format x = "2^" ++ toString n) ∨ (∀ n, ¬IsNear v n) ∧ format x = toString v := by
  have hx : ¬x ≤ 0 := by
    rw [le_iff h value?_zero]
    exact not_le.mpr (Nat.cast_pos.mpr (Nat.pos_of_ne_zero hpos))
  have hfinite : x.isFinite = true := isFinite_iff.mpr ⟨v, h⟩
  unfold format
  rw [if_neg hx, if_pos hfinite]
  cases hexponent : exponent? x with
  | some e =>
    obtain ⟨n, rfl, hn⟩ := (exponent?_eq_some_iff h hpos hle).mp hexponent
    exact Or.inl ⟨n, hn, rfl⟩
  | none =>
    refine Or.inr ⟨fun n hn => ?_, congrArg toString (nearest_eq h (by omega))⟩
    rw [(exponent?_eq_some_iff h hpos hle).mpr ⟨n, rfl, hn⟩] at hexponent
    cases hexponent

end

/-- Digits are not the text of a power, and two powers do not have one text. -/
theorem digits_ne_power (v n : ℕ) : toString v ≠ "2^" ++ toString n := by
  intro heq
  have hchar : '^' ∈ (toString v).toList := by
    rw [heq, String.toList_append]
    exact List.mem_append_left _ (by decide)
  have hdigits : (toString v).toList = Nat.toDigits 10 v := Nat.toList_repr
  rw [hdigits] at hchar
  exact absurd (Nat.isDigit_of_mem_toDigits (by decide) (by decide) hchar) (by decide)

theorem power_text_injective {n k : ℕ} (h : "2^" ++ toString n = "2^" ++ toString k) : n = k :=
  Nat.repr_inj.mp (String.append_right_inj _ |>.mp h)

/-- Below `2^31 - 1` only the powers are near to a power. -/
theorem IsNear.eq_of_lt {v n : ℕ} (h : IsNear v n) (hlt : v < 2 ^ 31 - 1) : v = 2 ^ n := by
  have hsmall := three_mul_margin_lt n
  have hge := h.power_le_add
  have hn : n ≤ 30 := by
    by_contra hgreat
    rcases (show n = 31 ∨ 32 ≤ n by omega) with rfl | hmore
    · have hmargin : margin 31 = 1 := rfl
      omega
    · have hpower : 2 ^ 32 ≤ 2 ^ n := Nat.pow_le_pow_right (by decide) hmore
      omega
  have hmargin := margin_eq_zero hn
  have hle := h.le_add
  omega

/-- The number on either side of `2^31` is near to it, but none beside `2^30` is. -/
example : IsNear (2 ^ 31 - 1) 31 ∧ IsNear (2 ^ 31 + 1) 31 ∧ ¬IsNear (2 ^ 30 + 1) 30 := by
  decide

theorem ne_power_of_odd {v : ℕ} (hodd : v % 2 = 1) (hone : v ≠ 1) (n : ℕ) : v ≠ 2 ^ n := by
  rintro rfl
  cases n with
  | zero => exact hone rfl
  | succ n =>
    rw [pow_succ] at hodd
    omega

/-- **The texts of the whole numbers from one to `2^53`.** Such a number is written as `2^n` exactly if it is no further from
    this power than its margin, and with its digits exactly if it is near to no power. So the rule that the powers are
    written as powers, and all others with their digits, holds for a number exactly if it is near to no power but itself.
    It does for all numbers below `2^31 - 1`. -/
theorem format_ofNat {v : ℕ} (hpos : 1 ≤ v) (hle : v ≤ 2 ^ 53) :
    (∀ n : ℕ, format (Float.ofNat v) = "2^" ++ toString n ↔ IsNear v n) ∧
    (format (Float.ofNat v) = toString v ↔ ∀ n, ¬IsNear v n) ∧
    (((∀ n : ℕ, format (Float.ofNat v) = "2^" ++ toString n ↔ v = 2 ^ n) ∧
        ((∀ n, v ≠ 2 ^ n) → format (Float.ofNat v) = toString v)) ↔
      ∀ n, IsNear v n → v = 2 ^ n) ∧
    (v < 2 ^ 31 - 1 → ∀ n, IsNear v n → v = 2 ^ n) := by
  have htext := format_of_value (value?_ofNat_of_le hle) (by omega) hle
  have hpower : ∀ n : ℕ, format (Float.ofNat v) = "2^" ++ toString n ↔ IsNear v n := by
    intro n
    rcases htext with ⟨k, hk, hformat⟩ | ⟨hfar, hformat⟩
    · rw [hformat]
      constructor
      · intro heq
        rwa [← power_text_injective heq]
      · intro hn
        rw [hn.unique hk]
    · rw [hformat]
      exact ⟨fun heq => absurd heq (digits_ne_power v n), fun hn => absurd hn (hfar n)⟩
  have hdigits : format (Float.ofNat v) = toString v ↔ ∀ n, ¬IsNear v n := by
    constructor
    · intro heq n hn
      exact digits_ne_power v n (heq.symm.trans ((hpower n).mpr hn))
    · intro hfar
      rcases htext with ⟨k, hk, -⟩ | ⟨-, hformat⟩
      · exact absurd hk (hfar k)
      · exact hformat
  refine ⟨hpower, hdigits, ⟨?_, ?_⟩, fun hlt n hn => hn.eq_of_lt hlt⟩
  · rintro ⟨hlaw, -⟩ n hn
    exact (hlaw n).mp ((hpower n).mpr hn)
  · intro hnear
    refine ⟨fun n => (hpower n).trans ⟨hnear n, ?_⟩, fun hno => hdigits.mpr fun n hn => hno n (hnear n hn)⟩
    rintro rfl
    exact isNear_self n

/-- A power, and the number in front of it. -/
theorem format_ofNat_beside_power :
    format (Float.ofNat 4096) = "2^12" ∧ format (Float.ofNat 4095) = "4095" := by
  obtain ⟨hpower, -⟩ := format_ofNat (show 1 ≤ 4096 by decide) (by decide)
  obtain ⟨-, -, hlaw, hfew⟩ := format_ofNat (show 1 ≤ 4095 by decide) (by decide)
  obtain ⟨-, hdigits⟩ := hlaw.mpr (hfew (by decide))
  exact ⟨(hpower 12).mpr (isNear_self 12), hdigits (ne_power_of_odd rfl (by decide))⟩

/-- The number behind `2^31` is odd, and it is written as this power. -/
theorem power_written_of_neighbour :
    let v : ℕ := 2 ^ 31 + 1
    v ≤ 2 ^ 53 ∧ (∀ n, v ≠ 2 ^ n) ∧ toString v = "2147483649" ∧ format (Float.ofNat v) = "2^31" := by
  refine ⟨by decide, ne_power_of_odd (by decide) (by decide), by decide, ?_⟩
  decide +kernel

end LatencyReport.Tick
