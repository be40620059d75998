import LatencyReport.Proofs.Binary64.Encoding

/-!
# `Proofs.Binary64.Arithmetic` — every operation rounds its exact result

An operation computes with whole numbers: a mantissa, and for what lies below its last digit two residual digits, one
for the half and one for anything less. Digits that are cut off pass through these two, so that **a mantissa with its
residual digits always stands for the exact rational** (`Stands`), as far as rounding has to know. Rounding the mantissa
by them gives the nearest integer (`Stands.roundedMantissa`), and where the last digit is to be is found from the length
of the mantissa (`targetExponent_eq_ulpExponent`).

So what is rounded by digits is the rational that `rounded` gives (`roundWithAccuracy_spec`), and that carries over to
sums, products and quotients of what is finite. A result whose exponent is too great is an infinity.

## Contents

* `Stands`, `roundWithAccuracy_spec` — rounding by digits;
* `IsRounded`, `isRounded_mul_finite`, `isRounded_div_finite` — mantissas of any length;
* `isRounded_add`, `isRounded_mul`, `isRounded_div` — operations on parts;
* `Rounds`, `value?_neg`, `rounds_add`, `rounds_sub`, `rounds_mul`, `rounds_div` — operations on numbers;
* `parts_add`, `parts_mul`, `parts_div` — operations on what may be no rational.
-/

namespace LatencyReport.Binary64

open Float.Model Float.Model.UnpackedFloat

/-! ## Residual digits -/

/-- A mantissa with its residual digits stands for a rational: what is left below the half is told only to be there. -/
def Stands (em : ExtendedMantissa) (x : ℚ) : Prop :=
  ∃ r : ℚ, x = em.mantissa + (if em.roundBit then 1 / 2 else 0) + r ∧ 0 ≤ r ∧ r < 1 / 2 ∧
    (em.stickyBit = true ↔ r ≠ 0)

theorem stands_exact (m : ℕ) : Stands (.ofMantissaAndAccuracy m .exact) m := by
  refine ⟨0, ?_, le_refl 0, by norm_num, by simp [ExtendedMantissa.ofMantissaAndAccuracy]⟩
  simp [ExtendedMantissa.ofMantissaAndAccuracy]

/-- The residual digits of a quotient are found from what is left of the division. -/
theorem stands_fraction (m : ℕ) {num den : ℕ} (h : num < den) :
    Stands (.ofMantissaAndAccuracy m (accuracyOfFraction num den)) (m + num / den) := by
  have hden : (0 : ℚ) < den := by exact_mod_cast Nat.zero_lt_of_lt h
  unfold accuracyOfFraction
  split_ifs with hnum
  · rw [hnum, Nat.cast_zero, zero_div, add_zero]
    exact stands_exact m
  · have hpos : (0 : ℚ) < num := by exact_mod_cast Nat.pos_of_ne_zero hnum
    have hone : (num : ℚ) / den < 1 := by
      rw [div_lt_one hden]
      exact_mod_cast h
    rcases lt_trichotomy (2 * num) den with hlt | heq | hgt
    · rw [compare_lt_iff_lt.mpr hlt]
      have hhalf : (num : ℚ) / den < 1 / 2 := by
        have hcast : (2 * num : ℚ) < den := by exact_mod_cast hlt
        rw [div_lt_div_iff₀ hden (by norm_num)]
        linarith
      have hne : (num : ℚ) / den ≠ 0 := by positivity
      refine ⟨num / den, ?_, by positivity, hhalf, iff_of_true rfl hne⟩
      simp [ExtendedMantissa.ofMantissaAndAccuracy]
    · rw [compare_eq_iff_eq.mpr heq]
      have hhalf : (num : ℚ) / den = 1 / 2 := by
        have hcast : (2 * num : ℚ) = den := by exact_mod_cast heq
        rw [div_eq_div_iff hden.ne' (by norm_num)]
        linarith
      refine ⟨0, ?_, le_refl 0, by norm_num, by simp [ExtendedMantissa.ofMantissaAndAccuracy]⟩
      simp [ExtendedMantissa.ofMantissaAndAccuracy, hhalf]
    · rw [compare_gt_iff_gt.mpr hgt]
      have hhalf : (1 : ℚ) / 2 < num / den := by
        have hcast : (den : ℚ) < 2 * num := by exact_mod_cast hgt
        rw [div_lt_div_iff₀ (by norm_num) hden]
        linarith
      have hne : (num : ℚ) / den - 1 / 2 ≠ 0 := by linarith
      refine ⟨num / den - 1 / 2, ?_, by linarith, by linarith, iff_of_true rfl hne⟩
      simp [ExtendedMantissa.ofMantissaAndAccuracy]

namespace Stands

variable {em : ExtendedMantissa} {x : ℚ}

/-- A digit that is cut off becomes the half, and what was the half is only told to be there. -/
theorem shiftRightOne (h : Stands em x) : Stands em.shiftRightOne (x / 2) := by
  obtain ⟨r, rfl, hnonneg, hlt, hsticky⟩ := h
  have hdigits : (em.mantissa : ℚ) = 2 * (em.mantissa / 2 : ℕ) + (em.mantissa % 2 : ℕ) := by
    exact_mod_cast (Nat.div_add_mod em.mantissa 2).symm
  -- below the new half there are a quarter, if there was a half, and half of what was left
  refine ⟨(if em.roundBit then 1 / 4 else 0) + r / 2, ?_, ?_, ?_, ?_⟩
  · show _ = ((em.mantissa / 2 : ℕ) : ℚ) + (if (em.mantissa % 2 != 0) = true then 1 / 2 else 0) + _
    rw [hdigits]
    rcases Nat.mod_two_eq_zero_or_one em.mantissa with hm | hm <;> rw [hm] <;> split_ifs <;> simp_all <;> ring
  · split_ifs <;> positivity
  · split_ifs <;> linarith
  · show (em.roundBit || em.stickyBit) = true ↔ _
    rw [Bool.or_eq_true, hsticky]
    split_ifs with hround <;> simp [hround]
    positivity

theorem shiftRight (h : Stands em x) (n : ℕ) : Stands (em >>> n) (x / 2 ^ n) := by
  induction n with
  | zero =>
    rw [pow_zero, div_one]
    exact h
  | succ n ih =>
    have hstep := ih.shiftRightOne
    rw [div_div, ← pow_succ] at hstep
    exact hstep

theorem mantissa_le (h : Stands em x) : (em.mantissa : ℚ) ≤ x := by
  obtain ⟨r, rfl, hnonneg, hlt, -⟩ := h
  split_ifs <;> linarith

theorem lt_mantissa (h : Stands em x) : x < em.mantissa + 1 := by
  obtain ⟨r, rfl, hnonneg, hlt, -⟩ := h
  split_ifs <;> linarith

theorem floor_eq (h : Stands em x) : ⌊x⌋ = em.mantissa := by
  rw [Int.floor_eq_iff]
  exact ⟨by exact_mod_cast h.mantissa_le, by exact_mod_cast h.lt_mantissa⟩

/-- **A mantissa that is rounded by its residual digits is the nearest integer.** -/
theorem roundedMantissa (h : Stands em x) : (em.roundedMantissa : ℤ) = nearestInt x := by
  have hfloor := h.floor_eq
  obtain ⟨r, hx, hnonneg, hlt, hsticky⟩ := h
  have hfract : Int.fract x = (if em.roundBit then 1 / 2 else 0) + r := by
    rw [Int.fract, hfloor, hx]
    push_cast
    ring
  obtain ⟨m, round, sticky⟩ := em
  have hzero : sticky = false → r = 0 := by
    intro hno
    by_contra hne
    rw [hno] at hsticky
    exact Bool.false_ne_true (hsticky.mpr hne)
  have hpos : sticky = true → 0 < r := fun hyes => lt_of_le_of_ne hnonneg (hsticky.mp hyes).symm
  unfold nearestInt
  rw [hfract, hfloor]
  cases round with
  | false =>
    -- below the half: the mantissa stays, whatever is left
    have hbelow : (if false = true then (1 : ℚ) / 2 else 0) + r < 1 / 2 := by
      rw [if_neg Bool.false_ne_true, zero_add]
      exact hlt
    rw [if_pos hbelow]
    cases sticky <;> rfl
  | true =>
    rw [if_pos rfl]
    cases sticky with
    | false =>
      rw [hzero rfl, add_zero, if_neg (lt_irrefl _), if_neg (lt_irrefl _)]
      rfl
    | true =>
      have hmore := hpos rfl
      rw [if_neg (by linarith), if_pos (by linarith)]
      rfl

end Stands

/-! ## Rounding by digits -/

theorem targetExponent_eq (m : ℕ) (e : ℤ) :
    Format.binary64.targetExponent (totalExponent m e) = max (m.log2 + 1 + e - 53) (-1074) :=
  rfl

theorem targetExponent_le_ulpExponent {m : ℕ} {e : ℤ} {x : ℚ} (hm : m ≠ 0) (hle : (m : ℚ) ≤ x) :
    Format.binary64.targetExponent (totalExponent m e) ≤ ulpExponent (x * 2 ^ e) := by
  rw [targetExponent_eq]
  apply max_le _ (neg_1074_le_ulpExponent _)
  rw [le_ulpExponent_iff]
  right
  have hlog : ((2 ^ m.log2 : ℕ) : ℚ) ≤ x := le_trans (by exact_mod_cast Nat.log2_self_le hm) hle
  push_cast at hlog
  have hexp : (m.log2 : ℤ) + 1 + e - 53 + 52 = m.log2 + e := by ring
  rw [hexp, zpow_add₀ two_ne_zero, zpow_natCast]
  calc (2 : ℚ) ^ m.log2 * 2 ^ e ≤ x * 2 ^ e := by gcongr
    _ ≤ |x * 2 ^ e| := le_abs_self _

/-- **The length of a mantissa tells where the last digit is to be**, unless the exponent is beyond that already. -/
theorem targetExponent_eq_ulpExponent {m : ℕ} {e : ℤ} {x : ℚ} (hle : (m : ℚ) ≤ x) (hlt : x < m + 1)
    (he : e ≤ ulpExponent (x * 2 ^ e)) : Format.binary64.targetExponent (totalExponent m e) = ulpExponent (x * 2 ^ e) := by
  have hx : (0 : ℚ) ≤ x := (Nat.cast_nonneg m).trans hle
  apply le_antisymm
  · by_cases hm : m = 0
    · have hplace := neg_1074_le_ulpExponent (x * 2 ^ e)
      rw [hm, targetExponent_eq, Nat.log2_zero]
      omega
    · exact targetExponent_le_ulpExponent hm hle
  · rw [targetExponent_eq]
    apply ulpExponent_le_of_lt (le_max_right _ _)
    have hlog : (m : ℚ) + 1 ≤ (2 ^ (m.log2 + 1) : ℕ) := by exact_mod_cast Nat.lt_log2_self
    push_cast at hlog
    calc |x * 2 ^ e| = x * 2 ^ e := abs_of_nonneg (by positivity)
      _ < 2 ^ (m.log2 + 1) * 2 ^ e := by
          gcongr
          linarith
      _ = 2 ^ ((m.log2 : ℤ) + 1 + e) := by
          rw [zpow_add₀ two_ne_zero]
          norm_cast
      _ ≤ 2 ^ (max ((m.log2 : ℤ) + 1 + e - 53) (-1074) + 53) := zpow_le_zpow_right₀ one_le_two (by omega)

/-- Digits are cut off up to the last one, and the rest stands for the same rational. -/
theorem stands_shiftToTargetExponent {m : ℕ} {e : ℤ} {acc : Accuracy} {x : ℚ}
    (hx : Stands (.ofMantissaAndAccuracy m acc) x) (he : e ≤ ulpExponent (x * 2 ^ e)) :
    ∃ em, shiftToTargetExponent Format.binary64 m e acc = (em, ulpExponent (x * 2 ^ e)) ∧
      Stands em (x * 2 ^ e / 2 ^ ulpExponent (x * 2 ^ e)) := by
  have hm : (ExtendedMantissa.ofMantissaAndAccuracy m acc).mantissa = m := by
    rcases acc with _ | (_ | _ | _) <;> rfl
  have hle := hx.mantissa_le
  have hlt := hx.lt_mantissa
  rw [hm] at hle hlt
  have htarget := targetExponent_eq_ulpExponent hle hlt he
  obtain ⟨n, hn⟩ := Int.eq_ofNat_of_zero_le (sub_nonneg.mpr he)
  have hquot : x * 2 ^ e / 2 ^ ulpExponent (x * 2 ^ e) = x / 2 ^ n := by
    have hsum : ulpExponent (x * 2 ^ e) = n + e := by omega
    rw [hsum, zpow_add₀ two_ne_zero, zpow_natCast]
    exact mul_div_mul_right _ _ (by positivity)
  refine ⟨ExtendedMantissa.ofMantissaAndAccuracy m acc >>> n, ?_, ?_⟩
  · unfold shiftToTargetExponent shiftToExponent
    simp only [htarget, hn, Int.toNat_natCast]
    congr 1
    omega
  · rw [hquot]
    exact hx.shiftRight n

/-- **What is rounded by digits is the rounded rational**, in canonical form. The digits are cut off twice, since rounding
    up can make the mantissa one digit longer; the second time they are zeros. -/
theorem roundWithAccuracy_spec (s : Sign) {m : ℕ} {e : ℤ} {acc : Accuracy} {x : ℚ}
    (hx : Stands (.ofMantissaAndAccuracy m acc) x) (he : e ≤ ulpExponent (x * 2 ^ e)) :
    Canonical (roundWithAccuracy Format.binary64 s m e acc) ∧
      partsValue? (roundWithAccuracy Format.binary64 s m e acc) = some (signed s (rounded (x * 2 ^ e))) := by
  obtain ⟨em, hfirst, hem⟩ := stands_shiftToTargetExponent hx he
  set q := x * 2 ^ e
  -- the first pass rounds, and the second finds the place of the last digit of what was rounded
  have hround : (em.roundedMantissa : ℚ) * 2 ^ ulpExponent q = rounded q := by
    rw [rounded, ← hem.roundedMantissa, Int.cast_natCast]
  have hnext : ulpExponent q ≤ ulpExponent (em.roundedMantissa * 2 ^ ulpExponent q) := by
    rw [hround]
    exact ulpExponent_le_ulpExponent_rounded q
  obtain ⟨em', hsecond, hem'⟩ := stands_shiftToTargetExponent (stands_exact em.roundedMantissa) hnext
  rw [hround] at hsecond hem'
  have hpos : (0 : ℚ) < 2 ^ ulpExponent (rounded q) := by positivity
  have hmantissa : (em'.mantissa : ℚ) = rounded q / 2 ^ ulpExponent (rounded q) := by
    have hfloor := hem'.floor_eq
    rw [rounded_div_eq, Int.floor_intCast] at hfloor
    rw [rounded_div_eq, hfloor, Int.cast_natCast]
  have hvalue : (em'.mantissa : ℚ) * 2 ^ ulpExponent (rounded q) = rounded q := by
    rw [hmantissa]
    exact div_mul_cancel₀ _ hpos.ne'
  have hunfold : roundWithAccuracy Format.binary64 s m e acc =
      if h : em'.mantissa = 0 then .zero s
      else .finite s em'.mantissa (ulpExponent (rounded q)) (Nat.pos_of_ne_zero h) := by
    unfold roundWithAccuracy
    rw [hfirst]
    simp only [hsecond]
  rw [hunfold]
  split_ifs with hzero
  · rw [hzero, Nat.cast_zero, zero_mul] at hvalue
    refine ⟨trivial, ?_⟩
    rw [← hvalue]
    cases s <;> simp [partsValue?, signed]
  · refine ⟨⟨?_, neg_1074_le_ulpExponent _, ?_⟩, ?_⟩
    · have hlt := div_two_zpow_lt (rounded q)
      rw [← hmantissa, Nat.abs_cast] at hlt
      exact_mod_cast hlt
    · rcases le_ulpExponent_iff.mp (le_refl (ulpExponent (rounded q))) with hlow | hhigh
      · exact Or.inr (le_antisymm hlow (neg_1074_le_ulpExponent _))
      · left
        have hnonneg : 0 ≤ rounded q := by
          rw [← hvalue]
          positivity
        rw [abs_of_nonneg hnonneg, add_comm, zpow_add₀ two_ne_zero] at hhigh
        have hle : (2 : ℚ) ^ (52 : ℤ) ≤ em'.mantissa := by
          rw [hmantissa, le_div_iff₀ hpos]
          exact hhigh
        exact_mod_cast hle
    · rw [partsValue?, hvalue]

/-! ## Operations on parts -/

/-- Parts that stand for a rounded rational, in canonical form. -/
def IsRounded (u : UnpackedFloat) (q : ℚ) : Prop :=
  Canonical u ∧ partsValue? u = some (rounded q)

theorem isRounded_of_parts {u : UnpackedFloat} {q : ℚ} (h : Canonical u) (hq : partsValue? u = some q) :
    IsRounded u q :=
  ⟨h, by rw [rounded_of_representable (representable_of_parts h hq), hq]⟩

theorem rounded_signed (s : Sign) (q : ℚ) : rounded (signed s q) = signed s (rounded q) := by
  cases s with
  | negative => exact rounded_neg q
  | positive => rfl

theorem signed_mul (s s' : Sign) (p q : ℚ) : signed (s * s') (p * q) = signed s p * signed s' q := by
  cases s <;> cases s'
  · show p * q = -p * -q
    ring
  · show -(p * q) = -p * q
    ring
  · show -(p * q) = p * -q
    ring
  · rfl

theorem signed_div (s s' : Sign) (p q : ℚ) : signed (s / s') (p / q) = signed s p / signed s' q := by
  cases s <;> cases s'
  · show p / q = -p / -q
    rw [neg_div_neg_eq]
  · show -(p / q) = -p / q
    rw [neg_div]
  · show -(p / q) = p / -q
    rw [div_neg]
  · rfl

theorem signed_eq (s : Sign) (m : ℕ) (e : ℤ) : signed s (m * 2 ^ e) = (s.apply m : ℤ) * 2 ^ e := by
  cases s <;> simp [signed, Sign.apply]

/-- A mantissa is made longer by zeros. -/
theorem decreaseExponent_spec (m : ℕ) {e t : ℤ} (h : t ≤ e) :
    ∃ n : ℕ, decreaseExponent m e t = (m * 2 ^ n, t) ∧ e = t + n := by
  obtain ⟨n, hn⟩ := Int.eq_ofNat_of_zero_le (sub_nonneg.mpr h)
  refine ⟨n, ?_, by omega⟩
  unfold decreaseExponent
  simp only [hn, Int.toNat_natCast, Nat.shiftLeft_eq]
  congr 1
  omega

theorem decreaseExponent_of_le (m : ℕ) {e t : ℤ} (h : e ≤ t) : decreaseExponent m e t = (m, e) := by
  unfold decreaseExponent
  rw [Int.toNat_of_nonpos (by omega)]
  simp

theorem signed_decreaseExponent (s : Sign) (m : ℕ) {e t : ℤ} (h : t ≤ e) :
    (s.apply ((decreaseExponent m e t).1 : ℤ) : ℚ) * 2 ^ t = signed s (m * 2 ^ e) := by
  obtain ⟨n, hn, he⟩ := decreaseExponent_spec m h
  rw [hn, ← signed_eq, he, zpow_add₀ two_ne_zero, zpow_natCast]
  push_cast
  congr 1
  ring

theorem isRounded_round (s : Sign) {m : ℕ} (hm : m ≠ 0) (e : ℤ) :
    IsRounded (UnpackedFloat.round Format.binary64 s m e) (signed s (m * 2 ^ e)) := by
  have htarget := @targetExponent_le_ulpExponent m e m hm (le_refl (m : ℚ))
  unfold IsRounded
  rw [rounded_signed]
  unfold UnpackedFloat.round
  rcases le_total (Format.binary64.targetExponent (totalExponent m e)) e with hle | hge
  · obtain ⟨n, hn, he⟩ := decreaseExponent_spec m hle
    set t := Format.binary64.targetExponent (totalExponent m e)
    have hsame : ((m * 2 ^ n : ℕ) : ℚ) * 2 ^ t = m * 2 ^ e := by
      rw [he, zpow_add₀ two_ne_zero, zpow_natCast]
      push_cast
      ring
    simp only [hn]
    rw [← hsame] at htarget ⊢
    exact roundWithAccuracy_spec s (stands_exact _) htarget
  · simp only [decreaseExponent_of_le m hge]
    exact roundWithAccuracy_spec s (stands_exact _) (hge.trans htarget)

theorem isRounded_normalize (m : ℤ) (e : ℤ) (s : Sign) :
    IsRounded (UnpackedFloat.normalize Format.binary64 m e s) (m * 2 ^ e) := by
  unfold UnpackedFloat.normalize
  rcases lt_trichotomy m 0 with hneg | rfl | hpos
  · have hm : (((-m).toNat : ℕ) : ℚ) = -m := by
      have hint : (((-m).toNat : ℕ) : ℤ) = -m := Int.toNat_of_nonneg (by omega)
      exact_mod_cast hint
    have h := @isRounded_round .negative (-m).toNat (by omega) e
    have hsign : signed .negative (-(m : ℚ) * 2 ^ e) = m * 2 ^ e := by
      show -(-(m : ℚ) * 2 ^ e) = m * 2 ^ e
      ring
    rw [hm, hsign] at h
    rw [compare_lt_iff_lt.mpr hneg]
    exact h
  · rw [compare_eq_iff_eq.mpr rfl]
    exact ⟨trivial, by simp [partsValue?]⟩
  · have hm : ((m.toNat : ℕ) : ℚ) = m := by
      have hint : ((m.toNat : ℕ) : ℤ) = m := Int.toNat_of_nonneg (by omega)
      exact_mod_cast hint
    have h := @isRounded_round .positive m.toNat (by omega) e
    rw [hm] at h
    rw [compare_gt_iff_gt.mpr hpos]
    exact h

/-- The digits of a quotient reach below its last digit. -/
theorem divCore_spec {m m' : ℕ} (hpos : 0 < m) (hpos' : 0 < m') (e e' : ℤ) :
    ∃ (k : ℕ) (t : ℤ),
      divCore Format.binary64 m e m' e' = (m * 2 ^ k / m', t, accuracyOfFraction (m * 2 ^ k % m') m') ∧
        e - e' = t + k ∧ t ≤ ulpExponent (m * 2 ^ e / (m' * 2 ^ e')) := by
  set t := min (e - e') (Format.binary64.targetExponent (totalExponent m e - totalExponent m' e')) with ht
  have hle : t ≤ e - e' := min_le_left _ _
  obtain ⟨k, hk⟩ := Int.eq_ofNat_of_zero_le (sub_nonneg.mpr hle)
  refine ⟨k, t, ?_, by omega, ?_⟩
  · unfold divCore
    simp only [← ht, hk, Int.toNat_natCast, Nat.shiftLeft_eq]
  · have hbound : t ≤ max (((m.log2 : ℤ) + 1 + e) - (m'.log2 + 1 + e') - 53) (-1074) := min_le_right _ _
    rw [le_ulpExponent_iff]
    by_cases hlow : t ≤ -1074
    · exact Or.inl hlow
    · right
      have hm : ((2 ^ m.log2 : ℕ) : ℚ) ≤ m := by exact_mod_cast Nat.log2_self_le hpos.ne'
      have hm' : (m' : ℚ) ≤ (2 ^ (m'.log2 + 1) : ℕ) := by exact_mod_cast Nat.lt_log2_self.le
      push_cast at hm hm'
      have hexp : t + 52 + (m'.log2 + 1 + e') ≤ m.log2 + e := by omega
      rw [abs_of_nonneg (by positivity), le_div_iff₀ (by positivity)]
      calc (2 : ℚ) ^ (t + 52) * (m' * 2 ^ e') ≤ 2 ^ (t + 52) * (2 ^ (m'.log2 + 1) * 2 ^ e') := by gcongr
        _ = 2 ^ (t + 52 + (m'.log2 + 1 + e')) := by
            rw [zpow_add₀ two_ne_zero (t + 52), zpow_add₀ two_ne_zero _ e']
            norm_cast
        _ ≤ 2 ^ (m.log2 + e) := zpow_le_zpow_right₀ one_le_two hexp
        _ = 2 ^ m.log2 * 2 ^ e := by rw [zpow_add₀ two_ne_zero, zpow_natCast]
        _ ≤ m * 2 ^ e := by gcongr

section
variable (s s' : Sign) {m m' : ℕ} {e e' : ℤ} (hpos : 0 < m) (hpos' : 0 < m')

theorem cast_mul_two_zpow : ((m * m' : ℕ) : ℚ) * 2 ^ (e + e') = m * 2 ^ e * (m' * 2 ^ e') := by
  rw [zpow_add₀ two_ne_zero]
  push_cast
  ring

/-- Mantissas of any length are multiplied, as long as the last digit is not below the product's. -/
theorem isRounded_mul_finite (hplace : e + e' ≤ ulpExponent (m * 2 ^ e * (m' * 2 ^ e'))) :
    IsRounded (UnpackedFloat.mul Format.binary64 (.finite s m e hpos) (.finite s' m' e' hpos'))
      (signed s (m * 2 ^ e) * signed s' (m' * 2 ^ e')) := by
  unfold IsRounded
  rw [← signed_mul, rounded_signed]
  rw [← cast_mul_two_zpow] at hplace ⊢
  exact roundWithAccuracy_spec _ (stands_exact _) hplace

/-- Mantissas of any length are divided: quotient and remainder of the lengthened mantissa make up the exact quotient. -/
theorem isRounded_div_finite :
    IsRounded (UnpackedFloat.div Format.binary64 (.finite s m e hpos) (.finite s' m' e' hpos'))
      (signed s (m * 2 ^ e) / signed s' (m' * 2 ^ e')) := by
  obtain ⟨k, t, hcore, hexp, hplace⟩ := divCore_spec hpos hpos' e e'
  have hrest : m * 2 ^ k % m' < m' := Nat.mod_lt _ hpos'
  have hquot : ((m * 2 ^ k / m' : ℕ) + (m * 2 ^ k % m' : ℕ) / m' : ℚ) * 2 ^ t = m * 2 ^ e / (m' * 2 ^ e') := by
    have hdigits : ((m * 2 ^ k / m' : ℕ) : ℚ) + (m * 2 ^ k % m' : ℕ) / m' = (m * 2 ^ k : ℕ) / m' := by
      have hcast : (m' : ℚ) * (m * 2 ^ k / m' : ℕ) + (m * 2 ^ k % m' : ℕ) = (m * 2 ^ k : ℕ) := by
        exact_mod_cast Nat.div_add_mod (m * 2 ^ k) m'
      rw [← hcast]
      field_simp
    have hsum : e = t + k + e' := by omega
    rw [hdigits, hsum, zpow_add₀ two_ne_zero _ e', zpow_add₀ two_ne_zero t, zpow_natCast]
    push_cast
    field_simp
  unfold IsRounded UnpackedFloat.div
  rw [← signed_div, rounded_signed]
  simp only [hcore]
  rw [← hquot] at hplace ⊢
  exact roundWithAccuracy_spec _ (stands_fraction _ hrest) hplace

end

section
variable {u w : UnpackedFloat} {p q : ℚ} (hu : Canonical u) (hw : Canonical w)
  (hp : partsValue? u = some p) (hq : partsValue? w = some q)
include hu hw hp hq

theorem isRounded_add : IsRounded (UnpackedFloat.add Format.binary64 u w) (p + q) := by
  cases u with
  | zero s =>
    obtain rfl := Option.some.inj hp
    rw [zero_add]
    cases w with
    | zero s' =>
      obtain rfl := Option.some.inj hq
      cases s <;> cases s' <;> exact isRounded_of_parts trivial rfl
    | finite s' m' e' hpos' => exact isRounded_of_parts hw hq
    | _ => cases hq
  | finite s m e hpos =>
    cases w with
    | zero s' =>
      obtain rfl := Option.some.inj hq
      rw [add_zero]
      exact isRounded_of_parts hu hp
    | finite s' m' e' hpos' =>
      obtain rfl := Option.some.inj hp
      obtain rfl := Option.some.inj hq
      rw [← signed_decreaseExponent s m (min_le_left e e'), ← signed_decreaseExponent s' m' (min_le_right e e'),
        ← add_mul, ← Int.cast_add]
      exact isRounded_normalize _ _ _
    | _ => cases hq
  | _ => cases hp

theorem isRounded_mul : IsRounded (UnpackedFloat.mul Format.binary64 u w) (p * q) := by
  cases u with
  | zero s =>
    obtain rfl := Option.some.inj hp
    rw [zero_mul]
    cases w with
    | zero s' => exact isRounded_of_parts trivial rfl
    | finite s' m' e' hpos' => exact isRounded_of_parts trivial rfl
    | _ => cases hq
  | finite s m e hpos =>
    cases w with
    | zero s' =>
      obtain rfl := Option.some.inj hq
      rw [mul_zero]
      exact isRounded_of_parts trivial rfl
    | finite s' m' e' hpos' =>
      obtain rfl := Option.some.inj hp
      obtain rfl := Option.some.inj hq
      obtain ⟨-, -, hm⟩ := hu
      obtain ⟨-, -, hm'⟩ := hw
      refine isRounded_mul_finite s s' hpos hpos' ?_
      rw [← cast_mul_two_zpow, le_ulpExponent_iff]
      by_cases hlarge : 2 ^ 52 ≤ m * m'
      · right
        have hcast : (2 : ℚ) ^ (52 : ℤ) ≤ (m * m' : ℕ) := by exact_mod_cast hlarge
        rw [abs_of_nonneg (by positivity), add_comm _ (52 : ℤ), zpow_add₀ two_ne_zero]
        gcongr
      · -- neither mantissa is full, so both exponents are the least one
        left
        have hleft : m ≤ m * m' := Nat.le_mul_of_pos_right m hpos'
        have hright : m' ≤ m * m' := Nat.le_mul_of_pos_left m' hpos
        omega
    | _ => cases hq
  | _ => cases hp

theorem isRounded_div (hne : q ≠ 0) : IsRounded (UnpackedFloat.div Format.binary64 u w) (p / q) := by
  cases w with
  | zero s' =>
    obtain rfl := Option.some.inj hq
    exact absurd rfl hne
  | finite s' m' e' hpos' =>
    obtain rfl := Option.some.inj hq
    cases u with
    | zero s =>
      obtain rfl := Option.some.inj hp
      rw [zero_div]
      exact isRounded_of_parts trivial rfl
    | finite s m e hpos =>
      obtain rfl := Option.some.inj hp
      exact isRounded_div_finite s s' hpos hpos'
    | _ => cases hp
  | _ => cases hq

end

/-- A difference is a sum. -/
theorem sub_eq_add (u w : UnpackedFloat) :
    UnpackedFloat.sub Format.binary64 u w = UnpackedFloat.add Format.binary64 u w.neg := by
  cases u with
  | notANumber => cases w <;> rfl
  | infinity s => cases w <;> rfl
  | zero s => cases w <;> rfl
  | finite s m e h =>
    cases w with
    | finite s' m' e' h' =>
      have hneg : ∀ n : ℕ, (-s').apply (n : ℤ) = -(s'.apply n) := by
        intro n
        cases s'
        · exact (Int.neg_neg n).symm
        · rfl
      show UnpackedFloat.normalize Format.binary64 (_ - _) _ _ = UnpackedFloat.normalize Format.binary64 (_ + _) _ _
      rw [hneg, ← Int.sub_eq_add_neg]
    | _ => rfl

theorem canonical_neg {u : UnpackedFloat} (h : Canonical u) : Canonical u.neg := by
  cases u <;> exact h

theorem partsValue?_neg {u : UnpackedFloat} {p : ℚ} (h : partsValue? u = some p) : partsValue? u.neg = some (-p) := by
  cases u with
  | zero s =>
    obtain rfl := Option.some.inj h
    exact congrArg some neg_zero.symm
  | finite s m e hpos =>
    obtain rfl := Option.some.inj h
    cases s
    · exact congrArg some (neg_neg _).symm
    · rfl
  | _ => cases h

/-! ## Operations on numbers -/

/-- **A number is what a rational is rounded to**: a rational again, or infinity if that is too great. -/
def Rounds (x : Float) (q : ℚ) : Prop :=
  if |rounded q| < limit then value? x = some (rounded q)
  else parts x = .infinity (if rounded q < 0 then .negative else .positive)

theorem rounds_ofParts {u : UnpackedFloat} {q : ℚ} (h : IsRounded u q) : Rounds (ofParts u) q := by
  obtain ⟨hcanonical, hvalue⟩ := h
  unfold Rounds value?
  rw [parts_ofParts hcanonical]
  by_cases hlt : |rounded q| < limit
  · rw [if_pos hlt, settled_of_lt hcanonical hvalue hlt, hvalue]
  · rw [if_neg hlt]
    exact settled_of_le hcanonical hvalue (not_lt.mp hlt)

theorem Rounds.value {x : Float} {q : ℚ} (h : Rounds x q) (hlt : |rounded q| < limit) : value? x = some (rounded q) := by
  rw [Rounds, if_pos hlt] at h
  exact h

/-- A representable result is exact. -/
theorem Rounds.exact {x : Float} {q : ℚ} (h : Rounds x q) (hq : Representable q) (hlt : |q| < limit) :
    value? x = some q := by
  have hsame := rounded_of_representable hq
  have hvalue := h.value (by rwa [hsame])
  rwa [hsame] at hvalue

theorem value?_neg {x : Float} {p : ℚ} (hp : value? x = some p) : value? (-x) = some (-p) := by
  have h := isRounded_of_parts (canonical_neg (canonical_parts x)) (partsValue?_neg hp)
  exact (rounds_ofParts h).exact (representable_of_value? hp).neg (by rw [abs_neg]; exact abs_lt_limit hp)

/-! Where an operand is no rational, the result is known by its parts. -/

section
variable {x y : Float} {u : UnpackedFloat}

theorem parts_add (h : UnpackedFloat.add Format.binary64 (parts x) (parts y) = u) (hcanonical : Canonical u) :
    parts (x + y) = settled u := by
  rw [← h] at hcanonical ⊢
  exact parts_ofParts hcanonical

theorem parts_mul (h : UnpackedFloat.mul Format.binary64 (parts x) (parts y) = u) (hcanonical : Canonical u) :
    parts (x * y) = settled u := by
  rw [← h] at hcanonical ⊢
  exact parts_ofParts hcanonical

theorem parts_div (h : UnpackedFloat.div Format.binary64 (parts x) (parts y) = u) (hcanonical : Canonical u) :
    parts (x / y) = settled u := by
  rw [← h] at hcanonical ⊢
  exact parts_ofParts hcanonical

end

section
variable {x y : Float} {p q : ℚ} (hp : value? x = some p) (hq : value? y = some q)
include hp hq

theorem rounds_add : Rounds (x + y) (p + q) :=
  rounds_ofParts (isRounded_add (canonical_parts x) (canonical_parts y) hp hq)

theorem rounds_sub : Rounds (x - y) (p - q) := by
  have h := isRounded_add (canonical_parts x) (canonical_neg (canonical_parts y)) hp (partsValue?_neg hq)
  rw [← sub_eq_add, ← sub_eq_add_neg] at h
  exact rounds_ofParts h

theorem rounds_mul : Rounds (x * y) (p * q) :=
  rounds_ofParts (isRounded_mul (canonical_parts x) (canonical_parts y) hp hq)

theorem rounds_div (hne : q ≠ 0) : Rounds (x / y) (p / q) :=
  rounds_ofParts (isRounded_div (canonical_parts x) (canonical_parts y) hp hq hne)

end

end LatencyReport.Binary64
