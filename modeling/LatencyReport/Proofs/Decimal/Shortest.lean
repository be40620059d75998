import LatencyReport.Decimal.Reader
import LatencyReport.Proofs.Binary64.Scientific

/-!
# `Proofs.Decimal.Shortest` — shortest digits read back

A decimal that the search accepts lies in the interval of the number, and **what lies in the interval is rounded to the
number** (`rounded_of_inInterval`); that holds at both ends too, for they belong to the interval only where the tie goes
to the number, and below a power of two, where the neighbour is half as far away. The search ends in such a decimal: on
the grid of steps that are shorter than half of the last digit one of the two candidates is in the interval
(`exists_nearestOnGrid?`), and that grid is among those that are tried (`ten_zpow_coarsestGrid_lt`).

So the shortest decimal of a number, and every other decimal of the same value, is read as the number
(`toFloat_eq_of_value_eq`).

## Contents

* `value`, `rounds_toFloat` — what a decimal stands for, and what it becomes;
* `InInterval`, `readsBack_iff`, `rounded_of_inInterval` — the interval;
* `inInterval_of_nearestOnGrid?`, `exists_nearestOnGrid?` — one grid;
* `inInterval_shortestFrom`, `ten_zpow_coarsestGrid_lt` — the search;
* `binaryParts_eq`, `value_binaryParts`, `toFloat_eq_of_value_eq` — numbers.
-/

namespace LatencyReport.Decimal

open Binary64 Float.Model.UnpackedFloat

/-- The rational that a decimal stands for. -/
def value (d : Decimal) : ℚ :=
  d.digits * 10 ^ d.exponent

/-- A decimal becomes the number that it is rounded to. -/
theorem rounds_toFloat (d : Decimal) : Rounds d.toFloat d.value := by
  have h := rounds_ofScientific d.digits (d.exponent < 0) d.exponent.natAbs
  have hexponent : (if decide (d.exponent < 0) = true then -(d.exponent.natAbs : ℤ) else d.exponent.natAbs) =
      d.exponent := by
    split_ifs with hneg
    · rw [decide_eq_true_eq] at hneg
      omega
    · rw [decide_eq_true_eq] at hneg
      omega
  rwa [hexponent] at h

/-! ## The interval of a number -/

section
variable {m n : ℕ} {q k : ℤ} {v : ℚ}

/-- A rational lies in the interval of `m · 2^q`, ends included if the significand is even. -/
def InInterval (m : ℕ) (q : ℤ) (v : ℚ) : Prop :=
  if m % 2 = 0 then lowerEnd m q * 2 ^ (q - 2) ≤ v ∧ v ≤ upperEnd m * 2 ^ (q - 2)
  else lowerEnd m q * 2 ^ (q - 2) < v ∧ v < upperEnd m * 2 ^ (q - 2)

theorem zpow_mul_pow_toNat {b : ℚ} (hb : b ≠ 0) (e : ℤ) : b ^ e * b ^ (-e).toNat = b ^ e.toNat := by
  rw [← zpow_natCast, ← zpow_natCast, ← zpow_add₀ hb]
  congr 1
  omega

/-- What the two numbers of a grid's scale are to each other. -/
theorem gridScale_spec (q k : ℤ) :
    ((gridScale q k).1 : ℚ) * 10 ^ k = (gridScale q k).2 * 2 ^ (q - 2) := by
  have htwo := zpow_mul_pow_toNat two_ne_zero (q - 2)
  have hten := zpow_mul_pow_toNat (b := 10) (by norm_num) k
  have hneg : -(q - 2) = 2 - q := by ring
  rw [hneg] at htwo
  have hscale : gridScale q k = (2 ^ (q - 2).toNat * 10 ^ (-k).toNat, 2 ^ (2 - q).toNat * 10 ^ k.toNat) := rfl
  rw [hscale]
  push_cast
  rw [← htwo, ← hten]
  ring

theorem gridScale_pos (q k : ℤ) : 0 < (gridScale q k).1 ∧ 0 < (gridScale q k).2 := by
  have htwo : ∀ e, 0 < Nat.pow 2 e := fun e => Nat.two_pow_pos e
  have hten : ∀ e, 0 < Nat.pow 10 e := fun e => Nat.pow_pos (by norm_num)
  exact ⟨Nat.mul_pos (htwo _) (hten _), Nat.mul_pos (htwo _) (hten _)⟩

theorem steps_mul_gridScale (n : ℕ) :
    (n : ℚ) * 10 ^ k * (gridScale q k).1 = n * (gridScale q k).2 * 2 ^ (q - 2) := by
  rw [mul_assoc, mul_comm (10 ^ k : ℚ), gridScale_spec, mul_assoc]

/-- Steps of a grid are compared with quarters by multiplying out. -/
theorem quarters_le_iff {w : ℕ} :
    w * (gridScale q k).1 ≤ n * (gridScale q k).2 ↔ (w : ℚ) * 2 ^ (q - 2) ≤ n * 10 ^ k := by
  have hpos : (0 : ℚ) < (gridScale q k).1 := by exact_mod_cast (gridScale_pos q k).1
  have htwo : (0 : ℚ) < 2 ^ (q - 2) := by positivity
  rw [← mul_le_mul_iff_of_pos_right (b := (w : ℚ) * 2 ^ (q - 2)) hpos, steps_mul_gridScale, mul_right_comm,
    mul_le_mul_iff_of_pos_right htwo]
  exact_mod_cast Iff.rfl

theorem le_quarters_iff {w : ℕ} :
    n * (gridScale q k).2 ≤ w * (gridScale q k).1 ↔ (n : ℚ) * 10 ^ k ≤ w * 2 ^ (q - 2) := by
  have hpos : (0 : ℚ) < (gridScale q k).1 := by exact_mod_cast (gridScale_pos q k).1
  have htwo : (0 : ℚ) < 2 ^ (q - 2) := by positivity
  rw [← mul_le_mul_iff_of_pos_right (b := (n : ℚ) * 10 ^ k) hpos, steps_mul_gridScale, mul_right_comm (w : ℚ),
    mul_le_mul_iff_of_pos_right htwo]
  exact_mod_cast Iff.rfl

/-- **What the search accepts lies in the interval.** -/
theorem readsBack_iff : readsBack m q n k = true ↔ InInterval m q (n * 10 ^ k) := by
  unfold readsBack InInterval
  split_ifs with heven
  · rw [Bool.and_eq_true, decide_eq_true_eq, decide_eq_true_eq, quarters_le_iff, le_quarters_iff]
  · rw [Bool.and_eq_true, decide_eq_true_eq, decide_eq_true_eq, ← not_le, ← not_le, quarters_le_iff, le_quarters_iff,
      not_le, not_le]

/-- The ends of the interval, in units of the last digit. -/
theorem inInterval_bounds (hm : 0 < m) (h : InInterval m q v) :
    ((m : ℚ) - 1 / 2) * 2 ^ q ≤ v ∧ v ≤ (m + 1 / 2) * 2 ^ q ∧
      (m % 2 = 0 ∨ ((m : ℚ) - 1 / 2) * 2 ^ q < v ∧ v < (m + 1 / 2) * 2 ^ q) ∧
      (m = 2 ^ 52 → -1074 < q → ((m : ℚ) - 1 / 4) * 2 ^ q ≤ v) := by
  have hquarter : (2 : ℚ) ^ q = 4 * 2 ^ (q - 2) := by
    rw [zpow_sub₀ two_ne_zero]
    norm_num
    ring
  have hpos : (0 : ℚ) < 2 ^ (q - 2) := by positivity
  have hupper : (upperEnd m : ℚ) * 2 ^ (q - 2) = (m + 1 / 2) * 2 ^ q := by
    rw [hquarter, upperEnd]
    push_cast
    ring
  have hhalf : ((4 * m - 2 : ℕ) : ℚ) * 2 ^ (q - 2) = (m - 1 / 2) * 2 ^ q := by
    rw [hquarter, Nat.cast_sub (by omega)]
    push_cast
    ring
  have hpower : ((4 * m - 1 : ℕ) : ℚ) * 2 ^ (q - 2) = (m - 1 / 4) * 2 ^ q := by
    rw [hquarter, Nat.cast_sub (by omega)]
    push_cast
    ring
  have hcloser : ((m : ℚ) - 1 / 2) * 2 ^ q ≤ (m - 1 / 4) * 2 ^ q := by
    gcongr
    norm_num
  have hpow52 : Nat.pow 2 52 = 2 ^ 52 := rfl
  unfold InInterval lowerEnd at h
  rw [hupper, hpow52] at h
  by_cases hbelow : m = 2 ^ 52 ∧ -1074 < q
  · have heven : m % 2 = 0 := by omega
    rw [if_pos heven, if_pos hbelow, hpower] at h
    exact ⟨hcloser.trans h.1, h.2, Or.inl heven, fun _ _ => h.1⟩
  · rw [if_neg hbelow, hhalf] at h
    have hnot : m = 2 ^ 52 → -1074 < q → ((m : ℚ) - 1 / 4) * 2 ^ q ≤ v := fun hm52 hq => absurd ⟨hm52, hq⟩ hbelow
    split_ifs at h with heven
    · exact ⟨h.1, h.2, Or.inl heven, hnot⟩
    · exact ⟨h.1.le, h.2.le, Or.inr h, hnot⟩

/-- **What lies in the interval of a number is rounded to the number.** -/
theorem rounded_of_inInterval (hm : 0 < m) (hlt : m < 2 ^ 53) (hq : -1074 ≤ q) (hfull : 2 ^ 52 ≤ m ∨ q = -1074)
    (h : InInterval m q v) : rounded v = m * 2 ^ q := by
  obtain ⟨hlow, hhigh, hties, hcloser⟩ := inInterval_bounds hm h
  have hpos : (0 : ℚ) < 2 ^ q := by positivity
  have hone : (1 : ℚ) ≤ m := by exact_mod_cast hm
  have hmax : (m : ℚ) + 1 ≤ 2 ^ (53 : ℤ) := by exact_mod_cast hlt
  have hv : 0 < v := lt_of_lt_of_le (mul_pos (by linarith) hpos) hlow
  have hbelow : |v| < 2 ^ (q + 53) := by
    rw [abs_of_pos hv, add_comm, zpow_add₀ two_ne_zero]
    exact lt_of_le_of_lt hhigh (mul_lt_mul_of_pos_right (by linarith) hpos)
  have hle := ulpExponent_le_of_lt hq hbelow
  by_cases hplace : q ≤ ulpExponent v
  · have hparity : (m : ℤ) % 2 = 0 ∨ (((m : ℤ) : ℚ) - 1 / 2) * 2 ^ q < v ∧ v < (((m : ℤ) : ℚ) + 1 / 2) * 2 ^ q := by
      rcases hties with heven | hstrict
      · exact Or.inl (by omega)
      · exact Or.inr (by simpa using hstrict)
    have hrounded := rounded_eq (n := m) (le_antisymm hle hplace) (by simpa using hlow) (by simpa using hhigh) hparity
    rwa [Int.cast_natCast] at hrounded
  · -- only below a power of two the last digit of the rational is at a lower place
    rw [le_ulpExponent_iff, not_or, not_le, not_le, abs_of_pos hv, add_comm, zpow_add₀ two_ne_zero] at hplace
    obtain ⟨hq', hsmall⟩ := hplace
    have hm52 : m = 2 ^ 52 := by
      rcases hfull with hge | heq
      · by_contra hne
        have hgreater : (2 : ℚ) ^ (52 : ℤ) + 1 ≤ m := by exact_mod_cast (by omega : 2 ^ 52 + 1 ≤ m)
        have hge' : (2 : ℚ) ^ (52 : ℤ) * 2 ^ q ≤ (m - 1 / 2) * 2 ^ q := by
          gcongr
          linarith
        linarith
      · omega
    have hquarter := hcloser hm52 hq'
    have hm52q : (m : ℚ) = 2 ^ (52 : ℤ) := by
      rw [hm52]
      norm_num
    have hdouble : (2 : ℚ) ^ q = 2 * 2 ^ (q - 1) := by
      rw [zpow_sub₀ two_ne_zero]
      norm_num
      ring
    have hpos' : (0 : ℚ) < 2 ^ (q - 1) := by positivity
    rw [hm52q, hdouble] at hquarter
    rw [hdouble] at hsmall
    have hplace : ulpExponent v = q - 1 := by
      apply le_antisymm
      · apply ulpExponent_le_of_lt (by omega)
        rw [abs_of_pos hv, add_comm, zpow_add₀ two_ne_zero]
        norm_num at hsmall ⊢
        linarith
      · rw [le_ulpExponent_iff, abs_of_pos hv, add_comm, zpow_add₀ two_ne_zero]
        right
        norm_num at hquarter ⊢
        linarith
    have hrounded := rounded_eq (n := 2 ^ 53) hplace
      (by norm_num at hquarter ⊢; linarith) (by norm_num at hsmall ⊢; linarith) (Or.inl (by norm_num))
    rw [hrounded, hm52q, hdouble]
    norm_num
    ring

/-! ## One grid -/

theorem inInterval_of_nearestOnGrid? (h : nearestOnGrid? m q k = some n) : InInterval m q (n * 10 ^ k) := by
  unfold nearestOnGrid? at h
  simp only at h
  set below := 4 * m * (gridScale q k).1 / (gridScale q k).2
  rw [← readsBack_iff]
  cases hbelow : readsBack m q below k with
  | false =>
    cases habove : readsBack m q (below + 1) k with
    | false => simp [hbelow, habove] at h
    | true =>
      simp only [hbelow, habove, Option.some.injEq] at h
      rw [← h, habove]
  | true =>
    cases habove : readsBack m q (below + 1) k with
    | false =>
      simp only [hbelow, habove, Option.some.injEq] at h
      rw [← h, hbelow]
    | true =>
      have hcases : n = below ∨ n = below + 1 := by
        simp only [hbelow, habove] at h
        split at h <;> simp only [Option.some.injEq] at h <;> omega
      rcases hcases with rfl | rfl
      · exact hbelow
      · exact habove

/-- **On a grid of steps shorter than half of the last digit a candidate is found**: the point above the number at the
    latest. -/
theorem exists_nearestOnGrid? (hm : 0 < m) (hstep : (10 : ℚ) ^ k < 2 ^ (q - 1)) : ∃ n, nearestOnGrid? m q k = some n := by
  set below := 4 * m * (gridScale q k).1 / (gridScale q k).2 with hdiv
  have hscale := (gridScale_pos q k).2
  have hdouble : (2 : ℚ) ^ (q - 1) = 2 * 2 ^ (q - 2) := by
    rw [zpow_sub₀ two_ne_zero, zpow_sub₀ two_ne_zero]
    norm_num
    ring
  have hpos : (0 : ℚ) < 2 ^ (q - 2) := by positivity
  have hle : (below : ℚ) * 10 ^ k ≤ (4 * m : ℕ) * 2 ^ (q - 2) := le_quarters_iff.mp (Nat.div_mul_le_self _ _)
  have hgt : ((4 * m : ℕ) : ℚ) * 2 ^ (q - 2) < (below + 1 : ℕ) * 10 ^ k := by
    rw [← not_le, ← le_quarters_iff, not_le, mul_comm (below + 1)]
    exact Nat.lt_mul_div_succ _ hscale
  have habove : InInterval m q ((below + 1 : ℕ) * 10 ^ k) := by
    have hlower : (lowerEnd m q : ℚ) * 2 ^ (q - 2) < (below + 1 : ℕ) * 10 ^ k := by
      have hend : lowerEnd m q ≤ 4 * m := by
        unfold lowerEnd
        split_ifs <;> omega
      refine lt_of_le_of_lt ?_ hgt
      gcongr
    have hupper : ((below + 1 : ℕ) : ℚ) * 10 ^ k < upperEnd m * 2 ^ (q - 2) := by
      have hsum : ((below + 1 : ℕ) : ℚ) * 10 ^ k = below * 10 ^ k + 10 ^ k := by
        push_cast
        ring
      have hend : (upperEnd m : ℚ) * 2 ^ (q - 2) = (4 * m : ℕ) * 2 ^ (q - 2) + 2 * 2 ^ (q - 2) := by
        rw [upperEnd]
        push_cast
        ring
      rw [hsum, hend]
      linarith
    unfold InInterval
    split_ifs
    · exact ⟨hlower.le, hupper.le⟩
    · exact ⟨hlower, hupper⟩
  rw [← readsBack_iff] at habove
  unfold nearestOnGrid?
  simp only [← hdiv, habove]
  cases readsBack m q below k with
  | false => exact ⟨_, rfl⟩
  | true =>
    simp only
    split <;> exact ⟨_, rfl⟩

/-! ## The search -/

/-- The search ends in the interval if one of the grids that it tries has a candidate. -/
theorem inInterval_shortestFrom {grids : ℕ} (h : ∃ j < grids, ∃ n, nearestOnGrid? m q (k - j) = some n) :
    InInterval m q (shortestFrom m q grids k).value := by
  induction grids generalizing k with
  | zero =>
    obtain ⟨j, hj, _⟩ := h
    omega
  | succ grids ih =>
    unfold shortestFrom
    cases hgrid : nearestOnGrid? m q k with
    | some n => exact inInterval_of_nearestOnGrid? hgrid
    | none =>
      obtain ⟨j, hj, n, hn⟩ := h
      cases j with
      | zero =>
        rw [Nat.cast_zero, sub_zero, hgrid] at hn
        cases hn
      | succ j =>
        refine ih ⟨j, by omega, n, ?_⟩
        rw [← hn]
        congr 1
        push_cast
        ring

/-- **The last of twenty grids has steps shorter than half of the last digit.** The powers are compared by
    `2^93 ≤ 10^28` and by `10^59 ≤ 2^196`, so closely that rounding the logarithm does no harm. -/
theorem ten_zpow_coarsestGrid_lt (hm : 0 < m) (hlt : m < 2 ^ 53) (hlow : -1074 ≤ q) (hhigh : q ≤ 971) :
    (10 : ℚ) ^ (coarsestGrid m q - 19) < 2 ^ (q - 1) := by
  have hlog : m.log2 < 53 := (Nat.log2_lt hm.ne').mpr hlt
  have hgrid : coarsestGrid m q = ((m.log2 : ℤ) + q + 1) * 30103 / 100000 + 1 := rfl
  set k := coarsestGrid m q - 19 with hk
  rcases le_or_gt 0 k with hsign | hsign
  · apply lt_of_pow_lt_pow_left₀ 59 (by positivity)
    calc ((10 : ℚ) ^ k) ^ 59 = (10 ^ (59 : ℤ)) ^ k := by
          rw [← zpow_natCast, ← zpow_mul, ← zpow_mul, mul_comm]
          rfl
      _ ≤ (2 ^ (196 : ℤ)) ^ k := zpow_le_zpow_left₀ hsign (by positivity) (by norm_num)
      _ = 2 ^ (196 * k) := by rw [← zpow_mul]
      _ < 2 ^ ((q - 1) * 59) := zpow_lt_zpow_right₀ one_lt_two (by omega)
      _ = (2 ^ (q - 1)) ^ 59 := by
          rw [zpow_mul]
          rfl
  · apply lt_of_pow_lt_pow_left₀ 28 (by positivity)
    calc ((10 : ℚ) ^ k) ^ 28 = ((10 ^ (28 : ℤ)) ^ (-k))⁻¹ := by
          rw [← zpow_natCast, ← zpow_mul, ← zpow_mul, ← zpow_neg, mul_comm]
          congr 1
          push_cast
          ring
      _ ≤ ((2 ^ (93 : ℤ)) ^ (-k))⁻¹ :=
          inv_anti₀ (by positivity) (zpow_le_zpow_left₀ (by omega) (by positivity) (by norm_num))
      _ = 2 ^ (93 * k) := by
          rw [← zpow_neg, neg_neg, ← zpow_mul]
      _ < 2 ^ ((q - 1) * 28) := zpow_lt_zpow_right₀ one_lt_two (by omega)
      _ = (2 ^ (q - 1)) ^ 28 := by
          rw [zpow_mul]
          rfl

/-- The search ends in the interval. -/
theorem inInterval_shortest (hm : 0 < m) (hlt : m < 2 ^ 53) (hlow : -1074 ≤ q) (hhigh : q ≤ 971) :
    InInterval m q (shortestFrom m q 20 (coarsestGrid m q)).value := by
  apply inInterval_shortestFrom
  exact ⟨19, by norm_num, exists_nearestOnGrid? hm (ten_zpow_coarsestGrid_lt hm hlt hlow hhigh)⟩

end

/-! ## Numbers -/

section
variable {x : Float} {v : ℚ}

/-- The magnitude of a number, from its bits. -/
theorem binaryParts_eq (x : Float) :
    binaryParts x = (significandOf (x.toBits.toNat % 2 ^ 63), placeOf (x.toBits.toNat % 2 ^ 63)) := by
  have hpow : Nat.pow 2 52 = 2 ^ 52 := rfl
  have hpow' : Nat.pow 2 11 = 2 ^ 11 := rfl
  have hbiased : x.toBits.toNat / 2 ^ 52 % 2 ^ 11 = x.toBits.toNat % 2 ^ 63 / 2 ^ 52 := by omega
  unfold binaryParts significandOf placeOf
  simp only [hpow, hpow', hbiased]
  split_ifs with hleast
  · rw [hleast]
    congr 1
    omega
  · congr 1
    · omega
    · omega

theorem value_binaryParts (h : value? x = some v) : ((binaryParts x).1 : ℚ) * 2 ^ (binaryParts x).2 = |v| := by
  rw [value?_eq_magnitude h, abs_signed _ (magnitude_nonneg _), binaryParts_eq]
  rfl

/-- **The shortest decimal of a number is rounded to its magnitude.** -/
theorem rounded_shortest (h : value? x = some v) : rounded (shortest x).value = |v| := by
  have hparts := parts_eq h
  have hcanonical := canonical_parts x
  have hsettled := settled_parts x
  unfold value? at h
  unfold shortest
  rw [binaryParts_eq]
  simp only
  set m := significandOf (x.toBits.toNat % 2 ^ 63)
  set q := placeOf (x.toBits.toNat % 2 ^ 63)
  rw [hparts] at h hcanonical hsettled
  split_ifs at h hcanonical hsettled ⊢ with hzero
  · obtain rfl := Option.some.inj h
    have hvalue : (⟨0, 0⟩ : Decimal).value = 0 := by
      rw [value, Nat.cast_zero, zero_mul]
    rw [hvalue, rounded_zero, abs_zero]
  · obtain rfl := Option.some.inj h
    obtain ⟨hlt, hlow, hfull⟩ := hcanonical
    have hhigh : q ≤ 971 := by
      by_contra hgreat
      have hinfinity : settled (.finite (signOf x.toBits.toNat) m q (Nat.pos_of_ne_zero hzero)) = .infinity _ :=
        if_neg hgreat
      rw [hinfinity] at hsettled
      cases hsettled
    have hpos := Nat.pos_of_ne_zero hzero
    rw [rounded_of_inInterval hpos hlt hlow hfull (inInterval_shortest hpos hlt hlow hhigh)]
    exact (abs_signed _ (by positivity)).symm

/-- Zero with a power of ten is zero, whatever the power is. -/
theorem toFloat_zero (e : ℤ) : toFloat ⟨0, e⟩ = 0 := by
  have hfew : ∀ e : Fin Float.exactlyRepresentablePowersOfTen.size,
      (0 : ℕ).toUInt64.toFloat / Float.exactlyRepresentablePowersOfTen[(e : ℕ)] = 0 ∧
        (0 : ℕ).toUInt64.toFloat * Float.exactlyRepresentablePowersOfTen[(e : ℕ)] = 0 := by
    decide +kernel
  unfold toFloat Float.ofScientific
  simp only
  split_ifs with hpower hneg
  · exact (hfew ⟨e.natAbs, Nat.lt_succ_of_le hpower.2⟩).1
  · exact (hfew ⟨e.natAbs, Nat.lt_succ_of_le hpower.2⟩).2
  · rfl
  · rfl

/-- Whether a number has a sign, as the text of the number tells it. -/
def isNegative (x : Float) : Bool :=
  !decide (x.toBits < 0x8000000000000000)

theorem signOf_eq (x : Float) : signOf x.toBits.toNat = if isNegative x then .negative else .positive := by
  have hlt : x.toBits < 0x8000000000000000 ↔ x.toBits.toNat < 2 ^ 63 := UInt64.lt_iff_toNat_lt
  unfold signOf isNegative
  rw [decide_eq_decide.mpr hlt]
  by_cases hsign : x.toBits.toNat < 2 ^ 63
  · rw [if_pos hsign, decide_eq_true hsign]
    rfl
  · rw [if_neg hsign, decide_eq_false hsign]
    rfl

/-- **A decimal of the value of the shortest one, with the number's sign, is read as the number.** -/
theorem toFloat_eq_of_value_eq (hx : x.isFinite = true) {d : Decimal} (hd : d.value = (shortest x).value) :
    Numeral.toFloat ⟨isNegative x, d⟩ = x := by
  obtain ⟨v, hv⟩ := isFinite_iff.mp hx
  have hrounded := rounded_shortest hv
  rw [← hd] at hrounded
  have hlimit : |rounded d.value| < limit := by
    rw [hrounded, abs_abs]
    exact abs_lt_limit hv
  have hmagnitude := (rounds_toFloat d).value hlimit
  rw [hrounded] at hmagnitude
  have hvalue := value?_eq_magnitude hv
  rw [signOf_eq] at hvalue
  by_cases hzero : v = 0
  · -- a zero is known by its sign
    subst hzero
    have hsignificand := significandOf_eq_zero hv
    have hparts := parts_eq hv
    have hdigits : d.digits = 0 := by
      have hshortest : (shortest x).value = 0 := by
        unfold shortest
        rw [binaryParts_eq]
        simp only [hsignificand, if_true]
        rw [value, Nat.cast_zero, zero_mul]
      rw [hshortest, value, mul_eq_zero] at hd
      rcases hd with hdigits | hpower
      · exact_mod_cast hdigits
      · exact absurd hpower (by positivity)
    have hd : d = ⟨0, d.exponent⟩ := by
      rw [← hdigits]
    rw [dif_pos hsignificand, signOf_eq] at hparts
    rw [← ofParts_parts x, hparts, hd, Numeral.toFloat, toFloat_zero]
    cases isNegative x <;> rfl
  · refine eq_of_value?_eq ?_ hv hzero
    unfold Numeral.toFloat
    cases hsign : isNegative x with
    | false =>
      rw [hsign] at hvalue
      have hnonneg : 0 ≤ v := by
        rw [hvalue]
        exact magnitude_nonneg _
      rw [abs_of_nonneg hnonneg] at hmagnitude
      exact hmagnitude
    | true =>
      rw [hsign] at hvalue
      have hnonpos : v ≤ 0 := by
        rw [hvalue]
        exact neg_nonpos.mpr (magnitude_nonneg _)
      rw [abs_of_nonpos hnonpos] at hmagnitude
      have hneg := value?_neg hmagnitude
      rwa [neg_neg] at hneg

end

end LatencyReport.Decimal
