import LatencyReport.Proofs.Binary64.Between
import LatencyReport.Proofs.Binary64.NotNegative

/-!
# `Proofs.Binary64.Repeated` — a number added to itself again and again

Equal numbers are added one by one, and every sum is rounded before the next number comes. So the sum of equal numbers is
not their product with the count, and may be less or more. Two things are known of it. **If every multiple is a number,
nothing is rounded** (`repeatedSum_eq`); that is so for two numbers, and for as many as the mantissa has room for. And
**each step loses `2 ^ -53` of the sum at most** (`mul_le_rounded_add`), since sums have no error at the least last digit,
where the loss could be greater; so what is lost of the whole sum is known from the count (`mul_le_repeatedSum`).

Sums only grow, so a sum that becomes infinite stays so (`sum_replicate`).

## Contents

* `sub_half_le_nearestInt`, `mul_le_rounded_add` — what a sum loses;
* `repeatedSum`, `mul_le_repeatedSum`, `repeatedSum_eq` — equal rationals, rounded at every step;
* `representable_multiple` — multiples that are numbers;
* `parts_infinity_add`, `sum_replicate` — equal numbers.
-/

namespace LatencyReport.Binary64

open Float.Model Float.Model.UnpackedFloat

/-! ## What a sum loses -/

theorem sub_half_le_nearestInt (x : ℚ) : x - 1 / 2 ≤ nearestInt x := by
  have hx := Int.floor_add_fract x
  unfold nearestInt
  split_ifs with hbelow habove
  · linarith
  · have hlt := Int.fract_lt_one x
    push_cast
    linarith
  · have hrest : (0 : ℚ) ≤ ((⌊x⌋ % 2 : ℤ) : ℚ) := Int.cast_nonneg (Int.emod_nonneg _ (by norm_num))
    push_cast at hrest ⊢
    linarith

/-- **A sum of numbers that are not below zero loses `2 ^ -53` of it at most.** If its last digit is the least one it loses
    nothing, and otherwise that digit is small beside it. -/
theorem mul_le_rounded_add {p q : ℚ} (hp : Representable p) (hq : Representable q) (hp0 : 0 ≤ p) (hq0 : 0 ≤ q) :
    (p + q) * (1 - 2 ^ (-53 : ℤ)) ≤ rounded (p + q) := by
  have hsum : 0 ≤ p + q := add_nonneg hp0 hq0
  have hpos : (0 : ℚ) < 2 ^ ulpExponent (p + q) := by positivity
  rcases le_ulpExponent_iff.mp (le_refl (ulpExponent (p + q))) with hleast | hhigh
  · have hexact : Representable (p + q) := by
      rw [← sub_neg_eq_add] at hleast ⊢
      exact hp.sub hq.neg (le_antisymm hleast (neg_1074_le_ulpExponent _))
    rw [rounded_of_representable hexact]
    exact mul_le_of_le_one_right hsum (sub_le_self _ (by positivity))
  · rw [abs_of_nonneg hsum, zpow_add₀ two_ne_zero] at hhigh
    have hnear : (p + q) / 2 ^ ulpExponent (p + q) - 1 / 2 ≤ nearestInt ((p + q) / 2 ^ ulpExponent (p + q)) :=
      sub_half_le_nearestInt _
    have hscaled := mul_le_mul_of_nonneg_right hnear hpos.le
    rw [sub_mul, div_mul_cancel₀ _ hpos.ne'] at hscaled
    have hdigit : 1 / 2 * (2 : ℚ) ^ ulpExponent (p + q) ≤ (p + q) * 2 ^ (-53 : ℤ) := by
      have h := mul_le_mul_of_nonneg_right hhigh (by positivity : (0 : ℚ) ≤ 2 ^ (-53 : ℤ))
      norm_num at h ⊢
      linarith
    unfold rounded
    linarith

/-! ## Equal rationals -/

/-- The sum of as many equal rationals, rounded whenever one is added. -/
def repeatedSum (v : ℚ) : ℕ → ℚ
  | 0 => 0
  | n + 1 => rounded (repeatedSum v n + v)

theorem representable_repeatedSum (v : ℚ) (n : ℕ) : Representable (repeatedSum v n) := by
  cases n with
  | zero => exact representable_zero
  | succ n => exact representable_rounded _

theorem repeatedSum_nonneg {v : ℚ} (hv : 0 ≤ v) (n : ℕ) : 0 ≤ repeatedSum v n := by
  induction n with
  | zero => exact le_refl 0
  | succ n ih => exact rounded_nonneg (add_nonneg ih hv)

/-- Sums only grow. -/
theorem repeatedSum_le_succ {v : ℚ} (hv : 0 ≤ v) (n : ℕ) : repeatedSum v n ≤ repeatedSum v (n + 1) :=
  le_rounded (representable_repeatedSum v n) (le_add_of_nonneg_right hv)

/-- **What a sum of equal rationals keeps**: the first one is exact, and every other one costs `2 ^ -53` of the sum at
    most. -/
theorem mul_le_repeatedSum {v : ℚ} (hv : Representable v) (hv0 : 0 ≤ v) (n : ℕ) :
    (n + 1 : ℕ) * v * (1 - 2 ^ (-53 : ℤ)) ^ n ≤ repeatedSum v (n + 1) := by
  have hkeep : (0 : ℚ) ≤ 1 - 2 ^ (-53 : ℤ) := by norm_num
  have hone : (1 : ℚ) - 2 ^ (-53 : ℤ) ≤ 1 := sub_le_self _ (by positivity)
  induction n with
  | zero =>
    rw [zero_add, Nat.cast_one, one_mul, pow_zero, mul_one, repeatedSum, repeatedSum, zero_add,
      rounded_of_representable hv]
  | succ n ih =>
    have hall : v * (1 - 2 ^ (-53 : ℤ)) ^ n ≤ v := mul_le_of_le_one_right hv0 (pow_le_one₀ hkeep hone)
    calc (n + 1 + 1 : ℕ) * v * (1 - 2 ^ (-53 : ℤ)) ^ (n + 1)
        = ((n + 1 : ℕ) * v * (1 - 2 ^ (-53 : ℤ)) ^ n + v * (1 - 2 ^ (-53 : ℤ)) ^ n) * (1 - 2 ^ (-53 : ℤ)) := by
          push_cast
          ring
      _ ≤ (repeatedSum v (n + 1) + v) * (1 - 2 ^ (-53 : ℤ)) := by gcongr
      _ ≤ repeatedSum v (n + 1 + 1) :=
          mul_le_rounded_add (representable_repeatedSum v _) hv (repeatedSum_nonneg hv0 _) hv0

/-- **If every multiple is a number, the sum is exact.** -/
theorem repeatedSum_eq {v : ℚ} {n : ℕ} (h : ∀ k ≤ n, Representable (k * v)) : repeatedSum v n = n * v := by
  induction n with
  | zero => rw [repeatedSum, Nat.cast_zero, zero_mul]
  | succ n ih =>
    have hlast := h (n + 1) le_rfl
    rw [Nat.cast_succ, add_mul, one_mul] at hlast ⊢
    rw [repeatedSum, ih fun k hk => h k (hk.trans n.le_succ), rounded_of_representable hlast]

/-- Multiples are numbers as long as the mantissa has room for them. -/
theorem representable_multiple {m e : ℤ} {n k : ℕ} (hm : 0 ≤ m) (he : -1074 ≤ e) (hn : n * m ≤ 2 ^ 53) (hk : k ≤ n) :
    Representable (k * (m * 2 ^ e)) := by
  have hle : (k : ℤ) * m ≤ n * m := mul_le_mul_of_nonneg_right (by exact_mod_cast hk) hm
  have hrep : Representable (((k * m : ℤ) : ℚ) * 2 ^ e) :=
    representable_of_le (by rw [abs_of_nonneg (by positivity)]; omega) he
  push_cast at hrep
  rwa [mul_assoc] at hrep

/-- A number and its double are numbers. -/
theorem representable_multiple_of_le_two {v : ℚ} (hv : Representable v) {k : ℕ} (hk : k ≤ 2) :
    Representable (k * v) := by
  interval_cases k
  · rw [Nat.cast_zero, zero_mul]
    exact representable_zero
  · rwa [Nat.cast_one, one_mul]
  · rw [Nat.cast_ofNat, mul_comm]
    exact hv.twice

/-! ## Equal numbers -/

/-- Infinity stays infinite when a number is added. -/
theorem parts_infinity_add {x y : Float} {v : ℚ} (hx : parts x = .infinity .positive) (hy : value? y = some v) :
    parts (x + y) = .infinity .positive := by
  have hadd : UnpackedFloat.add Format.binary64 (parts x) (parts y) = .infinity .positive := by
    rw [hx]
    unfold value? at hy
    cases hparts : parts y with
    | zero s => rfl
    | finite s m e hpos => rfl
    | _ =>
      rw [hparts] at hy
      cases hy
  exact parts_add hadd trivial

/-- **The sum of equal numbers** is the sum of their rationals, or infinite if that is too great. -/
theorem sum_replicate {x : Float} {v : ℚ} (hx : value? x = some v) (hv : 0 ≤ v) (n : ℕ) :
    if repeatedSum v n < limit then value? (Summary.sum (List.replicate n x)) = some (repeatedSum v n)
    else parts (Summary.sum (List.replicate n x)) = .infinity .positive := by
  induction n with
  | zero =>
    have hzero : value? (-0.0) = some 0 := rfl
    rw [repeatedSum, if_pos limit_pos]
    exact hzero
  | succ n ih =>
    have hlast : Summary.sum (List.replicate (n + 1) x) = Summary.sum (List.replicate n x) + x := by
      rw [List.replicate_succ', Summary.sum, List.foldl_append]
      rfl
    have hgrow := repeatedSum_le_succ hv n
    rw [hlast]
    split_ifs at ih with hbefore
    · have hround : Rounds (Summary.sum (List.replicate n x) + x) (repeatedSum v n + v) := rounds_add ih hx
      have hnonneg : 0 ≤ rounded (repeatedSum v n + v) := repeatedSum_nonneg hv (n + 1)
      unfold Rounds at hround
      rwa [abs_of_nonneg hnonneg, if_neg (not_lt.mpr hnonneg)] at hround
    · rw [if_neg (not_lt.mpr ((not_lt.mp hbefore).trans hgrow))]
      exact parts_infinity_add ih hx

end LatencyReport.Binary64
