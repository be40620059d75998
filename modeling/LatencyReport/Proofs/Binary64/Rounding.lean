import Mathlib.Algebra.Order.Field.Power
import Mathlib.Algebra.Order.Floor.Ring
import Mathlib.Data.Int.Log
import Mathlib.Data.Rat.Floor
import Mathlib.Tactic.FieldSimp
import Mathlib.Tactic.Linarith
import Mathlib.Tactic.NormNum
import Mathlib.Tactic.Positivity
import Mathlib.Tactic.Ring

/-!
# `Proofs.Binary64.Rounding` — rationals rounded to 53 binary digits

Every result of an operation on numbers is the exact result **rounded**: to the nearest multiple of a power of two that
depends on its magnitude (`ulpExponent`), and of two that are as near to the even one. Powers of two below `2 ^ -1074` are
not used, and here there is no greatest number: what is rounded to `2 ^ 1024` or beyond becomes infinity only where the
result is packed.

An inequality survives rounding by two facts. Rounding keeps the order (`rounded_mono`), and it leaves alone what has 53
digits already (`rounded_of_representable`). So a bound that is itself representable holds of the rounded result as soon
as it holds of the exact one (`rounded_le`, `le_rounded`), whatever the error is.

## Contents

* `nearestInt`, `nearestInt_eq` — the nearest integer, the even one of two;
* `ulpExponent`, `le_ulpExponent_iff` — the place of the last digit;
* `rounded`, `rounded_eq`, `Representable`, `rounded_of_representable` — what is rounded, and what need not be;
* `Representable.half`, `Representable.twice` — one binary place up or down;
* `rounded_mono`, `rounded_le`, `le_rounded` — order;
* `exists_neighbours` — what stands next to a whole number.
-/

namespace LatencyReport.Binary64

/-! ## The nearest integer -/

/-- The integer that is nearest to a rational, the even one of two. -/
def nearestInt (x : ℚ) : ℤ :=
  if Int.fract x < 1 / 2 then ⌊x⌋ else if 1 / 2 < Int.fract x then ⌊x⌋ + 1 else ⌊x⌋ + ⌊x⌋ % 2

theorem floor_le_nearestInt (x : ℚ) : ⌊x⌋ ≤ nearestInt x := by
  unfold nearestInt
  split_ifs <;> omega

theorem nearestInt_le_floor_add_one (x : ℚ) : nearestInt x ≤ ⌊x⌋ + 1 := by
  unfold nearestInt
  split_ifs <;> omega

@[simp]
theorem nearestInt_intCast (n : ℤ) : nearestInt n = n := by
  simp [nearestInt]

/-- The nearest integer keeps the order. -/
theorem nearestInt_mono {x y : ℚ} (h : x ≤ y) : nearestInt x ≤ nearestInt y := by
  rcases (Int.floor_mono h).lt_or_eq with hlt | heq
  · have hx := nearestInt_le_floor_add_one x
    have hy := floor_le_nearestInt y
    omega
  · -- between the same two integers, the fractions decide
    have hfract : Int.fract x ≤ Int.fract y := by
      have hx := Int.floor_add_fract x
      have hy := Int.floor_add_fract y
      rw [heq] at hx
      linarith
    unfold nearestInt
    rw [heq]
    split_ifs <;> first | omega | (exfalso; linarith)

theorem nearestInt_neg (x : ℚ) : nearestInt (-x) = -nearestInt x := by
  by_cases hint : Int.fract x = 0
  · have hx : x = (⌊x⌋ : ℚ) := by
      have h := Int.floor_add_fract x
      rw [hint, add_zero] at h
      exact h.symm
    have hneg : nearestInt (-(⌊x⌋ : ℚ)) = -⌊x⌋ := by
      rw [← Int.cast_neg]
      exact nearestInt_intCast _
    rw [hx, hneg, nearestInt_intCast]
  · have hfract : Int.fract (-x) = 1 - Int.fract x := Int.fract_neg hint
    have hfloor : ⌊-x⌋ = -⌊x⌋ - 1 := by
      have hx := Int.floor_add_fract x
      have hneg := Int.floor_add_fract (-x)
      have hcast : ((⌊-x⌋ : ℤ) : ℚ) = ((-⌊x⌋ - 1 : ℤ) : ℚ) := by
        push_cast
        linarith
      exact Int.cast_injective hcast
    unfold nearestInt
    rw [hfract, hfloor]
    split_ifs <;> first | omega | (exfalso; linarith)

/-- **What is nearer than a half to an integer** has it as its nearest one, and so has what is as near as a half to an even
    one. -/
theorem nearestInt_eq {x : ℚ} {n : ℤ} (hlow : (n : ℚ) - 1 / 2 ≤ x) (hhigh : x ≤ n + 1 / 2)
    (hties : n % 2 = 0 ∨ (n : ℚ) - 1 / 2 < x ∧ x < n + 1 / 2) : nearestInt x = n := by
  unfold nearestInt
  rcases le_or_gt (n : ℚ) x with hle | hlt
  · have hfloor : ⌊x⌋ = n := Int.floor_eq_iff.mpr ⟨hle, by linarith⟩
    rw [Int.fract, hfloor]
    split_ifs with hbelow habove
    · rfl
    · linarith
    · rcases hties with heven | ⟨_, hstrict⟩
      · omega
      · linarith
  · have hfloor : ⌊x⌋ = n - 1 := Int.floor_eq_iff.mpr ⟨by push_cast; linarith, by push_cast; linarith⟩
    rw [Int.fract, hfloor]
    push_cast
    split_ifs with hbelow habove
    · linarith
    · omega
    · rcases hties with heven | ⟨hstrict, _⟩
      · omega
      · linarith

/-! ## The place of the last digit -/

/-- The power of two that a rational is rounded to a multiple of: the one that leaves 53 digits, but none below
    `2 ^ -1074`. -/
def ulpExponent (q : ℚ) : ℤ :=
  if q = 0 then -1074 else max (Int.log 2 |q| - 52) (-1074)

theorem neg_1074_le_ulpExponent (q : ℚ) : -1074 ≤ ulpExponent q := by
  unfold ulpExponent
  split_ifs <;> omega

theorem abs_lt_of_ulpExponent (q : ℚ) : |q| < 2 ^ (ulpExponent q + 53) := by
  unfold ulpExponent
  split_ifs with hq
  · subst hq
    rw [abs_zero]
    positivity
  · have hlog : |q| < (2 : ℕ) ^ (Int.log 2 |q| + 1) := Int.lt_zpow_succ_log_self (by norm_num) _
    have hle : Int.log 2 |q| + 1 ≤ max (Int.log 2 |q| - 52) (-1074) + 53 := by omega
    calc |q| < (2 : ℚ) ^ (Int.log 2 |q| + 1) := by exact_mod_cast hlog
      _ ≤ 2 ^ (max (Int.log 2 |q| - 52) (-1074) + 53) := zpow_le_zpow_right₀ (by norm_num) hle

/-- **A power of two is not above the last digit exactly when it is the least one or 53 digits reach up to it.** -/
theorem le_ulpExponent_iff {e : ℤ} {q : ℚ} : e ≤ ulpExponent q ↔ e ≤ -1074 ∨ 2 ^ (e + 52) ≤ |q| := by
  by_cases hq : q = 0
  · subst hq
    have hpos : (0 : ℚ) < 2 ^ (e + 52) := by positivity
    rw [ulpExponent, if_pos rfl, abs_zero]
    exact ⟨Or.inl, fun h => h.resolve_right (not_le.mpr hpos)⟩
  · have hlog : e + 52 ≤ Int.log 2 |q| ↔ (2 : ℚ) ^ (e + 52) ≤ |q| := by
      have h := Int.zpow_le_iff_le_log (b := 2) (x := e + 52) (by norm_num) (abs_pos.mpr hq)
      exact_mod_cast h.symm
    rw [ulpExponent, if_neg hq, le_max_iff, ← hlog]
    omega

theorem ulpExponent_le_of_lt {e : ℤ} {q : ℚ} (he : -1074 ≤ e) (h : |q| < 2 ^ (e + 53)) : ulpExponent q ≤ e := by
  by_contra hlt
  have hsucc : e + 1 ≤ ulpExponent q := by omega
  rcases le_ulpExponent_iff.mp hsucc with hlow | hhigh
  · omega
  · have hexp : e + 1 + 52 = e + 53 := by ring
    rw [hexp] at hhigh
    exact absurd h (not_lt.mpr hhigh)

@[simp]
theorem ulpExponent_neg (q : ℚ) : ulpExponent (-q) = ulpExponent q := by
  simp [ulpExponent]

theorem ulpExponent_mono {p q : ℚ} (h : |p| ≤ |q|) : ulpExponent p ≤ ulpExponent q := by
  rw [le_ulpExponent_iff]
  rcases le_ulpExponent_iff.mp (le_refl (ulpExponent p)) with hlow | hhigh
  · exact Or.inl hlow
  · exact Or.inr (hhigh.trans h)

/-! ## Rounding -/

/-- A rational rounded to 53 digits. -/
def rounded (q : ℚ) : ℚ :=
  nearestInt (q / 2 ^ ulpExponent q) * 2 ^ ulpExponent q

/-- A rational is rounded to the multiple of its last digit that is nearer than half of that digit. -/
theorem rounded_eq {q : ℚ} {n e : ℤ} (hplace : ulpExponent q = e) (hlow : ((n : ℚ) - 1 / 2) * 2 ^ e ≤ q)
    (hhigh : q ≤ (n + 1 / 2) * 2 ^ e) (hties : n % 2 = 0 ∨ ((n : ℚ) - 1 / 2) * 2 ^ e < q ∧ q < (n + 1 / 2) * 2 ^ e) :
    rounded q = n * 2 ^ e := by
  have hpos : (0 : ℚ) < 2 ^ e := by positivity
  rw [← le_div_iff₀ hpos] at hlow
  rw [← div_le_iff₀ hpos] at hhigh
  rw [← lt_div_iff₀ hpos, ← div_lt_iff₀ hpos] at hties
  rw [rounded, hplace, nearestInt_eq hlow hhigh hties]

/-- A rational with 53 digits, the last of them not below `2 ^ -1074`. -/
def Representable (q : ℚ) : Prop :=
  ∃ m e : ℤ, |m| < 2 ^ 53 ∧ -1074 ≤ e ∧ q = m * 2 ^ e

theorem representable_zero : Representable 0 :=
  ⟨0, 0, by norm_num, by norm_num, by norm_num⟩

theorem Representable.neg {q : ℚ} (h : Representable q) : Representable (-q) := by
  obtain ⟨m, e, hm, he, rfl⟩ := h
  exact ⟨-m, e, by rwa [abs_neg], he, by push_cast; ring⟩

/-- The multiple `2 ^ 53` of a power of two has 53 digits as well: it is the multiple `2 ^ 52` of the next one. -/
theorem representable_of_le {m e : ℤ} (hm : |m| ≤ 2 ^ 53) (he : -1074 ≤ e) : Representable (m * 2 ^ e) := by
  rcases hm.lt_or_eq with hlt | heq
  · exact ⟨m, e, hlt, he, rfl⟩
  · have hnext : ((2 : ℤ) ^ 53 : ℚ) * 2 ^ e = (2 : ℤ) ^ 52 * 2 ^ (e + 1) := by
      rw [zpow_add₀ (by norm_num)]
      push_cast
      ring
    have hrep : Representable (((2 : ℤ) ^ 53 : ℚ) * 2 ^ e) :=
      ⟨2 ^ 52, e + 1, by norm_num, by omega, by rw [hnext]; push_cast; ring⟩
    rcases abs_eq (by norm_num) |>.mp heq with rfl | rfl
    · exact_mod_cast hrep
    · have hneg := hrep.neg
      rw [← neg_mul] at hneg
      exact_mod_cast hneg

theorem representable_two_zpow {e : ℤ} (he : -1074 ≤ e) : Representable (2 ^ e) :=
  ⟨1, e, by norm_num, he, by norm_num⟩

/-- What is one at least has a last digit that half of it can have. -/
theorem Representable.half {v : ℚ} (h : Representable v) (hone : 1 ≤ v) : Representable (v / 2) := by
  obtain ⟨m, e, hm, he, rfl⟩ := h
  have hpos : (0 : ℚ) < 2 ^ e := by positivity
  have hlow : -1073 ≤ e := by
    by_contra hlt
    obtain rfl : e = -1074 := by omega
    have hfew : (m : ℚ) < 2 ^ (53 : ℤ) := by exact_mod_cast (abs_lt.mp hm).2
    have hsmall : (m : ℚ) * 2 ^ (-1074 : ℤ) < 1 := by
      calc (m : ℚ) * 2 ^ (-1074 : ℤ) < 2 ^ (53 : ℤ) * 2 ^ (-1074 : ℤ) := by gcongr
        _ = 2 ^ (-1021 : ℤ) := by rw [← zpow_add₀ two_ne_zero]; norm_num
        _ ≤ 1 := zpow_le_one_of_nonpos₀ one_le_two (by norm_num)
    exact absurd hone (not_le.mpr hsmall)
  refine ⟨m, e - 1, hm, by omega, ?_⟩
  rw [zpow_sub₀ two_ne_zero, zpow_one, mul_div_assoc]

theorem Representable.twice {v : ℚ} (h : Representable v) : Representable (v * 2) := by
  obtain ⟨m, e, hm, he, rfl⟩ := h
  refine ⟨m, e + 1, hm, by omega, ?_⟩
  rw [zpow_add₀ two_ne_zero, zpow_one, mul_assoc]

/-- A natural number of 53 digits is representable. -/
theorem representable_natCast {n : ℕ} (h : n < 2 ^ 53) : Representable n :=
  ⟨n, 0, by rw [Nat.abs_cast]; exact_mod_cast h, by norm_num, by norm_num⟩

/-- The least natural number of 54 digits is representable as well. -/
theorem representable_natCast_of_le {n : ℕ} (h : n ≤ 2 ^ 53) : Representable n := by
  have hrep := @representable_of_le n 0 (by rw [Nat.abs_cast]; exact_mod_cast h) (by norm_num)
  rwa [zpow_zero, mul_one, Int.cast_natCast] at hrep

theorem div_two_zpow_lt (q : ℚ) : |q / 2 ^ ulpExponent q| < 2 ^ 53 := by
  have hpos : (0 : ℚ) < 2 ^ ulpExponent q := by positivity
  rw [abs_div, abs_of_pos hpos, div_lt_iff₀ hpos]
  have h := abs_lt_of_ulpExponent q
  rw [zpow_add₀ (by norm_num), mul_comm] at h
  exact_mod_cast h

theorem abs_nearestInt_le {x : ℚ} {n : ℕ} (h : |x| ≤ n) : |nearestInt x| ≤ n := by
  obtain ⟨hlow, hhigh⟩ := abs_le.mp h
  rw [abs_le]
  constructor
  · have hle := nearestInt_mono hlow
    rw [nearestInt_neg] at hle
    have hcast : nearestInt (n : ℚ) = n := by exact_mod_cast nearestInt_intCast n
    omega
  · have hle := nearestInt_mono hhigh
    have hcast : nearestInt (n : ℚ) = n := by exact_mod_cast nearestInt_intCast n
    omega

/-- What is rounded has 53 digits. -/
theorem representable_rounded (q : ℚ) : Representable (rounded q) := by
  have hle : |nearestInt (q / 2 ^ ulpExponent q)| ≤ (2 ^ 53 : ℕ) :=
    abs_nearestInt_le (by exact_mod_cast (div_two_zpow_lt q).le)
  exact representable_of_le (by exact_mod_cast hle) (neg_1074_le_ulpExponent q)

/-- **What has 53 digits is not changed.** -/
theorem rounded_of_representable {q : ℚ} (h : Representable q) : rounded q = q := by
  obtain ⟨m, e, hm, he, rfl⟩ := h
  have hle : ulpExponent (m * 2 ^ e) ≤ e := by
    apply ulpExponent_le_of_lt he
    have hpos : (0 : ℚ) < 2 ^ e := by positivity
    rw [abs_mul, abs_of_pos hpos, zpow_add₀ (by norm_num), mul_comm]
    have hcast : |(m : ℚ)| < 2 ^ 53 := by exact_mod_cast hm
    exact mul_lt_mul_of_pos_left (by exact_mod_cast hcast) hpos
  -- a multiple of the greater power of two is one of the lesser
  obtain ⟨k, hk⟩ := Int.eq_ofNat_of_zero_le (sub_nonneg.mpr hle)
  have hquot : (m : ℚ) * 2 ^ e / 2 ^ ulpExponent (m * 2 ^ e) = ((m * 2 ^ k : ℤ) : ℚ) := by
    rw [mul_div_assoc, ← zpow_sub₀ (by norm_num), hk]
    push_cast
    rw [zpow_natCast]
  unfold rounded
  rw [hquot, nearestInt_intCast, ← hquot]
  exact div_mul_cancel₀ _ (by positivity)

theorem rounded_neg (q : ℚ) : rounded (-q) = -rounded q := by
  unfold rounded
  rw [ulpExponent_neg, neg_div, nearestInt_neg, Int.cast_neg, neg_mul]

@[simp]
theorem rounded_zero : rounded 0 = 0 :=
  rounded_of_representable representable_zero

theorem rounded_rounded (q : ℚ) : rounded (rounded q) = rounded q :=
  rounded_of_representable (representable_rounded q)

/-! ## Order -/

theorem rounded_nonneg {q : ℚ} (h : 0 ≤ q) : 0 ≤ rounded q := by
  have hdiv : (0 : ℚ) ≤ q / 2 ^ ulpExponent q := by positivity
  have hint : 0 ≤ nearestInt (q / 2 ^ ulpExponent q) := (Int.floor_nonneg.mpr hdiv).trans (floor_le_nearestInt _)
  unfold rounded
  positivity

/-- Rounding keeps the order of what is not negative: with the same last digit since the nearest integer does, and with
    different ones since a power of two lies between. -/
theorem rounded_mono_of_nonneg {p q : ℚ} (hp : 0 ≤ p) (h : p ≤ q) : rounded p ≤ rounded q := by
  have hq : 0 ≤ q := hp.trans h
  have habs : |p| ≤ |q| := by rwa [abs_of_nonneg hp, abs_of_nonneg hq]
  rcases (ulpExponent_mono habs).lt_or_eq with hlt | heq
  · have hhalf : (2 : ℚ) ^ (ulpExponent q + 52) ≤ q := by
      rcases le_ulpExponent_iff.mp (le_refl (ulpExponent q)) with hlow | hhigh
      · have := neg_1074_le_ulpExponent p
        omega
      · rwa [abs_of_nonneg hq] at hhigh
    have hup : nearestInt (p / 2 ^ ulpExponent p) ≤ (2 ^ 53 : ℕ) :=
      (le_abs_self _).trans (abs_nearestInt_le (by exact_mod_cast (div_two_zpow_lt p).le))
    have hdown : ((2 ^ 52 : ℤ) : ℚ) ≤ q / 2 ^ ulpExponent q := by
      rw [le_div_iff₀ (by positivity)]
      rw [zpow_add₀ (by norm_num), mul_comm] at hhalf
      exact_mod_cast hhalf
    have hdown' : (2 ^ 52 : ℤ) ≤ nearestInt (q / 2 ^ ulpExponent q) :=
      (nearestInt_intCast (2 ^ 52)).symm.le.trans (nearestInt_mono hdown)
    calc rounded p ≤ (2 ^ 53 : ℚ) * 2 ^ ulpExponent p := by
          unfold rounded
          gcongr
          exact_mod_cast hup
      _ = 2 ^ (ulpExponent p + 53) := by
          rw [zpow_add₀ (by norm_num), mul_comm]
          norm_cast
      _ ≤ 2 ^ (ulpExponent q + 52) := zpow_le_zpow_right₀ (by norm_num) (by omega)
      _ = (2 ^ 52 : ℚ) * 2 ^ ulpExponent q := by
          rw [zpow_add₀ (by norm_num), mul_comm]
          norm_cast
      _ ≤ rounded q := by
          unfold rounded
          gcongr
          exact_mod_cast hdown'
  · have hdiv : p / 2 ^ ulpExponent q ≤ q / 2 ^ ulpExponent q := by gcongr
    unfold rounded
    rw [heq]
    gcongr
    exact nearestInt_mono hdiv

/-- **Rounding keeps the order.** -/
theorem rounded_mono {p q : ℚ} (h : p ≤ q) : rounded p ≤ rounded q := by
  rcases le_total 0 p with hp | hp
  · exact rounded_mono_of_nonneg hp h
  · rcases le_total 0 q with hq | hq
    · have hneg : rounded p ≤ 0 := by
        have := rounded_nonneg (neg_nonneg.mpr hp)
        rw [rounded_neg] at this
        linarith
      exact hneg.trans (rounded_nonneg hq)
    · have hle := rounded_mono_of_nonneg (neg_nonneg.mpr hq) (neg_le_neg h)
      rw [rounded_neg, rounded_neg] at hle
      linarith

/-- **A representable bound from above holds of what is rounded.** -/
theorem rounded_le {p q : ℚ} (hq : Representable q) (h : p ≤ q) : rounded p ≤ q :=
  (rounded_mono h).trans (rounded_of_representable hq).le

/-- **A representable bound from below holds of what is rounded.** -/
theorem le_rounded {p q : ℚ} (hp : Representable p) (h : p ≤ q) : p ≤ rounded q :=
  (rounded_of_representable hp).ge.trans (rounded_mono h)

theorem rounded_nonpos {q : ℚ} (h : q ≤ 0) : rounded q ≤ 0 :=
  rounded_le representable_zero h

theorem abs_rounded (q : ℚ) : |rounded q| = rounded |q| := by
  rcases le_total 0 q with hq | hq
  · rw [abs_of_nonneg hq, abs_of_nonneg (rounded_nonneg hq)]
  · rw [abs_of_nonpos hq, abs_of_nonpos (rounded_nonpos hq), rounded_neg]

/-- What is rounded has its last digit where the rational has it, or above. -/
theorem ulpExponent_le_ulpExponent_rounded (q : ℚ) : ulpExponent q ≤ ulpExponent (rounded q) := by
  rw [le_ulpExponent_iff, abs_rounded]
  rcases le_ulpExponent_iff.mp (le_refl (ulpExponent q)) with hlow | hhigh
  · exact Or.inl hlow
  · have hplace := neg_1074_le_ulpExponent q
    exact Or.inr (le_rounded (representable_two_zpow (by omega)) hhigh)

/-- What is rounded is a multiple of its last digit. -/
theorem rounded_div_eq (q : ℚ) :
    rounded q / 2 ^ ulpExponent (rounded q) = nearestInt (rounded q / 2 ^ ulpExponent (rounded q)) := by
  have hpos : (0 : ℚ) < 2 ^ ulpExponent (rounded q) := by positivity
  rw [div_eq_iff hpos.ne']
  exact (rounded_rounded q).symm

/-! ## Neighbours -/

/-- A whole number stands between two neighbours: with 53 digits, and with one more in the last. -/
theorem exists_neighbours {n : ℕ} (hn : n ≠ 0) :
    ∃ m e : ℤ, 2 ^ 52 ≤ m ∧ m < 2 ^ 53 ∧ -1074 ≤ e ∧ (m : ℚ) * 2 ^ e ≤ n ∧ (n : ℚ) ≤ (m + 1 : ℤ) * 2 ^ e := by
  have hpos : (0 : ℚ) < 2 ^ ulpExponent n := by positivity
  have hone : (1 : ℚ) ≤ n := by exact_mod_cast Nat.one_le_iff_ne_zero.mpr hn
  have hplace := neg_1074_le_ulpExponent n
  -- a last digit at the least place is no exception, since the number is not below one
  have hhigh : (2 : ℚ) ^ (ulpExponent n + 52) ≤ n := by
    rcases le_ulpExponent_iff.mp (le_refl (ulpExponent n)) with hlow | hhigh
    · rw [le_antisymm hlow hplace]
      exact le_trans (zpow_le_one_of_nonpos₀ one_le_two (by norm_num)) hone
    · rwa [Nat.abs_cast] at hhigh
  refine ⟨⌊(n : ℚ) / 2 ^ ulpExponent n⌋, ulpExponent n, ?_, ?_, hplace, ?_, ?_⟩
  · rw [zpow_add₀ two_ne_zero] at hhigh
    rw [Int.le_floor, le_div_iff₀ hpos, mul_comm]
    exact_mod_cast hhigh
  · have hlt := div_two_zpow_lt n
    rw [abs_of_nonneg (by positivity)] at hlt
    rw [Int.floor_lt]
    exact_mod_cast hlt
  · rw [← le_div_iff₀ hpos]
    exact Int.floor_le _
  · rw [← div_le_iff₀ hpos]
    push_cast
    exact (Int.lt_floor_add_one _).le

end LatencyReport.Binary64
