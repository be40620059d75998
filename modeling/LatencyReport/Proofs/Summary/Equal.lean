import LatencyReport.Proofs.Binary64.Repeated
import LatencyReport.Proofs.Summary.Percentile

/-!
# `Proofs.Summary.Equal` — the summary of equal samples

Equal samples have their maximum and their percentile for free: the two neighbours of any rank are one number, and what is
added to the lower one is zero times something, which is zero or no number at all. **Their mean is another matter.** The sum
is rounded at every step (`repeatedSum`), and nothing brings a mean back that came out too small: the maximum bounds it from
above only. So the mean of equal samples is exact if the rounded mean is not below them, or if the sum is infinite, and
**only then** (`Summary.ofSamples?_equal`). Three times `0.7` shows that it may be less (`Summary.mean_lt_of_equal`).

Up to two samples are exact, and so are as many as leave room in the mantissa for their multiple; whole numbers of
nanoseconds are of this kind, as long as their sum is at most `2 ^ 53`. Otherwise the mean keeps all but `2 ^ -53` of itself
for each sample after the first.

## Contents

* `lesser_eq_right`, `lesser_eq_left` — which one the lesser is;
* `parts_zero_mul`, `lesser_percentile` — the percentile of equal samples;
* `equalMean`, `lesser_mean_eq`, `value?_lesser_mean` — their mean;
* `ofAscending?_replicate`, `ofSamples?_replicate` — their summary;
* `Summary.ofSamples?_equal`, `Summary.mean_lt_of_equal` — what is exact.
-/

namespace LatencyReport

open Binary64 Float.Model Float.Model.UnpackedFloat

/-! ## The lesser of two -/

/-- The second one is the lesser of what is no number, infinite or not below it. -/
theorem lesser_eq_right {x y : Float} {q : ℚ} (hq : value? y = some q)
    (h : parts x = .notANumber ∨ parts x = .infinity .positive ∨ ∃ p, value? x = some p ∧ q ≤ p) : lesser x y = y := by
  unfold lesser
  rcases h with hnan | hinf | ⟨p, hp, hle⟩
  · rw [isNaN_eq, hnan]
    rfl
  · rw [if_pos (le_of_infinity hinf hq), ite_self]
  · rw [if_pos ((le_iff hq hp).mpr hle), ite_self]

theorem lesser_eq_left {x y : Float} {p q : ℚ} (hp : value? x = some p) (hq : value? y = some q) (h : p < q) :
    lesser x y = x := by
  rw [lesser, isNaN_eq_false hp, if_neg Bool.false_ne_true, if_neg]
  rw [le_iff hq hp, not_le]
  exact h

/-! ## The percentile -/

/-- Zero times what is no rational is no number. -/
theorem parts_zero_mul {x y : Float} (hx : value? x = some 0)
    (hy : parts y = .notANumber ∨ parts y = .infinity .positive) : parts (x * y) = .notANumber := by
  have hmul : UnpackedFloat.mul Format.binary64 (parts x) (parts y) = .notANumber := by
    unfold value? at hx
    cases hparts : parts x with
    | zero s => rcases hy with hy | hy <;> rw [hy] <;> rfl
    | finite s m e hpos =>
      rw [hparts] at hx
      have hmag : (0 : ℚ) < m * 2 ^ e := by positivity
      have hzero := congrArg (|·|) (Option.some.inj hx)
      simp only [abs_signed s hmag.le, abs_zero] at hzero
      exact absurd hzero hmag.ne'
    | _ =>
      rw [hparts] at hx
      cases hx
  exact parts_mul hmul trivial

theorem parts_add_notANumber {x y : Float} (hy : parts y = .notANumber) : parts (x + y) = .notANumber := by
  have hadd : UnpackedFloat.add Format.binary64 (parts x) (parts y) = .notANumber := by
    rw [hy]
    cases parts x <;> rfl
  exact parts_add hadd trivial

/-- **Between two neighbours that are one number there is only that number**, whatever the rest of the rank is. -/
theorem lesser_percentile {x rest : Float} {v : ℚ} (hx : value? x = some v) (hrest : NotNegative (parts rest)) :
    lesser (x + (x - x) * rest) x = x := by
  have hgap : value? (x - x) = some 0 := by
    have h := rounds_sub hx hx
    rw [sub_self] at h
    exact h.exact representable_zero (by rw [abs_zero]; exact limit_pos)
  apply lesser_eq_right hx
  rcases hrest.cases with hnan | hinf | ⟨r, hr, _⟩
  · exact Or.inl (parts_add_notANumber (parts_zero_mul hgap (Or.inl hnan)))
  · exact Or.inl (parts_add_notANumber (parts_zero_mul hgap (Or.inr hinf)))
  · have hmul := rounds_mul hgap hr
    rw [zero_mul] at hmul
    have hzero := hmul.exact representable_zero (by rw [abs_zero]; exact limit_pos)
    have hadd := rounds_add hx hzero
    rw [add_zero] at hadd
    exact Or.inr (Or.inr ⟨v, hadd.exact (representable_of_value? hx) (abs_lt_limit hx), le_refl v⟩)

/-- The neighbours of the 99th percentile are there, however many numbers there are. -/
theorem upperIndex_ninetyNinth_le (n : ℕ) : upperIndex n ninetyNinth ≤ n - 1 :=
  roundUp_le fun hn => exists_rank value?_ninetyNinth (by positivity) (by norm_num) hn

theorem percentile?_replicate {n : ℕ} (hn : n ≠ 0) (x : Float) :
    percentile? (List.replicate n x) ninetyNinth =
      some (x + (x - x) * (rankOf n ninetyNinth - Float.ofNat (lowerIndex n ninetyNinth))) := by
  have hupper := upperIndex_ninetyNinth_le n
  have hlower : lowerIndex n ninetyNinth ≤ upperIndex n ninetyNinth := le_roundUp _ _
  have hget : ∀ i ≤ n - 1, (List.replicate n x)[i]? = some x :=
    fun i hi => List.getElem?_replicate_of_lt (by omega)
  have h := @percentile?_eq (List.replicate n x) ninetyNinth x x
  rw [List.length_replicate] at h
  exact h (hget _ (hlower.trans hupper)) (hget _ hupper)

/-! ## The mean -/

/-- The mean of equal rationals, as it is computed: their sum is rounded at every step, the count is rounded, and so is the
    quotient. -/
def equalMean (v : ℚ) (n : ℕ) : ℚ :=
  rounded (repeatedSum v n / rounded n)

/-- An infinite sum is not brought back by the count: the lesser of its mean and a number is the number. -/
theorem lesser_infinity_div {x y : Float} {v : ℚ} (hx : parts x = .infinity .positive) (hy : value? y = some v) {n : ℕ}
    (hn : n ≠ 0) : lesser (x / Float.ofNat n) y = y := by
  have hcount := notNegative_ofNat n
  apply lesser_eq_right hy
  cases h : parts (Float.ofNat n) with
  | zero s => exact absurd h (ofNat_ne_zero hn s)
  | finite s m e hpos =>
    rw [h] at hcount
    obtain rfl : s = .positive := hcount
    exact Or.inr (Or.inl (parts_div (u := .infinity .positive) (by rw [hx, h]; rfl) trivial))
  | _ => exact Or.inl (parts_div (u := .notANumber) (by rw [hx, h]; rfl) trivial)

theorem one_le_rounded_natCast {n : ℕ} (hn : n ≠ 0) : 1 ≤ rounded n := by
  have hone := representable_natCast_of_le (n := 1) (by norm_num)
  rw [Nat.cast_one] at hone
  exact le_rounded hone (by exact_mod_cast Nat.one_le_iff_ne_zero.mpr hn)

/-- A finite sum has a finite mean. -/
theorem value?_mean {x : Float} {v : ℚ} (hx : value? x = some v) (hv : 0 ≤ v) {n : ℕ} (hn : n ≠ 0) (hcount : n < 2 ^ 64)
    (hsum : repeatedSum v n < limit) :
    value? (Summary.sum (List.replicate n x) / Float.ofNat n) = some (equalMean v n) := by
  have hone := one_le_rounded_natCast hn
  have hnonneg := repeatedSum_nonneg hv n
  have htotal := sum_replicate hx hv n
  rw [if_pos hsum] at htotal
  apply (rounds_div htotal (value?_ofNat hcount) (by positivity)).value
  rw [abs_of_nonneg (rounded_nonneg (div_nonneg hnonneg (by positivity)))]
  exact (rounded_le (representable_repeatedSum v n) (div_le_self hnonneg hone)).trans_lt hsum

/-- If the sum is infinite or the computed mean is not below the numbers, the mean is brought back to them. -/
theorem lesser_mean_eq {x : Float} {v : ℚ} (hx : value? x = some v) (hv : 0 ≤ v) {n : ℕ} (hn : n ≠ 0)
    (hcount : n < 2 ^ 64) (h : limit ≤ repeatedSum v n ∨ v ≤ equalMean v n) :
    lesser (Summary.sum (List.replicate n x) / Float.ofNat n) x = x := by
  rcases le_or_gt limit (repeatedSum v n) with hgreat | hsum
  · have htotal := sum_replicate hx hv n
    rw [if_neg (not_lt.mpr hgreat)] at htotal
    exact lesser_infinity_div htotal hx hn
  · have hle : v ≤ equalMean v n := h.resolve_left (not_le.mpr hsum)
    exact lesser_eq_right hx (Or.inr (Or.inr ⟨_, value?_mean hx hv hn hcount hsum, hle⟩))

/-- Otherwise it stays what it was computed to be. -/
theorem value?_lesser_mean {x : Float} {v : ℚ} (hx : value? x = some v) (hv : 0 ≤ v) {n : ℕ} (hn : n ≠ 0)
    (hcount : n < 2 ^ 64) (h : ¬(limit ≤ repeatedSum v n ∨ v ≤ equalMean v n)) :
    value? (lesser (Summary.sum (List.replicate n x) / Float.ofNat n) x) = some (equalMean v n) := by
  rw [not_or, not_le, not_le] at h
  have hvalue := value?_mean hx hv hn hcount h.1
  rwa [lesser_eq_left hvalue hx h.2]

/-- **If nothing is lost in the sum, the mean is exact**: the quotient is the number itself. -/
theorem equalMean_eq {v : ℚ} (hv : Representable v) {n : ℕ} (hn : n ≠ 0) (hcount : n ≤ 2 ^ 53)
    (h : repeatedSum v n = n * v) : equalMean v n = v := by
  rw [equalMean, h, rounded_of_representable (representable_natCast_of_le hcount),
    mul_div_cancel_left₀ v (Nat.cast_ne_zero.mpr hn), rounded_of_representable hv]

/-- What the mean of equal rationals keeps. -/
theorem rounded_le_equalMean {v : ℚ} (hv : Representable v) (hv0 : 0 ≤ v) {n : ℕ} (hn : n ≠ 0) (hcount : n ≤ 2 ^ 53) :
    rounded (v * (1 - 2 ^ (-53 : ℤ)) ^ (n - 1)) ≤ equalMean v n := by
  obtain ⟨k, rfl⟩ := Nat.exists_eq_succ_of_ne_zero hn
  have hkept := mul_le_repeatedSum hv hv0 k
  have hpos : (0 : ℚ) < (k + 1 : ℕ) := by positivity
  rw [equalMean, rounded_of_representable (representable_natCast_of_le hcount), Nat.succ_sub_one]
  apply rounded_mono
  rw [le_div_iff₀ hpos]
  linarith

/-! ## The summary -/

namespace Summary

/-- Equal samples are in order. -/
theorem ofSamples?_replicate (n : ℕ) (x : Float) :
    ofSamples? (List.replicate n x) = ofAscending? (List.replicate n x) := by
  have hsorted : ascending (List.replicate n x.toBits) = List.replicate n x.toBits :=
    List.perm_replicate.mp (perm_ascending _)
  rw [ofSamples?, ofBits?, List.map_replicate, hsorted, List.map_replicate, Float.ofBits_toBits]

theorem ofAscending?_replicate {x : Float} {v : ℚ} (hx : value? x = some v) {n : ℕ} (hn : n ≠ 0) :
    ofAscending? (List.replicate n x) = some ⟨lesser (sum (List.replicate n x) / Float.ofNat n) x, x, x⟩ := by
  have hfraction : NotNegative (parts (clampUnit ninetyNinth)) := notNegative_of_value value?_ninetyNinth (by positivity)
  have hrest := notNegative_rest (hfraction.mul (notNegative_ofNat (n - 1)))
  have hlast : (List.replicate n x).getLast? = some x := by rw [List.getLast?_replicate, if_neg hn]
  unfold ofAscending?
  simp only [hlast, percentile?_replicate hn, List.length_replicate]
  rw [lesser_percentile hx]
  exact hrest

/-- **What is exact in the summary of equal samples.** Their greatest one and their 99th percentile are the sample itself.
    Their mean is not above it, and it is the sample if and only if the sum is infinite or the mean as it is computed is
    not below the sample; otherwise it is that computed mean. So it is if there are one or two samples, or as many as leave
    room for their multiple in the mantissa. What it loses is at most `2 ^ -53` for every sample after the first, but for
    the last rounding. -/
theorem ofSamples?_equal {x : Float} {v : ℚ} (hx : value? x = some v) (hv : 0 ≤ v) {n : ℕ} (hn : n ≠ 0) :
    ∃ s, ofSamples? (List.replicate n x) = some s ∧ s.max = x ∧ s.p99 = x ∧ 0 ≤ s.mean ∧ s.mean ≤ x ∧
      (n < 2 ^ 64 → (s.mean = x ↔ limit ≤ repeatedSum v n ∨ v ≤ equalMean v n) ∧
        (s.mean ≠ x → value? s.mean = some (equalMean v n))) ∧
      (n ≤ 2 ^ 53 →
        (n ≤ 2 ∨ (∃ m e : ℤ, v = m * 2 ^ e ∧ -1074 ≤ e ∧ n * m ≤ 2 ^ 53) → s.mean = x) ∧
        ∃ μ, value? s.mean = some μ ∧ rounded (v * (1 - 2 ^ (-53 : ℤ)) ^ (n - 1)) ≤ μ) := by
  have hrep := representable_of_value? hx
  have hsum : NotNegative (parts (sum (List.replicate n x))) := by
    apply notNegative_sum
    intro y hy
    rw [List.eq_of_mem_replicate hy]
    exact notNegative_of_value hx hv
  obtain ⟨μ, hμ, hμ0, hle⟩ := lesser_spec (hsum.div (notNegative_ofNat n) (ofNat_ne_zero hn)) hx hv
  refine ⟨_, (ofSamples?_replicate n x).trans (ofAscending?_replicate hx hn), rfl, rfl, (le_iff value?_zero hμ).mpr hμ0,
    (le_iff hμ hx).mpr hle, fun hcount => ⟨⟨fun hmean => ?_, lesser_mean_eq hx hv hn hcount⟩, fun hne => ?_⟩,
    fun hcount => ⟨fun hroom => ?_, μ, hμ, ?_⟩⟩
  · -- a computed mean below the sample would be the mean, and that is the sample
    by_contra hnot
    have hless : some v = some (equalMean v n) := by
      rw [← hx, ← value?_lesser_mean hx hv hn hcount hnot]
      exact congrArg value? hmean.symm
    rw [Option.some.injEq] at hless
    exact hnot (Or.inr hless.le)
  · exact value?_lesser_mean hx hv hn hcount fun hexact => hne (lesser_mean_eq hx hv hn hcount hexact)
  · have hmultiple : repeatedSum v n = n * v := by
      apply repeatedSum_eq
      rcases hroom with htwo | ⟨m, e, rfl, he, hle⟩
      · exact fun k hk => representable_multiple_of_le_two hrep (hk.trans htwo)
      · have hm : 0 ≤ m := by
          have hpow : (0 : ℚ) < 2 ^ e := by positivity
          exact_mod_cast nonneg_of_mul_nonneg_left hv hpow
        exact fun k hk => representable_multiple hm he hle hk
    exact lesser_mean_eq hx hv hn (by omega) (Or.inr (equalMean_eq hrep hn hcount hmultiple).ge)
  · by_cases hexact : limit ≤ repeatedSum v n ∨ v ≤ equalMean v n
    · -- the sample itself has lost nothing
      have hkept : (1 - 2 ^ (-53 : ℤ) : ℚ) ^ (n - 1) ≤ 1 := pow_le_one₀ (by norm_num) (by norm_num)
      rw [lesser_mean_eq hx hv hn (by omega) hexact, hx, Option.some.injEq] at hμ
      rw [← hμ]
      exact rounded_le hrep (mul_le_of_le_one_right hv hkept)
    · rw [value?_lesser_mean hx hv hn (by omega) hexact, Option.some.injEq] at hμ
      rw [← hμ]
      exact rounded_le_equalMean hrep hv hn hcount

/-- A thousand samples of three. -/
theorem ofSamples?_equal_of_thousand :
    value? 3 = some 3 ∧ (0 : ℚ) ≤ 3 ∧ 1000 ≠ 0 ∧
      ∃ s, ofSamples? (List.replicate 1000 3) = some s ∧ s.max = 3 ∧ s.p99 = 3 ∧ s.mean = 3 := by
  have hthree : value? 3 = some 3 := value?_ofNat_of_le (n := 3) (by norm_num)
  obtain ⟨s, hs, hmax, hp99, -, -, -, hroom⟩ := ofSamples?_equal hthree (by norm_num) (n := 1000) (by decide)
  exact ⟨hthree, by norm_num, by decide, s, hs, hmax, hp99,
    (hroom (by decide)).1 (Or.inr ⟨3, 0, by norm_num, by decide, by decide⟩)⟩

/-- **The mean of three equal samples may be less than they are.** -/
theorem mean_lt_of_equal :
    ∃ s, ofSamples? [0.7, 0.7, 0.7] = some s ∧ s.max = 0.7 ∧ s.p99 = 0.7 ∧ s.mean < 0.7 := by
  have hparts : parts 0.7 = .finite .positive 6305039478318694 (-53) (by norm_num) := rfl
  have hmean : lesser (sum (List.replicate 3 0.7) / Float.ofNat 3) 0.7 < 0.7 := by decide +kernel
  exact ⟨_, (ofSamples?_replicate 3 0.7).trans (ofAscending?_replicate (value?_of_parts hparts) (by decide)), rfl, rfl, hmean⟩

end Summary

end LatencyReport
