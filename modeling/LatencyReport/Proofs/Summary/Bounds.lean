import LatencyReport.Proofs.Binary64.NotNegative
import LatencyReport.Proofs.Summary.Order

/-!
# `Proofs.Summary.Bounds` — no number of a summary is beyond the greatest sample

Of samples that are finite and not below zero, three numbers are computed with rounding at every step: a sum that may
become infinite, a quotient, and a value between two samples. None of this is exact, and the third may become no number
when very many samples are interpolated. But **all of it stays "no number or not below zero"**, and what comes out is
replaced by the greatest sample where it is no number, infinite or greater (`lesser_spec`). So each number of the summary
is between zero and the greatest sample (`ofAscending?_within`), and it stays there in microseconds since a product is
rounded in order (`Within.scaled`).

A summary exists for all samples there are. Both ranks that the percentile is taken between have to be those of
samples; the upper one is, although the rank is rounded twice (`roundUp_le`): 99 parts of 100 are so much less than the
whole that a representable number lies between (`rounded_mul_rounded_le`).

## Contents

* `notNegative_sum`, `lesser_spec` — the sum, and the lesser of two numbers;
* `rounded_mul_rounded_le`, `exists_rank`, `roundUp_le`, `percentile?_spec` — the percentile;
* `Within`, `ofAscending?_within`, `Within.scaled` — the numbers of a summary;
* `BoundedBy`, `ofSamples?_boundedBy` — the summary of samples in microseconds.
-/

namespace LatencyReport

open Binary64 Float.Model Float.Model.UnpackedFloat

/-! ## The sum, and the lesser of two -/

/-- A sum of numbers that are not below zero is not below zero, from the first partial sum on. -/
theorem notNegative_foldl {xs : List Float} (h : ∀ x ∈ xs, NotNegative (parts x)) {total : Float}
    (htotal : NotNegative (parts total)) : NotNegative (parts (xs.foldl (· + ·) total)) := by
  induction xs generalizing total with
  | nil => exact htotal
  | cons x rest ih =>
    apply ih
    · exact fun y hy => h y (List.mem_cons_of_mem x hy)
    · exact htotal.add (h x List.mem_cons_self)

theorem notNegative_sum {xs : List Float} (h : ∀ x ∈ xs, NotNegative (parts x)) : NotNegative (parts (Summary.sum xs)) :=
  notNegative_foldl h trivial

/-- **The lesser of a number and a rational is a rational that is not greater**, whatever the number is. -/
theorem lesser_spec {x y : Float} {q : ℚ} (hx : NotNegative (parts x)) (hq : value? y = some q) (hnonneg : 0 ≤ q) :
    ∃ v, value? (lesser x y) = some v ∧ 0 ≤ v ∧ v ≤ q := by
  unfold lesser
  rcases hx.cases with hnan | hinf | ⟨v, hv, hle⟩
  · rw [isNaN_eq, hnan]
    exact ⟨q, hq, hnonneg, le_refl q⟩
  · rw [if_pos (le_of_infinity hinf hq), ite_self]
    exact ⟨q, hq, hnonneg, le_refl q⟩
  · rw [isNaN_eq_false hv, if_neg Bool.false_ne_true]
    split_ifs with hyx
    · exact ⟨q, hq, hnonneg, le_refl q⟩
    · rw [le_iff hq hv, not_le] at hyx
      exact ⟨v, hv, hle, hyx.le⟩

/-! ## The percentile -/

theorem value?_ninetyNinth : value? (clampUnit ninetyNinth) = some (8917127262193582 * 2 ^ (-53 : ℤ)) := by
  have hparts : parts (clampUnit ninetyNinth) = .finite .positive 8917127262193582 (-53) (by norm_num) := rfl
  exact value?_of_parts hparts

/-- **Less than the whole stays less, although both the whole and the product are rounded**: the part is so much less that
    the number below the whole is not below the part of the number above it. -/
theorem rounded_mul_rounded_le {k : ℚ} (hk : 0 ≤ k) (hle : k ≤ 99 / 100) (n : ℕ) : rounded (k * rounded n) ≤ n := by
  by_cases hn : n = 0
  · subst hn
    simp
  · obtain ⟨m, e, hlow, hhigh, hplace, hdown, hup⟩ := exists_neighbours hn
    have hround : rounded n ≤ (m + 1 : ℤ) * 2 ^ e :=
      rounded_le (representable_of_le (by rw [abs_of_nonneg (by omega)]; omega) hplace) hup
    have hpart : k * (m + 1) ≤ m := by
      have hcast : (2 ^ 52 : ℚ) ≤ m := by exact_mod_cast hlow
      have hmul : k * (m + 1) ≤ 99 / 100 * (m + 1) := mul_le_mul_of_nonneg_right hle (by linarith)
      linarith
    have hbound : k * rounded n ≤ m * 2 ^ e := by
      calc k * rounded n ≤ k * ((m + 1 : ℤ) * 2 ^ e) := by gcongr
        _ = k * (m + 1) * 2 ^ e := by
          push_cast
          ring
        _ ≤ m * 2 ^ e := by gcongr
    exact (rounded_le (representable_of_le (by rw [abs_of_nonneg (by omega)]; omega) hplace) hbound).trans hdown

theorem le_roundUp (rank : Float) (lower : ℕ) : lower ≤ roundUp rank lower := by
  unfold roundUp
  split_ifs <;> omega

theorem roundUp_le_add_one (rank : Float) (lower : ℕ) : roundUp rank lower ≤ lower + 1 := by
  unfold roundUp
  split_ifs <;> omega

/-- **The whole number that is not below a rank is not beyond the last one**, if the rank is not. It is at most `2 ^ 64`
    whatever the rank is, so the rank counts only for fewer numbers than that. -/
theorem roundUp_le {rank : Float} {n : ℕ} (h : n < 2 ^ 64 → ∃ r, value? rank = some r ∧ 0 ≤ r ∧ r ≤ n) :
    roundUp rank rank.toUInt64.toNat ≤ n := by
  have hsmall : rank.toUInt64.toNat < 2 ^ 64 := rank.toUInt64.toNat_lt
  have hnext := roundUp_le_add_one rank rank.toUInt64.toNat
  by_cases hn : n < 2 ^ 64
  · obtain ⟨r, hr, hnonneg, hle⟩ := h hn
    have hlower : rank.toUInt64.toNat ≤ n := by
      have hcast : (rank.toUInt64.toNat : ℚ) ≤ n := (toNat_toUInt64_le hr hnonneg).trans hle
      exact_mod_cast hcast
    rcases hlower.lt_or_eq with hlt | heq
    · omega
    · -- at the last number, the rank is not above it
      have hnot : ¬Float.ofNat rank.toUInt64.toNat < rank := by
        rw [heq, lt_iff (value?_ofNat hn) hr, not_lt]
        exact le_rounded (representable_of_value? hr) hle
      rw [roundUp, if_neg hnot]
      exact hlower
  · omega

/-- The rank is a rational between zero and the last number, unless there are too many. -/
theorem exists_rank {q : Float} {k : ℚ} (hq : value? q = some k) (hk : 0 ≤ k) (hle : k ≤ 99 / 100) {n : ℕ}
    (hn : n < 2 ^ 64) : ∃ r, value? (q * Float.ofNat n) = some r ∧ 0 ≤ r ∧ r ≤ n := by
  have hnonneg : 0 ≤ rounded (k * rounded n) := rounded_nonneg (mul_nonneg hk (rounded_nonneg (Nat.cast_nonneg n)))
  have hbound := rounded_mul_rounded_le hk hle n
  have hlt : |rounded (k * rounded n)| < limit := by
    have hlimit := abs_natCast_lt_limit (hn.trans (by norm_num))
    rw [Nat.abs_cast] at hlimit
    rw [abs_of_nonneg hnonneg]
    exact lt_of_le_of_lt hbound hlimit
  exact ⟨_, (rounds_mul hq (value?_ofNat hn)).value hlt, hnonneg, hbound⟩

/-- What a rank is above its whole part. -/
theorem notNegative_rest {rank : Float} (h : NotNegative (parts rank)) :
    NotNegative (parts (rank - Float.ofNat rank.toUInt64.toNat)) := by
  have hwhole := notNegative_ofNat rank.toUInt64.toNat
  rcases h.cases with hnan | hinf | ⟨r, hr, hnonneg⟩
  · exact notNegative_sub (Or.inl hnan) hwhole
  · exact notNegative_sub (Or.inr hinf) hwhole
  · have hle : rounded (rank.toUInt64.toNat : ℚ) ≤ r :=
      rounded_le (representable_of_value? hr) (toNat_toUInt64_le hr hnonneg)
    have hvalue := value?_ofNat rank.toUInt64.toNat_lt
    exact (rounds_sub hr hvalue).notNegative (sub_nonneg.mpr hle)

/-- Of numbers in order, the one that stands behind is not less. -/
theorem value_le_of_index_le {sorted : List Float} (hsorted : sorted.Pairwise (· ≤ ·)) {i j : ℕ} (hij : i ≤ j)
    {a b : Float} (ha : sorted[i]? = some a) (hb : sorted[j]? = some b) {v w : ℚ} (hv : value? a = some v)
    (hw : value? b = some w) : v ≤ w := by
  rcases hij.lt_or_eq with hlt | rfl
  · obtain ⟨_, rfl⟩ := List.getElem?_eq_some_iff.mp ha
    obtain ⟨_, rfl⟩ := List.getElem?_eq_some_iff.mp hb
    exact (le_iff hv hw).mp (List.pairwise_iff_getElem.mp hsorted _ _ _ _ hlt)
  · rw [ha, Option.some.injEq] at hb
    subst hb
    rw [hv, Option.some.injEq] at hw
    exact hw.le

section
variable {sorted : List Float} (hne : sorted ≠ []) (hdur : ∀ x ∈ sorted, IsDuration x)
  (hsorted : sorted.Pairwise (· ≤ ·))
include hne hdur hsorted

/-- **There is a percentile, and it is no number or not below zero.** -/
theorem percentile?_spec : ∃ p, percentile? sorted ninetyNinth = some p ∧ NotNegative (parts p) := by
  set rank := clampUnit ninetyNinth * Float.ofNat (sorted.length - 1) with hrank
  have hpos : 0 < sorted.length := List.length_pos_iff.mpr hne
  have hlower := le_roundUp rank rank.toUInt64.toNat
  have hupper : roundUp rank rank.toUInt64.toNat ≤ sorted.length - 1 :=
    roundUp_le fun hn => exists_rank value?_ninetyNinth (by positivity) (by norm_num) hn
  obtain ⟨a, ha⟩ : ∃ a, sorted[rank.toUInt64.toNat]? = some a := ⟨_, List.getElem?_eq_getElem (by omega)⟩
  obtain ⟨b, hb⟩ : ∃ b, sorted[roundUp rank rank.toUInt64.toNat]? = some b := ⟨_, List.getElem?_eq_getElem (by omega)⟩
  have hadur := hdur a (List.mem_of_getElem? ha)
  obtain ⟨v, hv, _⟩ := isDuration_iff.mp hadur
  obtain ⟨w, hw, _⟩ := isDuration_iff.mp (hdur b (List.mem_of_getElem? hb))
  have hvw : v ≤ w := value_le_of_index_le hsorted hlower ha hb hv hw
  refine ⟨a + (b - a) * (rank - Float.ofNat rank.toUInt64.toNat), ?_, ?_⟩
  · unfold percentile?
    simp only [← hrank, ha, hb]
  · have hgap : NotNegative (parts (b - a)) := (rounds_sub hw hv).notNegative (sub_nonneg.mpr hvw)
    have hfraction : NotNegative (parts (clampUnit ninetyNinth)) :=
      notNegative_of_value value?_ninetyNinth (by positivity)
    have hrest := notNegative_rest (hfraction.mul (notNegative_ofNat (sorted.length - 1)))
    exact hadur.notNegative.add (hgap.mul hrest)

omit hne in
/-- The last number in order is the greatest. -/
theorem le_of_getLast? {greatest : Float} (hlast : sorted.getLast? = some greatest) : ∀ x ∈ sorted, x ≤ greatest := by
  obtain ⟨front, rfl⟩ := List.getLast?_eq_some_iff.mp hlast
  intro x hx
  rcases List.mem_append.mp hx with hfront | hlast
  · exact (List.pairwise_append.mp hsorted).2.2 x hfront greatest (List.mem_singleton_self greatest)
  · obtain rfl := List.mem_singleton.mp hlast
    obtain ⟨v, hv, _⟩ := isDuration_iff.mp (hdur x hx)
    exact (le_iff hv hv).mpr (le_refl v)

end

/-! ## The numbers of a summary -/

namespace Summary

/-- The greatest number is a rational, and each number is one between zero and that. -/
def Within (s : Summary) : Prop :=
  ∃ q, value? s.max = some q ∧ ∀ k, ∃ v, value? (s.get k) = some v ∧ 0 ≤ v ∧ v ≤ q

/-- **There is a summary of numbers in order, and its numbers are within.** -/
theorem ofAscending?_within {sorted : List Float} (hne : sorted ≠ []) (hdur : ∀ x ∈ sorted, IsDuration x)
    (hsorted : sorted.Pairwise (· ≤ ·)) :
    ∃ s, ofAscending? sorted = some s ∧ sorted.getLast? = some s.max ∧ s.Within := by
  obtain ⟨p, hp, hnot⟩ := percentile?_spec hne hdur hsorted
  obtain ⟨greatest, hlast⟩ : ∃ greatest, sorted.getLast? = some greatest := ⟨_, List.getLast?_eq_some_getLast hne⟩
  obtain ⟨q, hq, hnonneg⟩ := isDuration_iff.mp (hdur greatest (List.mem_of_getLast? hlast))
  have hlength : sorted.length ≠ 0 := (List.length_pos_iff.mpr hne).ne'
  have hsum := notNegative_sum fun x hx => (hdur x hx).notNegative
  have hmean := hsum.div (notNegative_ofNat sorted.length) (ofNat_ne_zero hlength)
  refine ⟨⟨lesser (sum sorted / Float.ofNat sorted.length) greatest, lesser p greatest, greatest⟩, ?_, hlast, q, hq, ?_⟩
  · unfold ofAscending?
    simp only [hlast, hp]
  · intro k
    cases k with
    | mean => exact lesser_spec hmean hq hnonneg
    | p99 => exact lesser_spec hnot hq hnonneg
    | max => exact ⟨q, hq, hnonneg, le_refl q⟩

theorem get_scaled (s : Summary) (factor : Float) (k : Statistic) : (s.scaled factor).get k = s.get k * factor := by
  cases k <;> rfl

/-- **In a greater unit, the numbers stay within**: a factor below one makes nothing infinite, and products with it are
    rounded in order. -/
theorem Within.scaled {s : Summary} (h : s.Within) {factor : Float} {k : ℚ} (hk : value? factor = some k)
    (hnonneg : 0 ≤ k) (hone : k ≤ 1) : (s.scaled factor).Within := by
  have hvalue : ∀ {x : Float} {v : ℚ}, value? x = some v → 0 ≤ v → value? (x * factor) = some (rounded (v * k)) := by
    intro x v hv hv0
    have hbound := rounded_le (representable_of_value? hv) (mul_le_of_le_one_right hv0 hone)
    have hlimit := abs_lt_limit hv
    rw [abs_of_nonneg hv0] at hlimit
    apply (rounds_mul hv hk).value
    rw [abs_of_nonneg (rounded_nonneg (mul_nonneg hv0 hnonneg))]
    exact lt_of_le_of_lt hbound hlimit
  obtain ⟨q, hq, hall⟩ := h
  have hq0 : 0 ≤ q := by
    obtain ⟨v, hv, hv0, hle⟩ := hall .max
    exact hv0.trans hle
  refine ⟨_, hvalue hq hq0, fun statistic => ?_⟩
  obtain ⟨v, hv, hv0, hle⟩ := hall statistic
  rw [get_scaled]
  refine ⟨_, hvalue hv hv0, rounded_nonneg (mul_nonneg hv0 hnonneg), rounded_mono ?_⟩
  exact mul_le_mul_of_nonneg_right hle hnonneg

/-- The greatest number of a summary in microseconds is that of the greatest sample, and the others are between zero and
    it. -/
structure BoundedBy (s : Summary) (samples : List Float) : Prop where
  finite : ∀ k, (s.get k).isFinite = true
  isNumber : ∀ k, (s.get k).isNaN = false
  nonneg : ∀ k, 0 ≤ s.get k
  le_max : ∀ k, s.get k ≤ s.max
  max_eq : ∃ greatest ∈ samples, (∀ x ∈ samples, x ≤ greatest) ∧ s.max = greatest * nanosToMicros

theorem value?_nanosToMicros : value? nanosToMicros = some (0x10624DD2F1A9FC * 2 ^ (-62 : ℤ)) := by
  have hparts : parts nanosToMicros = .finite .positive 0x10624DD2F1A9FC (-62) (by norm_num) := rfl
  exact value?_of_parts hparts

/-- Samples as they are sorted: the same samples, in order. -/
theorem sorted_samples {samples : List Float} (hdur : ∀ x ∈ samples, IsDuration x) :
    ((ascending (samples.map Float.toBits)).map Float.ofBits).Perm samples ∧
      ((ascending (samples.map Float.toBits)).map Float.ofBits).Pairwise (· ≤ ·) := by
  constructor
  · have hperm := (perm_ascending (samples.map Float.toBits)).map Float.ofBits
    have hsame : (samples.map Float.toBits).map Float.ofBits = samples := by
      rw [List.map_map]
      exact (List.map_congr_left fun x _ => Float.ofBits_toBits x).trans (List.map_id samples)
    rwa [hsame] at hperm
  · rw [List.pairwise_map]
    refine (sorted_ascending (samples.map Float.toBits)).imp_of_mem fun {a b} ha hb hle => ?_
    obtain ⟨x, hx, rfl⟩ := List.mem_map.mp ((perm_ascending _).subset ha)
    obtain ⟨y, hy, rfl⟩ := List.mem_map.mp ((perm_ascending _).subset hb)
    obtain ⟨v, hv, _⟩ := isDuration_iff.mp (hdur x hx)
    obtain ⟨w, hw, _⟩ := isDuration_iff.mp (hdur y hy)
    rw [Float.ofBits_toBits, Float.ofBits_toBits]
    exact (le_iff hv hw).mpr (le_of_orderKey_le hv hw hle)

/-- No samples have no summary. -/
theorem ofSamples?_nil : ofSamples? [] = none := by
  simp only [ofSamples?, ofBits?, List.map_nil, ascending, List.mergeSort_nil]
  rfl

/-- **There is a summary of samples, and in microseconds it is bounded by the greatest of them.** -/
theorem ofSamples?_boundedBy {samples : List Float} (hne : samples ≠ []) (hdur : ∀ x ∈ samples, IsDuration x) :
    ∃ s, ofSamples? samples = some s ∧ (s.scaled nanosToMicros).BoundedBy samples := by
  obtain ⟨hperm, hsorted⟩ := sorted_samples hdur
  have hsortedDur := fun x hx => hdur x (hperm.subset hx)
  have hsortedNe : (ascending (samples.map Float.toBits)).map Float.ofBits ≠ [] := by
    intro hnil
    rw [hnil] at hperm
    exact hne hperm.symm.eq_nil
  obtain ⟨s, hs, hlast, hwithin⟩ := ofAscending?_within hsortedNe hsortedDur hsorted
  obtain ⟨q, hq, hall⟩ := hwithin.scaled value?_nanosToMicros (by positivity) (by norm_num)
  refine ⟨s, hs, ?_, ?_, ?_, ?_, s.max, hperm.subset (List.mem_of_getLast? hlast), fun x hx => ?_, rfl⟩
  · intro k
    obtain ⟨v, hv, _⟩ := hall k
    exact isFinite_iff.mpr ⟨v, hv⟩
  · intro k
    obtain ⟨v, hv, _⟩ := hall k
    exact isNaN_eq_false hv
  · intro k
    obtain ⟨v, hv, hnonneg, _⟩ := hall k
    exact (le_iff value?_zero hv).mpr hnonneg
  · intro k
    obtain ⟨v, hv, _, hle⟩ := hall k
    exact (le_iff hv hq).mpr hle
  · exact le_of_getLast? hsortedDur hsorted hlast x (hperm.symm.subset hx)

end Summary

end LatencyReport
