import LatencyReport.Proofs.Binary64.Between
import LatencyReport.Proofs.Summary.Bounds

/-!
# `Proofs.Summary.Percentile` — the value at a rank stays between its neighbours

A fraction of numbers in order has a rank, and the percentile is a value between the two numbers whose ranks are closest.
The rank is a product that is rounded, but the last rank is a number itself, so no rank is beyond it: **both neighbours
are there** whatever the fraction is, and they stand at the rank without its fraction and at the next whole number
(`IsRank.toNat_eq`, `IsRank.roundUp_eq`). What the rank is above its whole part is exact and below one, so **the
value is between the neighbours** (`value?_between`) although it is rounded three times.

A fraction that is no number has no rank; it is taken for the first one, and the value is no number.

## Contents

* `rankOf`, `lowerIndex`, `upperIndex`, `percentile?_eq` — the rank, and where the neighbours stand;
* `exists_clampUnit` — a fraction between zero and one;
* `IsRank`, `isRank_rankOf` — ranks; `IsRank.toNat_eq`, `IsRank.roundUp_eq`, `IsRank.rest`;
* `percentile?_between` — the percentile of numbers in order.
-/

namespace LatencyReport

open Binary64 Float.Model Float.Model.UnpackedFloat

/-! ## Neighbours of a rank -/

/-- The rank that a fraction of numbers has. The first number has the rank zero. -/
def rankOf (count : ℕ) (q : Float) : Float :=
  clampUnit q * Float.ofNat (count - 1)

/-- Where the number stands whose rank is the closest that is not above. -/
def lowerIndex (count : ℕ) (q : Float) : ℕ :=
  (rankOf count q).toUInt64.toNat

/-- Where the number stands whose rank is the closest that is not below. -/
def upperIndex (count : ℕ) (q : Float) : ℕ :=
  roundUp (rankOf count q) (lowerIndex count q)

/-- The percentile, by the neighbours of its rank. -/
theorem percentile?_eq {sorted : List Float} {q a b : Float} (ha : sorted[lowerIndex sorted.length q]? = some a)
    (hb : sorted[upperIndex sorted.length q]? = some b) :
    percentile? sorted q =
      some (a + (b - a) * (rankOf sorted.length q - Float.ofNat (lowerIndex sorted.length q))) := by
  unfold upperIndex lowerIndex rankOf at hb
  unfold lowerIndex rankOf at ha ⊢
  unfold percentile?
  simp only [ha, hb]

/-! ## Fractions -/

theorem value?_one : value? 1 = some 1 := by
  exact_mod_cast value?_ofNat_of_le (n := 1) (by norm_num)

/-- What can be compared is a number. -/
theorem isNaN_eq_false_of_le {x y : Float} (h : x ≤ y) : x.isNaN = false ∧ y.isNaN = false := by
  rw [le_iff_compare] at h
  rw [isNaN_eq, isNaN_eq]
  cases hpx : parts x <;> cases hpy : parts y <;> first | exact ⟨rfl, rfl⟩ | (rw [hpx, hpy] at h; cases h)

theorem value?_clampUnit_of_value {q : Float} {v : ℚ} (hv : value? q = some v) :
    value? (clampUnit q) = some (max 0 (min v 1)) := by
  unfold clampUnit
  split_ifs with hlow hhigh
  · rw [lt_iff hv value?_zero] at hlow
    rw [max_eq_left ((min_le_left v 1).trans hlow.le), value?_zero]
  · rw [lt_iff value?_one hv] at hhigh
    rw [min_eq_right hhigh.le, max_eq_right zero_le_one, value?_one]
  · rw [lt_iff hv value?_zero, not_lt] at hlow
    rw [lt_iff value?_one hv, not_lt] at hhigh
    rw [min_eq_left hhigh, max_eq_right hlow, hv]

/-- **A fraction that is a number is brought between zero and one**, and from below or above to them. -/
theorem exists_clampUnit {q : Float} (h : q.isNaN = false) :
    ∃ c, value? (clampUnit q) = some c ∧ 0 ≤ c ∧ c ≤ 1 ∧ (q ≤ 0 → c = 0) ∧ (1 ≤ q → c = 1) := by
  rw [isNaN_eq] at h
  cases hq : parts q with
  | notANumber =>
    rw [hq] at h
    cases h
  | infinity s =>
    have hlow := lt_iff_compare q 0
    have hhigh := lt_iff_compare 1 q
    have hzero := le_iff_compare q 0
    have hone := le_iff_compare 1 q
    rw [hq] at hlow hhigh hzero hone
    cases s with
    | negative =>
      rw [clampUnit, if_pos (hlow.mpr rfl)]
      exact ⟨0, value?_zero, le_refl 0, zero_le_one, fun _ => rfl, fun h => absurd (hone.mp h) Bool.false_ne_true⟩
    | positive =>
      rw [clampUnit, if_neg (fun h => absurd (hlow.mp h) Bool.false_ne_true), if_pos (hhigh.mpr rfl)]
      exact ⟨1, value?_one, zero_le_one, le_refl 1, fun h => absurd (hzero.mp h) Bool.false_ne_true, fun _ => rfl⟩
  | _ =>
    obtain ⟨v, hv⟩ : ∃ v, value? q = some v := by
      rw [value?, hq]
      exact ⟨_, rfl⟩
    refine ⟨_, value?_clampUnit_of_value hv, le_max_left _ _, max_le zero_le_one (min_le_right _ _), ?_, ?_⟩
    · intro hzero
      exact max_eq_left ((min_le_left v 1).trans ((le_iff hv value?_zero).mp hzero))
    · intro hone
      rw [min_eq_right ((le_iff value?_one hv).mp hone), max_eq_right zero_le_one]

/-! ## Ranks -/

/-- A rank of numbers, the last of which has the rank `last`: a rational up to that. -/
structure IsRank (rank : Float) (last : ℕ) (r : ℚ) : Prop where
  value : value? rank = some r
  nonneg : 0 ≤ r
  le_last : r ≤ last
  last_le : last ≤ 2 ^ 53

/-- **The rank of a fraction is not beyond the last one**, although it is rounded: the last one is a number itself. -/
theorem isRank_rankOf {count : ℕ} (hcount : count ≤ 2 ^ 53) {q : Float} {c : ℚ} (hc : value? (clampUnit q) = some c)
    (h0 : 0 ≤ c) (h1 : c ≤ 1) : IsRank (rankOf count q) (count - 1) (rounded (c * (count - 1 : ℕ))) := by
  have hlast : count - 1 ≤ 2 ^ 53 := by omega
  have hnonneg : 0 ≤ rounded (c * (count - 1 : ℕ)) := rounded_nonneg (mul_nonneg h0 (Nat.cast_nonneg _))
  have hle : rounded (c * (count - 1 : ℕ)) ≤ (count - 1 : ℕ) :=
    rounded_le (representable_natCast_of_le hlast) (mul_le_of_le_one_left (Nat.cast_nonneg _) h1)
  refine ⟨(rounds_mul hc (value?_ofNat_of_le hlast)).value ?_, hnonneg, hle, hlast⟩
  have hlimit := @abs_natCast_lt_limit (count - 1) (by omega)
  rw [Nat.abs_cast] at hlimit
  rw [abs_of_nonneg hnonneg]
  exact hle.trans_lt hlimit

namespace IsRank

variable {rank : Float} {last : ℕ} {r : ℚ} (h : IsRank rank last r)
include h

theorem floor_le_last : ⌊r⌋₊ ≤ last :=
  Nat.floor_le_of_le h.le_last

/-- The lower neighbour stands at the rank without its fraction. -/
theorem toNat_eq : rank.toUInt64.toNat = ⌊r⌋₊ := by
  have hle := h.floor_le_last
  have hlast := h.last_le
  rw [toNat_toUInt64 h.value h.nonneg, Int.floor_toNat]
  omega

/-- The upper neighbour stands at the next whole number. -/
theorem roundUp_eq : roundUp rank rank.toUInt64.toNat = ⌈r⌉₊ := by
  have hle := h.floor_le_last
  have hlast := h.last_le
  have hfloor := Nat.floor_le h.nonneg
  have hnext : Float.ofNat ⌊r⌋₊ < rank ↔ (⌊r⌋₊ : ℚ) < r := lt_iff (value?_ofNat_of_le (by omega)) h.value
  rw [h.toNat_eq, roundUp]
  split_ifs with hlt <;> rw [hnext] at hlt
  · symm
    rw [Nat.ceil_eq_iff (Nat.succ_ne_zero _), Nat.succ_sub_one, Nat.cast_succ]
    exact ⟨hlt, (Nat.lt_floor_add_one r).le⟩
  · have hsame : r = (⌊r⌋₊ : ℚ) := le_antisymm (not_lt.mp hlt) hfloor
    rw [hsame, Nat.ceil_natCast, Nat.floor_natCast]

theorem ceil_le_last : ⌈r⌉₊ ≤ last :=
  Nat.ceil_le.mpr h.le_last

/-- **What the rank is above its whole part** is exact, and less than one. -/
theorem rest : value? (rank - Float.ofNat ⌊r⌋₊) = some (r - ⌊r⌋₊) ∧ 0 ≤ r - ⌊r⌋₊ ∧ r - ⌊r⌋₊ < 1 := by
  have hle := h.floor_le_last
  have hlast := h.last_le
  have hfloor := Nat.floor_le h.nonneg
  have hnext := Nat.lt_floor_add_one r
  have hrep : Representable (r - ⌊r⌋₊) := by
    rw [natCast_floor_eq_intCast_floor h.nonneg]
    exact (representable_of_value? h.value).fract h.nonneg
  have hlimit : |r - ⌊r⌋₊| < limit := by
    rw [abs_of_nonneg (sub_nonneg.mpr hfloor)]
    have hone := @two_zpow_lt_limit 0 (by norm_num)
    rw [zpow_zero] at hone
    linarith
  exact ⟨(rounds_sub h.value (value?_ofNat_of_le (hle.trans hlast))).exact hrep hlimit, sub_nonneg.mpr hfloor,
    by linarith⟩

end IsRank

/-! ## The percentile -/

/-- The rank of a fraction that is no number is no number, and counts as the first one. -/
theorem index_of_isNaN {q : Float} (h : q.isNaN = true) (count : ℕ) :
    lowerIndex count q = 0 ∧ upperIndex count q = 0 := by
  have hq : parts q = .notANumber := by
    rw [isNaN_eq] at h
    cases hq : parts q <;> rw [hq] at h <;> first | rfl | cases h
  have hclamp : clampUnit q = q := by
    have hlow := lt_iff_compare q 0
    have hhigh := lt_iff_compare 1 q
    rw [hq] at hlow hhigh
    rw [clampUnit, if_neg (fun h => absurd (hlow.mp h) Bool.false_ne_true),
      if_neg (fun h => absurd (hhigh.mp h) Bool.false_ne_true)]
  have hrank : parts (rankOf count q) = .notANumber := by
    have hmul : UnpackedFloat.mul Format.binary64 (parts q) (parts (Float.ofNat (count - 1))) = .notANumber := by
      rw [hq]
      rfl
    rw [rankOf, hclamp]
    exact parts_mul hmul trivial
  have hlower : lowerIndex count q = 0 := by
    show (UInt64.ofNatClamp ((parts (rankOf count q)).toInt 0 (UInt64.size - 1)).toNat).toNat = 0
    rw [hrank]
    rfl
  refine ⟨hlower, ?_⟩
  rw [upperIndex, roundUp, hlower, if_neg]
  rw [lt_iff_compare, hrank]
  exact Bool.false_ne_true

section
variable {sorted : List Float} (hdur : ∀ x ∈ sorted, IsDuration x) (hsorted : sorted.Pairwise (· ≤ ·))
include hdur hsorted

/-- At a rank, the percentile is a rational between those of the neighbours. -/
theorem percentile?_of_isRank (hne : sorted ≠ []) {q : Float} {r : ℚ}
    (h : IsRank (rankOf sorted.length q) (sorted.length - 1) r) :
    ∃ a b p v w u, sorted[⌊r⌋₊]? = some a ∧ sorted[⌈r⌉₊]? = some b ∧ percentile? sorted q = some p ∧
      value? a = some v ∧ value? b = some w ∧ value? p = some u ∧ v ≤ u ∧ u ≤ w := by
  have hpos : 0 < sorted.length := List.length_pos_iff.mpr hne
  have hlower := h.floor_le_last
  have hupper := h.ceil_le_last
  obtain ⟨a, ha⟩ : ∃ a, sorted[⌊r⌋₊]? = some a := ⟨_, List.getElem?_eq_getElem (by omega)⟩
  obtain ⟨b, hb⟩ : ∃ b, sorted[⌈r⌉₊]? = some b := ⟨_, List.getElem?_eq_getElem (by omega)⟩
  obtain ⟨v, hv, hv0⟩ := isDuration_iff.mp (hdur a (List.mem_of_getElem? ha))
  obtain ⟨w, hw, _⟩ := isDuration_iff.mp (hdur b (List.mem_of_getElem? hb))
  have hvw : v ≤ w := value_le_of_index_le hsorted (Nat.floor_le_ceil r) ha hb hv hw
  obtain ⟨hrest, hrest0, hrest1⟩ := h.rest
  obtain ⟨u, hu, hvu, huw⟩ := value?_between hv hw hrest hv0 hvw hrest0 hrest1
  have hlowerIndex : lowerIndex sorted.length q = ⌊r⌋₊ := h.toNat_eq
  have hupperIndex : upperIndex sorted.length q = ⌈r⌉₊ := h.roundUp_eq
  have hp := percentile?_eq (hlowerIndex ▸ ha) (hupperIndex ▸ hb)
  rw [hlowerIndex] at hp
  exact ⟨a, b, _, v, w, u, ha, hb, hp, hv, hw, hu, hvu, huw⟩

/-- **The percentile of numbers in order is between the neighbours of its rank.** Whatever the fraction is, both neighbours
    are there, so there is a percentile, and it is computed from them. A fraction that is a number has a rank; the neighbours stand at the rank rounded
    down and rounded up, and the percentile is not below the one and not above the other. From zero down it is the first
    number, and from one up the last. -/
theorem percentile?_between (hne : sorted ≠ []) (hcount : sorted.length ≤ 2 ^ 53) (q : Float) :
    lowerIndex sorted.length q < sorted.length ∧ upperIndex sorted.length q < sorted.length ∧
      ∃ a b p, sorted[lowerIndex sorted.length q]? = some a ∧ sorted[upperIndex sorted.length q]? = some b ∧
        percentile? sorted q = some p ∧
        p = a + (b - a) * (rankOf sorted.length q - Float.ofNat (lowerIndex sorted.length q)) ∧
        (q.isNaN = false → a ≤ p ∧ p ≤ b ∧
          ∃ r, value? (rankOf sorted.length q) = some r ∧ lowerIndex sorted.length q = ⌊r⌋₊ ∧
            upperIndex sorted.length q = ⌈r⌉₊) ∧
        (q ≤ 0 → sorted.head? = some a ∧ (p == a) = true) ∧
        (1 ≤ q → sorted.getLast? = some b ∧ (p == b) = true) := by
  have hpos : 0 < sorted.length := List.length_pos_iff.mpr hne
  cases hnan : q.isNaN with
  | true =>
    obtain ⟨hlower, hupper⟩ := index_of_isNaN hnan sorted.length
    obtain ⟨a, ha⟩ : ∃ a, sorted[0]? = some a := ⟨_, List.getElem?_eq_getElem hpos⟩
    have hnot : ¬(q ≤ 0 ∨ 1 ≤ q) := by
      rintro (hle | hle)
      · exact Bool.false_ne_true ((isNaN_eq_false_of_le hle).1.symm.trans hnan)
      · exact Bool.false_ne_true ((isNaN_eq_false_of_le hle).2.symm.trans hnan)
    have hp := percentile?_eq (hlower.symm ▸ ha) (hupper.symm ▸ ha)
    rw [hlower] at hp
    rw [hlower, hupper]
    exact ⟨hpos, hpos, a, a, _, ha, ha, hp, rfl, fun h => absurd h.symm Bool.false_ne_true,
      fun h => absurd (Or.inl h) hnot, fun h => absurd (Or.inr h) hnot⟩
  | false =>
    obtain ⟨c, hc, hc0, hc1, hzero, hone⟩ := exists_clampUnit hnan
    have hrank := isRank_rankOf hcount hc hc0 hc1
    set r := rounded (c * (sorted.length - 1 : ℕ)) with hr
    have hlower : lowerIndex sorted.length q = ⌊r⌋₊ := hrank.toNat_eq
    have hupper : upperIndex sorted.length q = ⌈r⌉₊ := hrank.roundUp_eq
    have hfloor := hrank.floor_le_last
    have hceil := hrank.ceil_le_last
    obtain ⟨a, b, p, v, w, u, ha, hb, hp, hv, hw, hu, hvu, huw⟩ := percentile?_of_isRank hdur hsorted hne hrank
    -- at a rank without a fraction, the two neighbours are one
    have hsame : ⌊r⌋₊ = ⌈r⌉₊ → v = u ∧ u = w := by
      intro heq
      rw [heq, hb, Option.some.injEq] at ha
      subst ha
      rw [hv, Option.some.injEq] at hw
      subst hw
      exact ⟨le_antisymm hvu huw, le_antisymm huw hvu⟩
    have hformula := percentile?_eq (hlower.symm ▸ ha) (hupper.symm ▸ hb)
    rw [hp, Option.some.injEq, hlower] at hformula
    rw [hlower, hupper]
    refine ⟨by omega, by omega, a, b, p, ha, hb, hp, hformula,
      fun _ => ⟨(le_iff hv hu).mpr hvu, (le_iff hu hw).mpr huw, r, hrank.value, rfl, rfl⟩, ?_, ?_⟩
    · intro hle
      have hr0 : r = 0 := by rw [hr, hzero hle, zero_mul, rounded_zero]
      rw [hr0, Nat.floor_zero] at ha hsame
      exact ⟨List.head?_eq_getElem?.trans ha, (beq_iff hu hv).mpr (hsame Nat.ceil_zero.symm).1.symm⟩
    · intro hle
      have hlast : r = (sorted.length - 1 : ℕ) := by
        rw [hr, hone hle, one_mul, rounded_of_representable (representable_natCast_of_le hrank.last_le)]
      rw [hlast, Nat.ceil_natCast] at hb hsame
      exact ⟨List.getLast?_eq_getElem?.trans hb, (beq_iff hu hw).mpr (hsame (Nat.floor_natCast _)).2⟩

end

/-- The 99th percentile of three numbers, between the second and the third. -/
theorem percentile?_between_of_three :
    let sorted : List Float := [0.1, 0.7, 3.0]
    sorted ≠ [] ∧ sorted.length ≤ 2 ^ 53 ∧ (∀ x ∈ sorted, IsDuration x) ∧ sorted.Pairwise (· ≤ ·) ∧
      ∃ p, percentile? sorted ninetyNinth = some p ∧ 0.7 ≤ p ∧ p ≤ 3.0 := by
  intro sorted
  have hne : sorted ≠ [] := List.cons_ne_nil _ _
  have hcount : sorted.length ≤ 2 ^ 53 := by decide
  have hdur : ∀ x ∈ sorted, IsDuration x := by
    intro x hx
    simp only [sorted, List.mem_cons, List.not_mem_nil, or_false] at hx
    rcases hx with rfl | rfl | rfl <;> exact ⟨rfl, by decide⟩
  have hsorted : sorted.Pairwise (· ≤ ·) := by decide
  obtain ⟨-, -, a, b, p, ha, hb, hp, -, hbetween, -⟩ := percentile?_between hdur hsorted hne hcount ninetyNinth
  have hlower : lowerIndex sorted.length ninetyNinth = 1 := by decide +kernel
  have hupper : upperIndex sorted.length ninetyNinth = 2 := by decide +kernel
  rw [hlower] at ha
  rw [hupper] at hb
  obtain rfl : (0.7 : Float) = a := Option.some.inj ha
  obtain rfl : (3.0 : Float) = b := Option.some.inj hb
  obtain ⟨hlow, hhigh, -⟩ := hbetween rfl
  exact ⟨hne, hcount, hdur, hsorted, p, hp, hlow, hhigh⟩

end LatencyReport
