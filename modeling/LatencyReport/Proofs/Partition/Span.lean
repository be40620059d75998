import LatencyReport.Proofs.Binary64.Conversion
import LatencyReport.Proofs.Partition.Order

/-!
# `Proofs.Partition.Span` — the axis of a partition

Sizes become numbers before they are compared, so the axis has to show numbers that are rounded. The place of a number in
the total order of bit patterns tells its rational, so **the extremes of a list are its bounds** (`bounds_of`). Different
sizes can become one number, and then the bounds are that number; so an axis reaches around one number, or from the least
to a greater one (`reaches_span`). A size from one on stays from one on when it is rounded, and half and twice of it are
exact (`IsSize.half`, `IsSize.twice`). In every case **the axis has a length, and no size is outside** (`span_covers`).

## Contents

* `Extremes.Bounds`, `Extremes.bounds_of` — what the extremes of a list are;
* `IsSize` — message sizes as numbers; `IsSize.half`, `IsSize.twice`;
* `Reaches`, `reaches_span` — where an axis ends;
* `IsAxis`, `Reaches.isAxis` — what an axis shows;
* `span_covers` — the axis of every range of a dataset.
-/

namespace LatencyReport

open Binary64

/-! ## Extremes -/

namespace Extremes

/-- What the extremes say of a list: it is empty, it is one number, or no place is outside those of two members. -/
def Bounds (xs : List Float) : Extremes → Prop
  | none => xs = []
  | one x => xs = [x]
  | both least greatest => least ∈ xs ∧ greatest ∈ xs ∧ ∀ x ∈ xs, place least ≤ place x ∧ place x ≤ place greatest

/-- **The extremes of a list are its bounds.** -/
theorem bounds_of (xs : List Float) : (of xs).Bounds xs := by
  match xs with
  | [] => rfl
  | [x] => rfl
  | x :: y :: rest =>
    refine ⟨List.minOn_mem, List.maxOn_mem, ?_⟩
    intro z hz
    exact ⟨List.apply_minOn_le_of_mem hz, List.le_apply_maxOn_of_mem (f := place) hz⟩

end Extremes

/-! ## Sizes as numbers -/

/-- A number that a message size can become: a rational between one and the power of two that no size reaches. -/
structure IsSize (x : Float) (v : ℚ) : Prop where
  value : value? x = some v
  one_le : 1 ≤ v
  le : v ≤ 2 ^ (64 : ℤ)

/-- **A message size from one on stays from one on when it is rounded.** -/
theorem isSize_toFloat {n : UInt64} (hn : 1 ≤ n) : IsSize n.toFloat (rounded n.toNat) := by
  refine ⟨value?_toFloat_rounded n, ?_, rounded_natCast_le n.toNat_lt⟩
  have hone : (1 : ℚ) ≤ n.toNat := by exact_mod_cast UInt64.le_iff_toNat_le.mp hn
  rw [← zpow_zero 2] at hone ⊢
  exact le_rounded (representable_two_zpow (by norm_num)) hone

theorem value?_two : value? 2.0 = some 2 := by
  have htwo := value?_whole (n := 2) rfl (by norm_num)
  rwa [Nat.cast_ofNat] at htwo

namespace IsSize

variable {x : Float} {v : ℚ}

theorem pos (h : IsSize x v) : 0 < v :=
  one_pos.trans_le h.one_le

/-- **Half of a size is exact.** -/
theorem half (h : IsSize x v) : value? (x / 2.0) = some (v / 2) := by
  have hrep := (representable_of_value? h.value).half h.one_le
  have hlimit : |v / 2| < limit := by
    rw [abs_of_pos (half_pos h.pos)]
    calc v / 2 < v := half_lt_self h.pos
      _ ≤ 2 ^ (64 : ℤ) := h.le
      _ < limit := two_zpow_lt_limit (by norm_num)
  exact (rounds_div h.value value?_two two_ne_zero).exact hrep hlimit

/-- **Twice of a size is exact.** -/
theorem twice (h : IsSize x v) : value? (x * 2.0) = some (v * 2) := by
  have hrep := (representable_of_value? h.value).twice
  have hlimit : |v * 2| < limit := by
    rw [abs_of_pos (mul_pos h.pos two_pos)]
    calc v * 2 ≤ 2 ^ (64 : ℤ) * 2 := by linarith [h.le]
      _ = 2 ^ (65 : ℤ) := by norm_num
      _ < limit := two_zpow_lt_limit (by norm_num)
  exact (rounds_mul h.value value?_two).exact hrep hlimit

end IsSize

/-! ## Where the axis ends -/

/-- How an axis comes from numbers: there are none, they are all one, or it reaches from the least to the greatest. -/
inductive Reaches (xs : List Float) : Float × Float → Prop
  | nothing (h : xs = []) : Reaches xs Partition.emptySpan
  | around {x : Float} (hx : x ∈ xs) (h : ∀ y ∈ xs, y = x) : Reaches xs (x / 2.0, x * 2.0)
  | between {low high : Float} (hlow : low ∈ xs) (hhigh : high ∈ xs) (hlt : low < high)
      (h : ∀ x ∈ xs, low ≤ x ∧ x ≤ high) : Reaches xs (low, high)

/-- From the least to the greatest of sizes, or around them if they are one. -/
theorem reaches_of_bounds {xs : List Float} (h : ∀ x ∈ xs, ∃ v, IsSize x v) {least greatest : Float}
    (hbounds : (Extremes.both least greatest).Bounds xs) :
    Reaches xs (if least == greatest then (least / 2.0, greatest * 2.0) else (least, greatest)) := by
  obtain ⟨hleast, hgreatest, hplaces⟩ := hbounds
  obtain ⟨a, ha⟩ := h least hleast
  obtain ⟨b, hb⟩ := h greatest hgreatest
  have hvalues : ∀ x ∈ xs, ∃ v, IsSize x v ∧ a ≤ v ∧ v ≤ b := by
    intro x hx
    obtain ⟨v, hv⟩ := h x hx
    obtain ⟨hlow, hhigh⟩ := hplaces x hx
    exact ⟨v, hv, le_of_orderKey_le ha.value hv.value hlow, le_of_orderKey_le hv.value hb.value hhigh⟩
  by_cases hsame : a = b
  · -- different sizes can have become one number
    subst hsame
    have hone : ∀ x ∈ xs, x = least := by
      intro x hx
      obtain ⟨v, hv, hlow, hhigh⟩ := hvalues x hx
      obtain rfl := le_antisymm hhigh hlow
      exact eq_of_value?_eq hv.value ha.value hv.pos.ne'
    rw [if_pos ((beq_iff ha.value hb.value).mpr rfl), hone greatest hgreatest]
    exact .around hleast hone
  · have hle : a ≤ b := le_of_orderKey_le ha.value hb.value (hplaces greatest hgreatest).1
    rw [if_neg (mt (beq_iff ha.value hb.value).mp hsame)]
    apply Reaches.between hleast hgreatest
    · exact (lt_iff ha.value hb.value).mpr (lt_of_le_of_ne hle hsame)
    · intro x hx
      obtain ⟨v, hv, hlow, hhigh⟩ := hvalues x hx
      exact ⟨(le_iff ha.value hv.value).mpr hlow, (le_iff hv.value hb.value).mpr hhigh⟩

/-- **Where the axis of a partition ends**, whatever the order of the rows is. -/
theorem reaches_span {p : Partition} (h : ∀ x ∈ p.sizes, ∃ v, IsSize x v) : Reaches p.sizes p.span := by
  have hbounds := Extremes.bounds_of p.sizes
  unfold Partition.span
  cases hextremes : Extremes.of p.sizes with
  | none =>
    rw [hextremes] at hbounds
    exact .nothing hbounds
  | one size =>
    rw [hextremes] at hbounds
    have hone : p.sizes = [size] := hbounds
    rw [hone]
    exact .around List.mem_cons_self fun x hx => List.mem_singleton.mp hx
  | both least greatest =>
    rw [hextremes] at hbounds
    exact reaches_of_bounds h hbounds

/-! ## What the axis shows -/

/-- An axis that shows numbers in powers of two: its ends are numbers above zero, it has a length, and no number of the
    list is outside. -/
structure IsAxis (xs : List Float) (ends : Float × Float) : Prop where
  pos : 0 < ends.1
  lt : ends.1 < ends.2
  isFinite_fst : ends.1.isFinite
  isFinite_snd : ends.2.isFinite
  le : ∀ x ∈ xs, ends.1 ≤ x ∧ x ≤ ends.2

/-- Ends that are rationals make an axis. -/
theorem isAxis_of_values {low high : Float} {a b : ℚ} (ha : value? low = some a) (hb : value? high = some b)
    (hpos : 0 < a) (hlt : a < b) {xs : List Float} (h : ∀ x ∈ xs, low ≤ x ∧ x ≤ high) : IsAxis xs (low, high) where
  pos := (lt_iff value?_zero ha).mpr hpos
  lt := (lt_iff ha hb).mpr hlt
  isFinite_fst := isFinite_iff.mpr ⟨a, ha⟩
  isFinite_snd := isFinite_iff.mpr ⟨b, hb⟩
  le := h

/-- **An axis that reaches as far as sizes do shows them.** -/
theorem Reaches.isAxis {xs : List Float} {ends : Float × Float} (hreaches : Reaches xs ends)
    (h : ∀ x ∈ xs, ∃ v, IsSize x v) : IsAxis xs ends := by
  cases hreaches with
  | nothing hnil =>
    have hlow : value? 1.0 = some (1 : ℕ) := value?_whole rfl (by norm_num)
    have hhigh : value? 1048576.0 = some (1048576 : ℕ) := value?_whole rfl (by norm_num)
    apply isAxis_of_values hlow hhigh (by norm_num) (by norm_num)
    intro x hx
    rw [hnil] at hx
    exact absurd hx List.not_mem_nil
  | around hx hone =>
    obtain ⟨v, hv⟩ := h _ hx
    have hpos := hv.pos
    have hbelow : v / 2 ≤ v := half_le_self hpos.le
    have habove : v ≤ v * 2 := le_mul_of_one_le_right hpos.le one_le_two
    apply isAxis_of_values hv.half hv.twice (half_pos hpos) (by linarith)
    intro y hy
    rw [hone y hy]
    exact ⟨(le_iff hv.half hv.value).mpr hbelow, (le_iff hv.value hv.twice).mpr habove⟩
  | between hlow hhigh hlt hle =>
    obtain ⟨a, ha⟩ := h _ hlow
    obtain ⟨b, hb⟩ := h _ hhigh
    exact isAxis_of_values ha.value hb.value ha.pos ((lt_iff ha.value hb.value).mp hlt) hle

/-- **No point is outside of the axis.** For every dataset in which no message size is zero and for every range, the ends
    of the axis are finite numbers above zero, the first less than the second, and the number that the message size of a
    row becomes is not outside of them. Nor does the axis reach further than it has to: it ends at the least and at the
    greatest number, or around the only one. -/
theorem span_covers (d : Dataset) (hsizes : ∀ row ∈ d.rows, 1 ≤ row.size) (range : Range) :
    let p := d.partition range
    0 < p.span.1 ∧ p.span.1 < p.span.2 ∧ p.span.1.isFinite ∧ p.span.2.isFinite ∧
      (∀ row ∈ p.rows, p.span.1 ≤ row.size.toFloat ∧ row.size.toFloat ≤ p.span.2) ∧
      Reaches (p.rows.map fun row => row.size.toFloat) p.span := by
  intro p
  have hnumbers : ∀ x ∈ p.sizes, ∃ v, IsSize x v := by
    intro x hx
    obtain ⟨row, hrow, rfl⟩ := List.mem_map.mp hx
    have hmem : row ∈ d.rows := (List.mem_filter.mp ((perm_bySize _).mem_iff.mp hrow)).1
    exact ⟨_, isSize_toFloat (hsizes row hmem)⟩
  have hreaches := reaches_span hnumbers
  have haxis := hreaches.isAxis hnumbers
  refine ⟨haxis.pos, haxis.lt, haxis.isFinite_fst, haxis.isFinite_snd, ?_, hreaches⟩
  intro row hrow
  exact haxis.le _ (List.mem_map_of_mem hrow)

/-- Two sizes that become one number: the axis has a length all the same. -/
theorem span_covers_of_one_number :
    let row (size : UInt64) : Row := ⟨⟨.syncIo, size⟩, .ofFn fun _ => none⟩
    let d : Dataset := ⟨[row 9007199254740993, row 9007199254740992]⟩
    let span := (d.partition .all).span
    (9007199254740993 : UInt64).toFloat = (9007199254740992 : UInt64).toFloat ∧
      (∀ row ∈ d.rows, 1 ≤ row.size) ∧ 0 < span.1 ∧ span.1 < span.2 := by
  intro row d span
  have hsizes : ∀ row ∈ d.rows, 1 ≤ row.size := by
    rw [List.forall_mem_cons, List.forall_mem_singleton]
    decide
  obtain ⟨hpos, hlt, _⟩ := span_covers d hsizes .all
  exact ⟨by decide +kernel, hsizes, hpos, hlt⟩

end LatencyReport
