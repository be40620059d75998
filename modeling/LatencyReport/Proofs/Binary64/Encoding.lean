import LatencyReport.Summary
import LatencyReport.Proofs.Binary64.Rounding
import Mathlib

/-!
# `Proofs.Binary64.Encoding` — numbers, their bits and their values

A bit pattern is a sign, eleven digits of exponent and 52 of mantissa. Taken apart it is no number, an infinity, a zero
or a mantissa with an exponent, and these are always **in canonical form**: the mantissa has 53 digits, or fewer with the
least exponent (`canonical_parts`). Packing what was taken apart gives the bits back (`ofParts_parts`), and taking apart
what was packed gives the parts back unless the exponent is too great, which makes an infinity of it (`parts_ofParts`).

A finite number is a rational (`value?`). Since canonical forms are compared by exponent first and by mantissa then, the
order of numbers is that of the rationals (`le_iff`, `lt_iff`, `beq_iff`), and so is the order of their bits
(`le_of_orderKey_le`).

## Contents

* `Canonical`, `settled`, `parts`, `ofParts` — parts of a number; `parts_ofParts`, `ofParts_parts`;
* `partsValue?`, `value?`, `limit` — the rational that a number is, and how great it can be;
* `eq_of_value?_eq`, `compare_parts`, `le_iff`, `lt_iff`, `beq_iff` — equal numbers, and the order of numbers;
* `magnitude`, `parts_eq`, `value?_eq_magnitude`, `le_of_orderKey_le` — their bits, and the order of these.
-/

namespace LatencyReport.Binary64

open Float.Model Float.Model.UnpackedFloat

/-! ## The digits of a pattern -/

theorem toNat_unpackMantissa (b : BitVec Format.binary64.numBits) : (unpackMantissa b).toNat = b.toNat % 2 ^ 52 := by
  rw [unpackMantissa, BitVec.toNat_cast, BitVec.extractLsb_toNat]
  rfl

theorem toNat_unpackExponent (b : BitVec Format.binary64.numBits) :
    (unpackExponent b).toNat = b.toNat / 2 ^ 52 % 2 ^ 11 := by
  rw [unpackExponent, BitVec.toNat_cast, BitVec.extractLsb_toNat, Nat.shiftRight_eq_div_pow]
  rfl

theorem toNat_unpackSign (b : BitVec Format.binary64.numBits) : (unpackSign b).toNat = b.toNat / 2 ^ 63 := by
  have hlt : b.toNat < 2 ^ 64 := b.isLt
  rw [unpackSign, BitVec.toNat_cast, BitVec.extractLsb_toNat, Nat.shiftRight_eq_div_pow]
  show b.toNat / 2 ^ 63 % 2 ^ 1 = b.toNat / 2 ^ 63
  omega

/-- The mantissa with the digit that is not written. -/
theorem toNat_one_append (m : BitVec 52) : (1#1 ++ m).toNat = 2 ^ 52 + m.toNat := by
  rw [BitVec.toNat_append, ← Nat.shiftLeft_add_eq_or_of_lt m.isLt, Nat.shiftLeft_eq]
  rfl

theorem finite_congr {s : Sign} {m m' : ℕ} {e e' : ℤ} {h : 0 < m} {h' : 0 < m'} (hm : m = m') (he : e = e') :
    UnpackedFloat.finite s m e h = .finite s m' e' h' := by
  subst hm he
  rfl

/-- What a pattern of these parts stands for. -/
theorem unpack_packComponents (s : Sign) (e : BitVec 11) (m : BitVec 52) :
    UnpackedFloat.unpack Format.binary64 (packComponents Format.binary64 s e m) =
      if e = -1#11 then if m = 0#52 then .infinity s else .notANumber
      else if e = 0#11 then
        if h : m = 0#52 then .zero s
        else .finite s m.toNat (-1074) (Nat.pos_of_ne_zero fun hm => h (BitVec.eq_of_toNat_eq hm))
      else .finite s (2 ^ 52 + m.toNat) (e.toNat - 1075) (Nat.add_pos_left (Nat.two_pow_pos 52) _) := by
  unfold UnpackedFloat.unpack
  simp only [unpackMantissa_packComponents, unpackExponent_packComponents, unpackSign_packComponents,
    Sign.ofBitVec_toBitVec]
  split_ifs with hall hzero hnone hm
  · rfl
  · rfl
  · rfl
  · subst hnone
    rfl
  · exact finite_congr (toNat_one_append m) rfl

theorem log2_add_one_eq_53_iff {m : ℕ} (hpos : 0 < m) (h : m < 2 ^ 53) : m.log2 + 1 = 53 ↔ 2 ^ 52 ≤ m := by
  have hlt := (Nat.log2_lt hpos.ne').mpr h
  rw [← Nat.le_log2 hpos.ne']
  omega

/-- The pattern of a mantissa and an exponent. -/
theorem pack_finite (s : Sign) {m : ℕ} (e : ℤ) (hpos : 0 < m) (hlt : m < 2 ^ 53) :
    UnpackedFloat.pack Format.binary64 (.finite s m e hpos) =
      if 972 ≤ e then packedInfinity Format.binary64 s
      else if 2 ^ 52 ≤ m then
        packComponents Format.binary64 s (BitVec.ofNat 11 (e + 1075).toNat) (BitVec.ofNat 52 m)
      else packComponents Format.binary64 s 0#11 (BitVec.ofNat 52 m) := by
  have hplace : e + (1023 : ℕ) + (52 : ℕ) = e + 1075 := by omega
  have hunfold : UnpackedFloat.pack Format.binary64 (.finite s m e hpos) =
      if 2 ^ 11 ≤ (e + 1075).toNat + 1 then packedInfinity Format.binary64 s
      else if m.log2 + 1 = 53 then
        packComponents Format.binary64 s (BitVec.ofNat 11 (e + 1075).toNat) (BitVec.ofNat 52 m)
      else packComponents Format.binary64 s 0#11 (BitVec.ofNat 52 m) := by
    rw [← hplace]
    rfl
  have hhigh : 2 ^ 11 ≤ (e + 1075).toNat + 1 ↔ 972 ≤ e := by omega
  rw [hunfold]
  simp only [hhigh, log2_add_one_eq_53_iff hpos hlt]

/-! ## Packing and taking apart -/

/-- A mantissa of 53 digits, or of fewer with the least exponent. -/
def Canonical : UnpackedFloat → Prop
  | .finite _ m e _ => m < 2 ^ 53 ∧ -1074 ≤ e ∧ (2 ^ 52 ≤ m ∨ e = -1074)
  | _ => True

/-- What is left of parts when they are packed: beyond the greatest exponent, infinity. -/
def settled : UnpackedFloat → UnpackedFloat
  | .finite s m e h => if e ≤ 971 then .finite s m e h else .infinity s
  | u => u

theorem toNat_ofNat_of_lt {w n : ℕ} (h : n < 2 ^ w) : (BitVec.ofNat w n).toNat = n := by
  rw [BitVec.toNat_ofNat, Nat.mod_eq_of_lt h]

theorem ofNat_ne_of_lt {w n : ℕ} (h : n < 2 ^ w) {b : BitVec w} (hne : n ≠ b.toNat) : BitVec.ofNat w n ≠ b := by
  intro heq
  rw [← heq, toNat_ofNat_of_lt h] at hne
  exact hne rfl

/-- **What is packed is found again**, or infinity in its place. -/
theorem unpack_pack {u : UnpackedFloat} (h : Canonical u) :
    UnpackedFloat.unpack Format.binary64 (UnpackedFloat.pack Format.binary64 u) = settled u := by
  cases u with
  | notANumber => rfl
  | infinity s => cases s <;> rfl
  | zero s => cases s <;> rfl
  | finite s m e hpos =>
    obtain ⟨hlt, hlow, hnormal⟩ := h
    rw [pack_finite s e hpos hlt, settled]
    by_cases hhigh : e ≤ 971
    · rw [if_neg (by omega), if_pos hhigh]
      split_ifs with hfull
      · -- the exponent's digits are neither all ones nor all zeros, so the first digit of the mantissa is put back
        have hfits : (e + 1075).toNat < 2 ^ 11 := by omega
        have hall : BitVec.ofNat 11 (e + 1075).toNat ≠ -1#11 := by
          apply ofNat_ne_of_lt hfits
          show (e + 1075).toNat ≠ 2047
          omega
        have hzero : BitVec.ofNat 11 (e + 1075).toNat ≠ 0#11 := by
          apply ofNat_ne_of_lt hfits
          show (e + 1075).toNat ≠ 0
          omega
        rw [unpack_packComponents, if_neg hall, if_neg hzero]
        apply finite_congr
        · rw [BitVec.toNat_ofNat]
          omega
        · rw [toNat_ofNat_of_lt hfits]
          omega
      · -- the least exponent is written as zeros, and then no digit is put back
        have hfits : m < 2 ^ 52 := by omega
        have hzero : BitVec.ofNat 52 m ≠ 0#52 := by
          apply ofNat_ne_of_lt hfits
          show m ≠ 0
          omega
        rw [unpack_packComponents, if_neg (by decide), if_pos rfl, dif_neg hzero]
        apply finite_congr (toNat_ofNat_of_lt hfits)
        omega
    · rw [if_pos (by omega), if_neg hhigh]
      cases s <;> rfl

theorem canonical_unpack (b : BitVec Format.binary64.numBits) : Canonical (UnpackedFloat.unpack Format.binary64 b) := by
  have hmant : (unpackMantissa b).toNat < 2 ^ 52 := (unpackMantissa b).isLt
  rw [← packComponents_unpackSign_unpackExponent_unpackMantissa b, unpack_packComponents]
  split_ifs with hall hzero hnone hm
  · trivial
  · trivial
  · trivial
  · exact ⟨by omega, by omega, Or.inr rfl⟩
  · have hne : (unpackExponent b).toNat ≠ 0 := fun heq => hnone (BitVec.eq_of_toNat_eq heq)
    exact ⟨by omega, by omega, Or.inl (by omega)⟩

/-- The parts of a number. -/
def parts (x : Float) : UnpackedFloat :=
  x.toModel.unpack

/-- The number that parts make up. -/
def ofParts (u : UnpackedFloat) : Float :=
  .ofModel (.pack u)

theorem canonical_parts (x : Float) : Canonical (parts x) :=
  canonical_unpack _

theorem parts_ofParts {u : UnpackedFloat} (h : Canonical u) : parts (ofParts u) = settled u :=
  unpack_pack h

/-- **A number is made up of its parts.** -/
theorem ofParts_parts (x : Float) : ofParts (parts x) = x := by
  obtain ⟨bits, hvalid⟩ := x
  have hbits : Float.Model.ofBits bits = ⟨bits, hvalid⟩ := by
    unfold Float.Model.ofBits Float.Model.pack
    congr 1
    rw [pack_unpack_of_valid hvalid]
  show Float.ofModel (Float.Model.ofBits bits) = _
  rw [hbits]

theorem settled_parts (x : Float) : settled (parts x) = parts x := by
  have h := parts_ofParts (canonical_parts x)
  rw [ofParts_parts] at h
  exact h.symm

/-! ## The rational that a number is -/

/-- A rational with a sign. -/
def signed : Sign → ℚ → ℚ
  | .negative, q => -q
  | .positive, q => q

theorem abs_signed (s : Sign) {q : ℚ} (h : 0 ≤ q) : |signed s q| = q := by
  cases s with
  | negative => exact (abs_neg q).trans (abs_of_nonneg h)
  | positive => exact abs_of_nonneg h

/-- The rational that parts stand for. No number and infinities stand for none. -/
def partsValue? : UnpackedFloat → Option ℚ
  | .zero _ => some 0
  | .finite s m e _ => some (signed s (m * 2 ^ e))
  | _ => none

/-- The rational that a number is. -/
def value? (x : Float) : Option ℚ :=
  partsValue? (parts x)

/-- The rational of a number whose parts are known. -/
theorem value?_of_parts {x : Float} {m : ℕ} {e : ℤ} {hpos : 0 < m} (h : parts x = .finite .positive m e hpos) :
    value? x = some ((m : ℚ) * 2 ^ e) := by
  rw [value?, h]
  rfl

theorem value?_zero : value? 0 = some 0 :=
  rfl

theorem isFinite_iff {x : Float} : x.isFinite = true ↔ ∃ v, value? x = some v := by
  have hparts : x.isFinite = (parts x).isFinite := rfl
  unfold value?
  rw [hparts]
  cases parts x <;> simp [UnpackedFloat.isFinite, partsValue?]

theorem isNaN_eq (x : Float) : x.isNaN = (parts x).isNaN :=
  rfl

theorem isNaN_eq_false {x : Float} {v : ℚ} (h : value? x = some v) : x.isNaN = false := by
  unfold value? at h
  rw [isNaN_eq]
  cases hx : parts x with
  | notANumber =>
    rw [hx] at h
    cases h
  | _ => rfl

theorem representable_of_parts {u : UnpackedFloat} {v : ℚ} (h : Canonical u) (hv : partsValue? u = some v) :
    Representable v := by
  cases u with
  | zero s =>
    obtain rfl := Option.some.inj hv
    exact representable_zero
  | finite s m e hpos =>
    obtain ⟨hlt, hlow, -⟩ := h
    have hrep : Representable (m * 2 ^ e) :=
      ⟨m, e, by rw [Nat.abs_cast]; exact_mod_cast hlt, hlow, by rw [Int.cast_natCast]⟩
    obtain rfl := Option.some.inj hv
    cases s with
    | negative => exact hrep.neg
    | positive => exact hrep
  | _ => cases hv

/-- A number is representable. -/
theorem representable_of_value? {x : Float} {v : ℚ} (h : value? x = some v) : Representable v :=
  representable_of_parts (canonical_parts x) h

/-- The least power of two that no number reaches. -/
def limit : ℚ :=
  2 ^ (1024 : ℤ)

theorem limit_pos : 0 < limit :=
  zpow_pos two_pos _

theorem two_zpow_lt_limit {e : ℤ} (h : e < 1024) : (2 : ℚ) ^ e < limit :=
  zpow_lt_zpow_right₀ one_lt_two h

theorem limit_eq {a b : ℤ} (h : a + b = 1024) : limit = 2 ^ a * 2 ^ b := by
  rw [← zpow_add₀ two_ne_zero, h, limit]

theorem lt_limit_iff {m : ℕ} {e : ℤ} (h : m < 2 ^ 53) (hm : 2 ^ 52 ≤ m ∨ e = -1074) :
    (m : ℚ) * 2 ^ e < limit ↔ e ≤ 971 := by
  constructor
  · intro hlt
    by_contra hhigh
    have hm : (2 : ℚ) ^ (52 : ℤ) ≤ m := by exact_mod_cast (by omega : 2 ^ 52 ≤ m)
    have hge : limit ≤ m * 2 ^ e := by
      rw [@limit_eq 52 972 rfl]
      exact mul_le_mul hm (zpow_le_zpow_right₀ one_le_two (by omega)) (zpow_pos two_pos _).le (Nat.cast_nonneg m)
    exact absurd hlt (not_lt.mpr hge)
  · intro hle
    have hm : (m : ℚ) < 2 ^ (53 : ℤ) := by exact_mod_cast h
    have hpow : (2 : ℚ) ^ e ≤ 2 ^ (971 : ℤ) := zpow_le_zpow_right₀ one_le_two hle
    rw [@limit_eq 53 971 rfl]
    exact mul_lt_mul hm hpow (zpow_pos two_pos _) (zpow_pos two_pos _).le

section
variable {u : UnpackedFloat} {v : ℚ} (h : Canonical u) (hv : partsValue? u = some v)
include h hv

theorem settled_of_lt (hlt : |v| < limit) : settled u = u := by
  cases u with
  | finite s m e hpos =>
    obtain ⟨hm, -, hnormal⟩ := h
    obtain rfl := Option.some.inj hv
    rw [abs_signed s (by positivity), lt_limit_iff hm hnormal] at hlt
    exact if_pos hlt
  | _ => rfl

theorem settled_of_le (hle : limit ≤ |v|) : settled u = .infinity (if v < 0 then .negative else .positive) := by
  cases u with
  | zero s =>
    obtain rfl := Option.some.inj hv
    rw [abs_zero] at hle
    exact absurd limit_pos (not_lt.mpr hle)
  | finite s m e hpos =>
    obtain ⟨hm, -, hnormal⟩ := h
    obtain rfl := Option.some.inj hv
    have hmag : (0 : ℚ) < m * 2 ^ e := by positivity
    rw [abs_signed s hmag.le, ← not_lt, lt_limit_iff hm hnormal] at hle
    have hsign : (if signed s (m * 2 ^ e) < 0 then Sign.negative else Sign.positive) = s := by
      cases s with
      | negative => exact if_pos (neg_lt_zero.mpr hmag)
      | positive => exact if_neg (not_lt.mpr hmag.le)
    rw [hsign]
    exact if_neg hle
  | _ => cases hv

end

theorem abs_lt_limit {x : Float} {v : ℚ} (h : value? x = some v) : |v| < limit := by
  by_contra hle
  have hsettled := settled_of_le (canonical_parts x) h (not_lt.mp hle)
  rw [settled_parts] at hsettled
  rw [value?, hsettled] at h
  cases h

/-! ## The order of numbers -/

/-- With a full mantissa, the greater exponent makes the greater number. -/
theorem magnitude_lt {m m' : ℕ} {e e' : ℤ} (hm : m < 2 ^ 53) (hm' : 2 ^ 52 ≤ m') (he : e < e') :
    (m : ℚ) * 2 ^ e < m' * 2 ^ e' := by
  have hm : (m : ℚ) < 2 ^ 53 := by exact_mod_cast hm
  have hm' : (2 ^ 52 : ℚ) ≤ m' := by exact_mod_cast hm'
  calc (m : ℚ) * 2 ^ e < 2 ^ 53 * 2 ^ e := by gcongr
    _ = 2 ^ 52 * 2 ^ (e + 1) := by
        rw [zpow_add₀ two_ne_zero]
        ring
    _ ≤ m' * 2 ^ e' := by
        gcongr
        · norm_num
        · omega

theorem compare_magnitudes {m m' : ℕ} {e e' : ℤ} (h : m < 2 ^ 53 ∧ -1074 ≤ e ∧ (2 ^ 52 ≤ m ∨ e = -1074))
    (h' : m' < 2 ^ 53 ∧ -1074 ≤ e' ∧ (2 ^ 52 ≤ m' ∨ e' = -1074)) :
    (compare e e').then (compare m m') = compare ((m : ℚ) * 2 ^ e) (m' * 2 ^ e') := by
  rcases lt_trichotomy e e' with hlt | rfl | hgt
  · rw [compare_lt_iff_lt.mpr hlt, compare_lt_iff_lt.mpr (magnitude_lt h.1 (by omega) hlt)]
    rfl
  · have hpos : (0 : ℚ) < 2 ^ e := by positivity
    rw [compare_eq_iff_eq.mpr rfl]
    rcases lt_trichotomy m m' with hlt | rfl | hgt
    · have hq : (m : ℚ) * 2 ^ e < m' * 2 ^ e := by gcongr
      rw [compare_lt_iff_lt.mpr hlt, compare_lt_iff_lt.mpr hq]
      rfl
    · rw [compare_eq_iff_eq.mpr rfl, compare_eq_iff_eq.mpr rfl]
      rfl
    · have hq : (m' : ℚ) * 2 ^ e < m * 2 ^ e := by gcongr
      rw [compare_gt_iff_gt.mpr hgt, compare_gt_iff_gt.mpr hq]
      rfl
  · rw [compare_gt_iff_gt.mpr hgt, compare_gt_iff_gt.mpr (magnitude_lt h'.1 (by omega) hgt)]
    rfl

/-- **A number other than zero is known by its rational**, since a zero is the only one that has two signs. -/
theorem eq_of_value?_eq {x y : Float} {v : ℚ} (hx : value? x = some v) (hy : value? y = some v) (hv : v ≠ 0) :
    x = y := by
  have hcx := canonical_parts x
  have hcy := canonical_parts y
  rw [← ofParts_parts x, ← ofParts_parts y]
  unfold value? at hx hy
  congr 1
  cases hpx : parts x with
  | finite s m e hpos =>
    cases hpy : parts y with
    | finite s' m' e' hpos' =>
      rw [hpx] at hx hcx
      rw [hpy] at hy hcy
      have hsame : signed s (m * 2 ^ e) = signed s' (m' * 2 ^ e') :=
        (Option.some.inj hx).trans (Option.some.inj hy).symm
      have hmag : (0 : ℚ) < m * 2 ^ e := by positivity
      have hmag' : (0 : ℚ) < m' * 2 ^ e' := by positivity
      have hmags : (m : ℚ) * 2 ^ e = m' * 2 ^ e' := by
        have habs := congrArg (|·|) hsame
        rwa [abs_signed s hmag.le, abs_signed s' hmag'.le] at habs
      have hsigns : s = s' := by
        cases s <;> cases s' <;> simp only [signed] at hsame <;> first | rfl | linarith
      have hcompare := compare_magnitudes hcx hcy
      rw [compare_eq_iff_eq.mpr hmags, Ordering.then_eq_eq, compare_eq_iff_eq, compare_eq_iff_eq] at hcompare
      obtain ⟨he, hm⟩ := hcompare
      subst hsigns
      exact finite_congr hm he
    | zero s' =>
      rw [hpy] at hy
      exact absurd (Option.some.inj hy).symm hv
    | _ =>
      rw [hpy] at hy
      cases hy
  | zero s =>
    rw [hpx] at hx
    exact absurd (Option.some.inj hx).symm hv
  | _ =>
    rw [hpx] at hx
    cases hx

theorem compare_neg_neg_eq_swap (p q : ℚ) : compare (-p) (-q) = (compare p q).swap := by
  rcases lt_trichotomy p q with hlt | rfl | hgt
  · rw [compare_lt_iff_lt.mpr hlt, compare_gt_iff_gt.mpr (neg_lt_neg hlt)]
    rfl
  · rw [compare_eq_iff_eq.mpr rfl, compare_eq_iff_eq.mpr rfl]
    rfl
  · rw [compare_gt_iff_gt.mpr hgt, compare_lt_iff_lt.mpr (neg_lt_neg hgt)]
    rfl

/-- **Canonical parts are compared like the rationals that they stand for.** -/
theorem compare_parts {u w : UnpackedFloat} {p q : ℚ} (hu : Canonical u) (hw : Canonical w)
    (hp : partsValue? u = some p) (hq : partsValue? w = some q) : u.compare w = some (compare p q) := by
  have hlt : ∀ {a b : ℚ}, a < b → some Ordering.lt = some (compare a b) :=
    fun h => congrArg some (compare_lt_iff_lt.mpr h).symm
  have hgt : ∀ {a b : ℚ}, b < a → some Ordering.gt = some (compare a b) :=
    fun h => congrArg some (compare_gt_iff_gt.mpr h).symm
  cases u with
  | zero s =>
    obtain rfl := Option.some.inj hp
    cases w with
    | zero s' =>
      obtain rfl := Option.some.inj hq
      exact congrArg some (compare_eq_iff_eq.mpr rfl).symm
    | finite s' m' e' hpos' =>
      obtain rfl := Option.some.inj hq
      have hmag : (0 : ℚ) < m' * 2 ^ e' := by positivity
      cases s' with
      | negative => exact hgt (neg_lt_zero.mpr hmag)
      | positive => exact hlt hmag
    | _ => cases hq
  | finite s m e hpos =>
    obtain rfl := Option.some.inj hp
    have hmag : (0 : ℚ) < m * 2 ^ e := by positivity
    cases w with
    | zero s' =>
      obtain rfl := Option.some.inj hq
      cases s with
      | negative => exact hlt (neg_lt_zero.mpr hmag)
      | positive => exact hgt hmag
    | finite s' m' e' hpos' =>
      obtain rfl := Option.some.inj hq
      have hmag' : (0 : ℚ) < m' * 2 ^ e' := by positivity
      have hcompare := compare_magnitudes hu hw
      cases s with
      | negative =>
        cases s' with
        | negative =>
          have hswap := compare_neg_neg_eq_swap (m * 2 ^ e) (m' * 2 ^ e')
          rw [← hcompare] at hswap
          exact congrArg some hswap.symm
        | positive => exact hlt ((neg_lt_zero.mpr hmag).trans hmag')
      | positive =>
        cases s' with
        | negative => exact hgt ((neg_lt_zero.mpr hmag').trans hmag)
        | positive => exact congrArg some hcompare
    | _ => cases hq
  | _ => cases hp

/-- How numbers are compared. -/
theorem le_iff_compare (x y : Float) : x ≤ y ↔ ((parts x).compare (parts y)).any (·.isLE) = true := by
  show decide (x.toModel ≤ y.toModel) = true ↔ _
  rw [decide_eq_true_iff]
  rfl

/-- **The order of numbers is that of rationals.** -/
theorem le_iff {x y : Float} {p q : ℚ} (hp : value? x = some p) (hq : value? y = some q) : x ≤ y ↔ p ≤ q := by
  rw [le_iff_compare, compare_parts (canonical_parts x) (canonical_parts y) hp hq]
  show (compare p q).isLE = true ↔ p ≤ q
  rw [Ordering.isLE_iff_ne_gt]
  exact compare_le_iff_le

theorem lt_iff_compare (x y : Float) : x < y ↔ ((parts x).compare (parts y) == some .lt) = true := by
  show decide (x.toModel < y.toModel) = true ↔ _
  rw [decide_eq_true_iff]
  rfl

theorem lt_iff {x y : Float} {p q : ℚ} (hp : value? x = some p) (hq : value? y = some q) : x < y ↔ p < q := by
  rw [lt_iff_compare, compare_parts (canonical_parts x) (canonical_parts y) hp hq, beq_iff_eq, Option.some.injEq]
  exact compare_lt_iff_lt

theorem beq_iff {x y : Float} {p q : ℚ} (hp : value? x = some p) (hq : value? y = some q) :
    (x == y) = true ↔ p = q := by
  have hbeq : (x == y) = ((parts x).compare (parts y) == some .eq) := rfl
  rw [hbeq, compare_parts (canonical_parts x) (canonical_parts y) hp hq, beq_iff_eq, Option.some.injEq]
  exact compare_eq_iff_eq

/-- **What equals a rational is that rational.** -/
theorem value?_of_beq {x y : Float} {q : ℚ} (hq : value? y = some q) (h : (x == y) = true) : value? x = some q := by
  have hbeq : (x == y) = ((parts x).compare (parts y) == some .eq) := rfl
  obtain ⟨p, hp⟩ : ∃ p, value? x = some p := by
    rw [hbeq] at h
    unfold value? at hq ⊢
    cases hx : parts x with
    | zero s => exact ⟨_, rfl⟩
    | finite s m e hpos => exact ⟨_, rfl⟩
    | notANumber =>
      rw [hx] at h
      cases h
    | infinity s =>
      rw [hx] at h
      cases hy : parts y with
      | zero s' =>
        rw [hy] at h
        cases s <;> cases h
      | finite s' m e hpos =>
        rw [hy] at h
        cases s <;> cases h
      | _ =>
        rw [hy] at hq
        cases hq
  rw [hp, (beq_iff hp hq).mp h]

theorem le_of_infinity {x y : Float} {q : ℚ} (hx : parts x = .infinity .positive) (hq : value? y = some q) : y ≤ x := by
  unfold value? at hq
  rw [le_iff_compare, hx]
  cases hy : parts y with
  | zero s => rfl
  | finite s m e hpos => cases s <;> rfl
  | _ =>
    rw [hy] at hq
    cases hq

/-! ## The order of bits -/

/-- The mantissa that a pattern without sign has, with the digit that is not written. -/
def significandOf (n : ℕ) : ℕ :=
  if n / 2 ^ 52 = 0 then n else 2 ^ 52 + n % 2 ^ 52

/-- The exponent that a pattern without sign has. -/
def placeOf (n : ℕ) : ℤ :=
  max ((n / 2 ^ 52 : ℕ) : ℤ) 1 - 1075

/-- The rational that a pattern without sign stands for. -/
def magnitude (n : ℕ) : ℚ :=
  significandOf n * 2 ^ placeOf n

/-- The sign of a pattern. -/
def signOf (n : ℕ) : Sign :=
  if n < 2 ^ 63 then .positive else .negative

theorem magnitude_nonneg (n : ℕ) : 0 ≤ magnitude n := by
  unfold magnitude
  positivity

/-- **The greater pattern stands for the greater number.** -/
theorem magnitude_mono {n n' : ℕ} (h : n ≤ n') : magnitude n ≤ magnitude n' := by
  have hfield : n / 2 ^ 52 ≤ n' / 2 ^ 52 := Nat.div_le_div_right h
  have hplace : placeOf n ≤ placeOf n' := by
    unfold placeOf
    omega
  unfold magnitude
  -- the exponent decides; with one exponent, the mantissas are in the order of the patterns
  rcases hplace.lt_or_eq with hlt | heq
  · apply le_of_lt
    apply magnitude_lt _ _ hlt
    · unfold significandOf
      split_ifs <;> omega
    · unfold placeOf at hlt
      unfold significandOf
      rw [if_neg (by omega)]
      omega
  · have hsignificand : significandOf n ≤ significandOf n' := by
      unfold placeOf at heq
      unfold significandOf
      split_ifs <;> omega
    rw [heq]
    gcongr

/-- **The parts of a finite number, from its bits.** -/
theorem parts_eq {x : Float} {v : ℚ} (h : value? x = some v) :
    parts x = if hzero : significandOf (x.toBits.toNat % 2 ^ 63) = 0 then .zero (signOf x.toBits.toNat)
      else .finite (signOf x.toBits.toNat) (significandOf (x.toBits.toNat % 2 ^ 63)) (placeOf (x.toBits.toNat % 2 ^ 63))
        (Nat.pos_of_ne_zero hzero) := by
  set b : BitVec Format.binary64.numBits := x.toBits.toBitVec with hb
  have hbits : x.toBits.toNat = b.toNat := rfl
  have hlt : b.toNat < 2 ^ 64 := b.isLt
  have hsign : Sign.ofBitVec (unpackSign b) = signOf b.toNat := by
    have hiff : unpackSign b = 0#1 ↔ b.toNat < 2 ^ 63 := by
      rw [← BitVec.toNat_inj, toNat_unpackSign]
      show b.toNat / 2 ^ 63 = 0 ↔ _
      omega
    simp only [Sign.ofBitVec, signOf, hiff]
  have hparts : parts x = UnpackedFloat.unpack Format.binary64 b := rfl
  have hexp := toNat_unpackExponent b
  have hmant := toNat_unpackMantissa b
  rw [← packComponents_unpackSign_unpackExponent_unpackMantissa b, unpack_packComponents, hsign] at hparts
  unfold value? at h
  rw [hparts] at h ⊢
  rw [hbits]
  split_ifs at h with hall hinfinity hnone hm
  · cases h
  · cases h
  -- a zero, a number with the least exponent, and a number with the digit that is not written
  · have hexp0 : (unpackExponent b).toNat = 0 := congrArg BitVec.toNat hnone
    have hmant0 : (unpackMantissa b).toNat = 0 := congrArg BitVec.toNat hm
    have hsignificand : significandOf (b.toNat % 2 ^ 63) = 0 := by
      unfold significandOf
      rw [if_pos (by omega)]
      omega
    rw [if_neg hall, if_pos hnone, dif_pos hm, dif_pos hsignificand]
  · have hexp0 : (unpackExponent b).toNat = 0 := congrArg BitVec.toNat hnone
    have hsignificand : significandOf (b.toNat % 2 ^ 63) = (unpackMantissa b).toNat := by
      unfold significandOf
      rw [if_pos (by omega)]
      omega
    have hplace : placeOf (b.toNat % 2 ^ 63) = -1074 := by
      unfold placeOf
      omega
    have hpos : significandOf (b.toNat % 2 ^ 63) ≠ 0 := by
      rw [hsignificand]
      exact fun heq => hm (BitVec.eq_of_toNat_eq heq)
    rw [if_neg hall, if_pos hnone, dif_neg hm, dif_neg hpos]
    exact finite_congr hsignificand.symm hplace.symm
  · have hexp0 : (unpackExponent b).toNat ≠ 0 := fun heq => hnone (BitVec.eq_of_toNat_eq heq)
    have hsignificand : significandOf (b.toNat % 2 ^ 63) = 2 ^ 52 + (unpackMantissa b).toNat := by
      unfold significandOf
      rw [if_neg (by omega)]
      omega
    have hplace : placeOf (b.toNat % 2 ^ 63) = (unpackExponent b).toNat - 1075 := by
      unfold placeOf
      omega
    have hpos : significandOf (b.toNat % 2 ^ 63) ≠ 0 := by
      rw [hsignificand]
      omega
    rw [if_neg hall, if_neg hnone, dif_neg hpos]
    exact finite_congr hsignificand.symm hplace.symm

/-- The rational that a number is, from its bits. -/
theorem value?_eq_magnitude {x : Float} {v : ℚ} (h : value? x = some v) :
    v = signed (signOf x.toBits.toNat) (magnitude (x.toBits.toNat % 2 ^ 63)) := by
  have hparts := parts_eq h
  unfold value? at h
  rw [hparts] at h
  unfold magnitude
  split_ifs at h with hzero
  · rw [hzero, Nat.cast_zero, zero_mul]
    cases signOf x.toBits.toNat
    · exact (Option.some.inj h).symm.trans neg_zero.symm
    · exact (Option.some.inj h).symm
  · exact (Option.some.inj h).symm

theorem significandOf_eq_zero {x : Float} (h : value? x = some 0) : significandOf (x.toBits.toNat % 2 ^ 63) = 0 := by
  have habs := congrArg (|·|) (value?_eq_magnitude h)
  simp only [abs_zero, abs_signed _ (magnitude_nonneg _)] at habs
  unfold magnitude at habs
  rcases mul_eq_zero.mp habs.symm with hsignificand | hpower
  · exact_mod_cast hsignificand
  · exact absurd hpower (by positivity)

/-- **The total order of patterns is the order of numbers**, where there are numbers. -/
theorem le_of_orderKey_le {x y : Float} {p q : ℚ} (hp : value? x = some p) (hq : value? y = some q)
    (h : orderKey x.toBits ≤ orderKey y.toBits) : p ≤ q := by
  have hx : x.toBits.toNat < 2 ^ 64 := x.toBits.toNat_lt
  have hy : y.toBits.toNat < 2 ^ 64 := y.toBits.toNat_lt
  have hsize : UInt64.size = 2 ^ 64 := rfl
  have hhalf : Nat.pow 2 63 = 2 ^ 63 := rfl
  obtain rfl := value?_eq_magnitude hp
  obtain rfl := value?_eq_magnitude hq
  have hpx := magnitude_nonneg (x.toBits.toNat % 2 ^ 63)
  have hpy := magnitude_nonneg (y.toBits.toNat % 2 ^ 63)
  unfold orderKey at h
  rw [hsize, hhalf] at h
  unfold signOf
  split_ifs at h ⊢ with hsx hsy hsy
  · exact magnitude_mono (by omega)
  · omega
  · exact (neg_nonpos.mpr hpx).trans hpy
  · exact neg_le_neg (magnitude_mono (by omega))

end LatencyReport.Binary64
