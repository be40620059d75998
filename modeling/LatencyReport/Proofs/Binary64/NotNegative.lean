import LatencyReport.Proofs.Binary64.Conversion

/-!
# `Proofs.Binary64.NotNegative` — numbers that are not below zero

Sums, products and quotients of numbers that are not below zero are never below zero. They may be infinite, or no number
at all: zero times infinity is none, and neither is infinity by infinity. So **"no number or not below zero"** is what every
operation keeps (`NotNegative.add`, `NotNegative.mul`, `NotNegative.div`), without a word about overflow. A number of that
kind that is finite is a rational that is not below zero (`NotNegative.cases`).

## Contents

* `NotNegative`, `NotNegative.cases` — what is meant;
* `NotNegative.add`, `NotNegative.mul`, `NotNegative.div` — operations keep it; `notNegative_sub` — differences;
* `Rounds.notNegative`, `notNegative_ofNat`, `IsDuration` — numbers that are of that kind.
-/

namespace LatencyReport.Binary64

open Float.Model Float.Model.UnpackedFloat

/-- No number, or no sign where it counts. -/
def NotNegative : UnpackedFloat → Prop
  | .finite s _ _ _ => s = .positive
  | .infinity s => s = .positive
  | _ => True

theorem notNegative_of_value {u : UnpackedFloat} {v : ℚ} (h : partsValue? u = some v) (hv : 0 ≤ v) :
    NotNegative u := by
  cases u with
  | finite s m e hpos =>
    obtain rfl := Option.some.inj h
    have hmag : (0 : ℚ) < m * 2 ^ e := by positivity
    cases s with
    | negative => exact absurd (neg_lt_zero.mpr hmag) (not_lt.mpr hv)
    | positive => rfl
  | zero s => trivial
  | _ => cases h

theorem notNegative_settled {u : UnpackedFloat} (h : NotNegative u) : NotNegative (settled u) := by
  cases u with
  | finite s m e hpos =>
    show NotNegative (if e ≤ 971 then .finite s m e hpos else .infinity s)
    split_ifs <;> exact h
  | _ => exact h

/-- Parts that are canonical and not below zero make up such a number. -/
theorem notNegative_ofParts {u : UnpackedFloat} (h : Canonical u ∧ NotNegative u) : NotNegative (parts (ofParts u)) := by
  rw [parts_ofParts h.1]
  exact notNegative_settled h.2

/-- **A number that is not below zero** is none, or infinite, or a rational that is not below zero. -/
theorem NotNegative.cases {x : Float} (h : NotNegative (parts x)) :
    parts x = .notANumber ∨ parts x = .infinity .positive ∨ ∃ v, value? x = some v ∧ 0 ≤ v := by
  unfold value?
  cases hx : parts x with
  | notANumber => exact Or.inl rfl
  | infinity s =>
    rw [hx] at h
    subst h
    exact Or.inr (Or.inl rfl)
  | zero s => exact Or.inr (Or.inr ⟨0, rfl, le_refl 0⟩)
  | finite s m e hpos =>
    rw [hx] at h
    subst h
    have hmag : (0 : ℚ) ≤ m * 2 ^ e := by positivity
    exact Or.inr (Or.inr ⟨_, rfl, hmag⟩)

/-! ## Operations -/

theorem notNegative_of_isRounded {u : UnpackedFloat} {q : ℚ} (h : IsRounded u q) (hq : 0 ≤ q) :
    Canonical u ∧ NotNegative u :=
  ⟨h.1, notNegative_of_value h.2 (rounded_nonneg hq)⟩

section
variable {u w : UnpackedFloat} (hu : Canonical u) (hw : Canonical w) (nu : NotNegative u) (nw : NotNegative w)
include hu hw nu nw

theorem notNegative_add :
    Canonical (UnpackedFloat.add Format.binary64 u w) ∧ NotNegative (UnpackedFloat.add Format.binary64 u w) := by
  cases u with
  | notANumber => exact ⟨trivial, trivial⟩
  | infinity s =>
    subst nu
    cases w with
    | infinity s' =>
      subst nw
      exact ⟨trivial, rfl⟩
    | notANumber => exact ⟨trivial, trivial⟩
    | _ => exact ⟨trivial, rfl⟩
  | zero s =>
    cases w with
    | zero s' => cases s <;> cases s' <;> exact ⟨trivial, trivial⟩
    | _ => exact ⟨hw, nw⟩
  | finite s m e hpos =>
    cases w with
    | finite s' m' e' hpos' =>
      subst nu nw
      have hsum : (0 : ℚ) ≤ m * 2 ^ e + m' * 2 ^ e' := by positivity
      exact notNegative_of_isRounded (isRounded_add hu hw rfl rfl) hsum
    | zero s' => exact ⟨hu, nu⟩
    | _ => exact ⟨hw, nw⟩

theorem notNegative_mul :
    Canonical (UnpackedFloat.mul Format.binary64 u w) ∧ NotNegative (UnpackedFloat.mul Format.binary64 u w) := by
  cases u with
  | notANumber => exact ⟨trivial, trivial⟩
  | infinity s =>
    subst nu
    cases w with
    | infinity s' =>
      subst nw
      exact ⟨trivial, rfl⟩
    | finite s' m' e' hpos' =>
      subst nw
      exact ⟨trivial, rfl⟩
    | _ => exact ⟨trivial, trivial⟩
  | zero s => cases w <;> exact ⟨trivial, trivial⟩
  | finite s m e hpos =>
    subst nu
    cases w with
    | finite s' m' e' hpos' =>
      subst nw
      have hprod : (0 : ℚ) ≤ m * 2 ^ e * (m' * 2 ^ e') := by positivity
      exact notNegative_of_isRounded (isRounded_mul hu hw rfl rfl) hprod
    | infinity s' =>
      subst nw
      exact ⟨trivial, rfl⟩
    | _ => exact ⟨trivial, trivial⟩

/-- Only a quotient by zero has the sign of the zero. -/
theorem notNegative_div (hne : ∀ s, w ≠ .zero s) :
    Canonical (UnpackedFloat.div Format.binary64 u w) ∧ NotNegative (UnpackedFloat.div Format.binary64 u w) := by
  cases w with
  | notANumber => cases u <;> exact ⟨trivial, trivial⟩
  | infinity s' => cases u <;> exact ⟨trivial, trivial⟩
  | zero s' => exact absurd rfl (hne s')
  | finite s' m' e' hpos' =>
    subst nw
    cases u with
    | finite s m e hpos =>
      subst nu
      have hne : (m' : ℚ) * 2 ^ e' ≠ 0 := by positivity
      have hquot : (0 : ℚ) ≤ m * 2 ^ e / (m' * 2 ^ e') := by positivity
      exact notNegative_of_isRounded (isRounded_div hu hw rfl rfl hne) hquot
    | infinity s =>
      subst nu
      exact ⟨trivial, rfl⟩
    | _ => exact ⟨trivial, trivial⟩

end

section
variable {x y : Float} (hx : NotNegative (parts x)) (hy : NotNegative (parts y))
include hx hy

/-- **A sum is not below zero.** -/
theorem NotNegative.add : NotNegative (parts (x + y)) :=
  notNegative_ofParts (notNegative_add (canonical_parts x) (canonical_parts y) hx hy)

/-- **A product is not below zero.** -/
theorem NotNegative.mul : NotNegative (parts (x * y)) :=
  notNegative_ofParts (notNegative_mul (canonical_parts x) (canonical_parts y) hx hy)

/-- **A quotient is not below zero**, unless it is one by zero. -/
theorem NotNegative.div (hne : ∀ s, parts y ≠ .zero s) : NotNegative (parts (x / y)) :=
  notNegative_ofParts (notNegative_div (canonical_parts x) (canonical_parts y) hx hy hne)

end

/-- A difference from what is no rational is no rational either. -/
theorem notNegative_sub {x y : Float} (hx : parts x = .notANumber ∨ parts x = .infinity .positive)
    (hy : NotNegative (parts y)) : NotNegative (parts (x - y)) := by
  have hsub : Canonical (UnpackedFloat.sub Format.binary64 (parts x) (parts y)) ∧
      NotNegative (UnpackedFloat.sub Format.binary64 (parts x) (parts y)) := by
    rcases hx with hnan | hinf
    · rw [hnan]
      exact ⟨trivial, trivial⟩
    · rw [hinf]
      cases hw : parts y with
      | infinity s =>
        rw [hw] at hy
        subst hy
        exact ⟨trivial, trivial⟩
      | notANumber => exact ⟨trivial, trivial⟩
      | _ => exact ⟨trivial, rfl⟩
  exact notNegative_ofParts hsub

/-! ## Numbers that are not below zero -/

theorem Rounds.notNegative {x : Float} {q : ℚ} (h : Rounds x q) (hq : 0 ≤ q) : NotNegative (parts x) := by
  have hnonneg := rounded_nonneg hq
  unfold Rounds at h
  split_ifs at h with hlt hneg
  · exact notNegative_of_value h hnonneg
  · exact absurd hneg (not_lt.mpr hnonneg)
  · rw [h]
    rfl

theorem notNegative_ofNat (n : ℕ) : NotNegative (parts (Float.ofNat n)) :=
  (rounds_ofNat n).notNegative (Nat.cast_nonneg n)

theorem ofNat_ne_zero {n : ℕ} (hn : n ≠ 0) (s : Sign) : parts (Float.ofNat n) ≠ .zero s := by
  intro hzero
  have h := rounds_ofNat n
  have hone : (1 : ℚ) ≤ rounded n := by
    have hrep := @representable_two_zpow 0 (by norm_num)
    rw [zpow_zero] at hrep
    exact le_rounded hrep (by exact_mod_cast Nat.one_le_iff_ne_zero.mpr hn)
  unfold Rounds value? at h
  rw [hzero] at h
  split_ifs at h
  have heq : (0 : ℚ) = rounded n := Option.some.inj h
  linarith

end LatencyReport.Binary64

namespace LatencyReport

open Binary64

/-- A number that can be the length of a time: finite and not below zero. -/
def IsDuration (x : Float) : Prop :=
  x.isFinite = true ∧ 0 ≤ x

theorem isDuration_iff {x : Float} : IsDuration x ↔ ∃ v, value? x = some v ∧ 0 ≤ v := by
  unfold IsDuration
  rw [isFinite_iff]
  constructor
  · rintro ⟨⟨v, hv⟩, hle⟩
    exact ⟨v, hv, (le_iff value?_zero hv).mp hle⟩
  · rintro ⟨v, hv, hle⟩
    exact ⟨⟨v, hv⟩, (le_iff value?_zero hv).mpr hle⟩

theorem IsDuration.notNegative {x : Float} (h : IsDuration x) : NotNegative (parts x) := by
  obtain ⟨v, hv, hle⟩ := isDuration_iff.mp h
  exact notNegative_of_value hv hle

end LatencyReport
