import LatencyReport.Config.Reader
import LatencyReport.Proofs.Size.Reading
import Mathlib.Data.List.Forall2

/-!
# `Proofs.Config.Threshold` — no threshold is zero

A size in a configuration is a number or a text with a unit, and **zero is refused in either form**: a number is asked
whether it is zero, and so is the number in a text, and a product that fits is zero only if one of its factors is. So a
comparison that was read has a threshold that is a size, or none at all, and a configuration has no other comparisons.

A record is filled field by field; what no field spoils holds of the record in the end (`fillFields_keeps`).

## Contents

* `map_eq_ok_iff`, `bind_eq_ok_iff`, `mapM_eq_ok_iff` — when reading succeeds;
* `fillFields_keeps` — what all fields keep;
* `parse_ne_zero`, `size_ne_zero` — sizes;
* `Config.HasSizes`, `Config.hasSizes_of_read` — configurations.
-/

namespace LatencyReport

/-! ## Results that are no refusals -/

section
variable {ε α β : Type}

theorem map_eq_ok_iff {x : Except ε α} {f : α → β} {b : β} : x.map f = .ok b ↔ ∃ a, x = .ok a ∧ f a = b := by
  cases x <;> simp [Except.map]

theorem bind_eq_ok_iff {x : Except ε α} {f : α → Except ε β} {b : β} :
    (x >>= f) = .ok b ↔ ∃ a, x = .ok a ∧ f a = .ok b := by
  cases x <;> simp [bind, Except.bind]

/-- **A list is read item by item.** -/
theorem mapM_eq_ok_iff {read : α → Except ε β} {xs : List α} {ys : List β} :
    xs.mapM read = .ok ys ↔ List.Forall₂ (fun x y => read x = .ok y) xs ys := by
  induction xs generalizing ys with
  | nil =>
    rw [List.forall₂_nil_left_iff]
    exact ⟨fun h => (Except.ok.inj h).symm, fun h => congrArg Except.ok h.symm⟩
  | cons x rest ih =>
    rw [List.mapM_cons, bind_eq_ok_iff]
    constructor
    · rintro ⟨y, hy, h⟩
      obtain ⟨others, hothers, h⟩ := bind_eq_ok_iff.mp h
      obtain rfl := Except.ok.inj h
      exact .cons hy (ih.mp hothers)
    · intro h
      obtain ⟨y, others, hy, hothers, rfl⟩ := List.forall₂_cons_left_iff.mp h
      exact ⟨y, hy, bind_eq_ok_iff.mpr ⟨others, ih.mpr hothers, rfl⟩⟩

/-- What is known of every item that is read is known of all of them. -/
theorem forall_mem_of_mapM {read : α → Except ε β} {P : β → Prop} (hread : ∀ x y, read x = .ok y → P y) {xs : List α}
    {ys : List β} (h : xs.mapM read = .ok ys) : ∀ y ∈ ys, P y := by
  rw [mapM_eq_ok_iff] at h
  induction h with
  | nil => exact fun y hy => absurd hy List.not_mem_nil
  | cons hfirst _ ih => exact List.forall_mem_cons.mpr ⟨hread _ _ hfirst, ih⟩

end

/-- **What every field keeps, a record keeps.** -/
theorem fillFields_keeps {α : Type} {put : α → Nat → Document → Except DocumentFault α} {P : α → Prop}
    (hput : ∀ held i d next, P held → put held i d = .ok next → P next) {held : α} (hheld : P held)
    {written : List (Nat × Document)} {filled : α} (h : fillFields put held written = .ok filled) : P filled := by
  induction written generalizing held with
  | nil =>
    obtain rfl := Except.ok.inj h
    exact hheld
  | cons field rest ih =>
    obtain ⟨i, d⟩ := field
    rw [fillFields] at h
    cases hnext : put held i d with
    | error e =>
      rw [hnext] at h
      cases h
    | ok next =>
      rw [hnext] at h
      exact ih (hput held i d next hheld hnext) h

/-! ## Sizes -/

/-- **No text says that a size is zero.** -/
theorem parse_ne_zero {text : String} {n : UInt64} (h : Size.parse text = .ok n) : n ≠ 0 := by
  obtain ⟨digits, unit, factor, hcut⟩ := Size.exists_isCut (Text.trim text.toList)
  obtain ⟨count, _, hcount, _, hproduct⟩ := (Size.parse_eq_ok_iff hcut).mp h
  -- the product is that of two numbers, and neither is zero
  rintro rfl
  exact absurd hproduct.symm (Nat.ne_of_gt (Nat.mul_pos hcount hcut.unitOf.pos))

/-- **Zero is read as no size**, whether it is written as a number or as a text. -/
theorem size_ne_zero {d : Document} {n : UInt64} (h : d.size = .ok n) : n ≠ 0 := by
  unfold Document.size at h
  split at h
  · split at h
    · split at h
      · cases h
      · rename_i hzero
        split at h
        · rename_i hfits
          obtain rfl := Except.ok.inj h
          rw [ne_eq, ← UInt64.toNat_inj, Nat.toUInt64, UInt64.toNat_ofNat_of_lt' hfits, UInt64.toNat_zero]
          exact hzero
        · cases h
    · rename_i text _ _
      cases hparse : Size.parse text with
      | error fault =>
        rw [hparse] at h
        cases h
      | ok size =>
        rw [hparse] at h
        obtain rfl := Except.ok.inj h
        exact parse_ne_zero hparse
    · cases h
  · cases h

theorem option_size_ne_zero {d : Document} {threshold : Option UInt64} (h : d.option Document.size = .ok threshold) :
    threshold ≠ some 0 := by
  have hsome : d.size.map some = .ok threshold → threshold ≠ some 0 := by
    intro hmap
    obtain ⟨n, hn, rfl⟩ := map_eq_ok_iff.mp hmap
    rw [ne_eq, Option.some.injEq]
    exact size_ne_zero hn
  unfold Document.option at h
  split at h
  · split at h
    · obtain rfl := Except.ok.inj h
      simp
    · exact hsome h
  · exact hsome h

/-! ## Configurations -/

namespace Comparison

/-- No threshold is zero. -/
theorem put_threshold_ne_zero {dialect : Dialect} {f next : Fields} {i : Nat} {d : Document}
    (hf : f.threshold ≠ some (some 0)) (h : f.put dialect i d = .ok next) : next.threshold ≠ some (some 0) := by
  unfold Fields.put at h
  split at h
  case h_4 =>
    obtain ⟨threshold, hthreshold, rfl⟩ := map_eq_ok_iff.mp h
    rw [ne_eq, Option.some.injEq]
    exact option_size_ne_zero hthreshold
  case h_6 => cases h
  -- the other fields leave the threshold as it is
  all_goals
    obtain ⟨_, _, rfl⟩ := map_eq_ok_iff.mp h
    exact hf

theorem threshold_ne_zero_of_read {dialect : Dialect} {d : Document} {c : Comparison}
    (h : Comparison.read dialect d = .ok c) : c.threshold ≠ some 0 := by
  obtain ⟨written, _, h⟩ := bind_eq_ok_iff.mp h
  obtain ⟨f, hfill, h⟩ := bind_eq_ok_iff.mp h
  have hf : f.threshold ≠ some (some 0) :=
    fillFields_keeps (P := fun f => f.threshold ≠ some (some 0)) (fun _ _ _ _ => put_threshold_ne_zero) (by simp) hfill
  obtain ⟨name, _, h⟩ := bind_eq_ok_iff.mp h
  obtain ⟨title, _, h⟩ := bind_eq_ok_iff.mp h
  obtain ⟨selections, _, h⟩ := bind_eq_ok_iff.mp h
  obtain rfl := Except.ok.inj h
  show f.threshold.getD none ≠ some 0
  cases hthreshold : f.threshold with
  | none => simp
  | some threshold =>
    rw [hthreshold] at hf
    simpa using hf

theorem threshold_ne_zero_of_readTagged {d : Document} {c : Comparison} (h : readTagged d = .ok c) :
    c.threshold ≠ some 0 := by
  unfold readTagged at h
  split at h
  · obtain ⟨⟨said, others⟩, _, h⟩ := bind_eq_ok_iff.mp h
    simp only at h
    split at h
    · exact threshold_ne_zero_of_read h
    · cases h
  · cases h

end Comparison

namespace Config

/-- A configuration whose thresholds are sizes. -/
def HasSizes (c : Config) : Prop :=
  ∀ plot ∈ c.plots, plot.threshold ≠ some 0

theorem put_plots {dialect : Dialect} {f next : Fields} {i : Nat} {d : Document}
    (hf : ∀ plots, f.plots = some plots → ∀ plot ∈ plots, plot.threshold ≠ some 0) (h : f.put dialect i d = .ok next) :
    ∀ plots, next.plots = some plots → ∀ plot ∈ plots, plot.threshold ≠ some 0 := by
  unfold Fields.put at h
  split at h
  case h_3 =>
    obtain ⟨plots, hplots, rfl⟩ := map_eq_ok_iff.mp h
    intro others hothers
    obtain rfl := Option.some.inj hothers
    unfold Document.listOf at hplots
    split at hplots
    · cases hplots
    · exact forall_mem_of_mapM (fun _ _ => Comparison.threshold_ne_zero_of_readTagged) hplots
  case h_4 => cases h
  all_goals
    obtain ⟨_, _, rfl⟩ := map_eq_ok_iff.mp h
    exact hf

/-- **Every threshold of a configuration that was read is a size.** -/
theorem hasSizes_of_read {dialect : Dialect} {d : Document} {c : Config} (h : Config.read dialect d = .ok c) :
    c.HasSizes := by
  obtain ⟨written, _, h⟩ := bind_eq_ok_iff.mp h
  obtain ⟨f, hfill, h⟩ := bind_eq_ok_iff.mp h
  have hf := fillFields_keeps
    (P := fun f : Fields => ∀ plots, f.plots = some plots → ∀ plot ∈ plots, plot.threshold ≠ some 0)
    (fun _ _ _ _ => put_plots) (fun _ h => by cases h) hfill
  obtain ⟨name, _, h⟩ := bind_eq_ok_iff.mp h
  obtain ⟨plots, hplots, h⟩ := bind_eq_ok_iff.mp h
  obtain rfl := Except.ok.inj h
  unfold needed at hplots
  split at hplots
  · rename_i held hheld
    obtain rfl := Except.ok.inj hplots
    exact hf _ hheld
  · cases hplots

end Config

end LatencyReport
