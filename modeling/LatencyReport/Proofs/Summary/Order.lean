import LatencyReport.Summary
import Mathlib.Tactic.ByContra

/-!
# `Proofs.Summary.Order` — samples in ascending order

Every bit pattern has a place of its own in the total order (`orderKey_injective`), zeros with and without the sign
and patterns that are no number included. Where places differ, **a sorted list is decided by its members**, however
often they occur: so samples in another order are sorted to the same list (`ascending_eq_of_perm`), bit by bit, and
everything that is computed from it is the same. It does not matter that sums of numbers depend on the order in which
they are added, nor that the sort may exchange equal elements.

## Contents

* `orderKey_injective` — the places differ;
* `sorted_ascending`, `perm_ascending`, `ascending_eq_of_perm` — sorting;
* `ofBits?_eq_of_perm`, `ofSamples?_eq_of_perm` — summaries.
-/

namespace LatencyReport

/-- **Every bit pattern has a place of its own.** -/
theorem orderKey_injective {a b : UInt64} (h : orderKey a = orderKey b) : a = b := by
  have ha : a.toNat < 2 ^ 64 := a.toNat_lt
  have hb : b.toNat < 2 ^ 64 := b.toNat_lt
  have hsize : UInt64.size = 2 ^ 64 := rfl
  have hhalf : Nat.pow 2 63 = 2 ^ 63 := rfl
  unfold orderKey at h
  rw [hsize, hhalf] at h
  apply UInt64.toNat_inj.mp
  split at h <;> split at h <;> omega

/-- Bit patterns in ascending order are the same bit patterns. -/
theorem perm_ascending (samples : List UInt64) : (ascending samples).Perm samples :=
  List.mergeSort_perm samples _

/-- Sorting sorts. -/
theorem sorted_ascending (samples : List UInt64) : (ascending samples).Pairwise (orderKey · ≤ orderKey ·) := by
  have hsorted : (ascending samples).Pairwise fun a b => decide (orderKey a ≤ orderKey b) = true := by
    refine List.pairwise_mergeSort ?_ ?_ samples
    · intro a b c hab hbc
      rw [decide_eq_true_eq] at hab hbc ⊢
      exact Nat.le_trans hab hbc
    · intro a b
      rw [Bool.or_eq_true, decide_eq_true_eq, decide_eq_true_eq]
      exact Nat.le_total _ _
  exact hsorted.imp fun hle => of_decide_eq_true hle

/-- **Samples in another order are sorted to the same list.** -/
theorem ascending_eq_of_perm {samples others : List UInt64} (h : samples.Perm others) :
    ascending samples = ascending others := by
  have hperm : (ascending samples).Perm (ascending others) :=
    (perm_ascending samples).trans (h.trans (perm_ascending others).symm)
  refine hperm.eq_of_pairwise ?_ (sorted_ascending samples) (sorted_ascending others)
  intro a b _ _ hab hba
  exact orderKey_injective (Nat.le_antisymm hab hba)

namespace Summary

theorem ofBits?_eq_of_perm {samples others : List UInt64} (h : samples.Perm others) :
    ofBits? samples = ofBits? others := by
  rw [ofBits?, ofBits?, ascending_eq_of_perm h]

/-- **The summary does not depend on the order of the samples.** -/
theorem ofSamples?_eq_of_perm {samples others : List Float} (h : samples.Perm others) :
    ofSamples? samples = ofSamples? others := by
  rw [ofSamples?, ofSamples?]
  exact ofBits?_eq_of_perm (h.map _)

end Summary

end LatencyReport
