import LatencyReport.Partition
import Mathlib.Data.List.FinRange

/-!
# `Proofs.Partition.Order` — sorting by size, and the two sides of a threshold

Sorting by size is stable, and a sorted list is decided by **its elements of each size** (`eq_of_sortedBySize`). So
whatever keeps the elements of each size keeps the sorted list: leaving elements out before sorting is leaving them
out after it (`filter_bySize`), and what is on either side of a threshold, sorted for itself, makes up the whole
(`bySize_eq_append`). Where the elements of each size stand in an order of their own, the sorted list is in the order
of sizes and then in that one; so sorting is a permutation of positions (`exists_positions_bySize`).

## Contents

* `SortedBySize`, `bySize` — sorted lists, and sorting; `ofSize_bySize` — sorting is stable;
* `eq_of_sortedBySize` — what decides a sorted list;
* `filter_bySize`, `bySize_eq_append` — leaving elements out, and the two sides of a threshold;
* `bySize_map`, `exists_positions_bySize` — sorting as a permutation of positions;
* `rows_partition_eq_append` — the rows of a threshold's two sides; `partition_covers_in_order` — the rows of all ranges.
-/

namespace LatencyReport

variable {α : Type}

/-! ## Sorted lists -/

section
variable (size : α → UInt64)

/-- A list in which no size is less than one before it. -/
def SortedBySize (xs : List α) : Prop :=
  xs.Pairwise (size · ≤ size ·)

/-- The list in the order of sizes. -/
def bySize (xs : List α) : List α :=
  xs.mergeSort fun a b => size a ≤ size b

/-- The elements of one size. -/
def ofSize (n : UInt64) (xs : List α) : List α :=
  xs.filter fun x => size x == n

end

section
variable {size : α → UInt64}

theorem mem_ofSize {n : UInt64} {xs : List α} {x : α} : x ∈ ofSize size n xs ↔ x ∈ xs ∧ size x = n := by
  rw [ofSize, List.mem_filter, beq_iff_eq]

theorem ofSize_cons_of_eq {n : UInt64} {x : α} (h : size x = n) (xs : List α) :
    ofSize size n (x :: xs) = x :: ofSize size n xs :=
  List.filter_cons_of_pos (beq_iff_eq.mpr h)

theorem ofSize_cons_of_ne {n : UInt64} {x : α} (h : size x ≠ n) (xs : List α) :
    ofSize size n (x :: xs) = ofSize size n xs :=
  List.filter_cons_of_neg (by simpa using h)

theorem perm_bySize (xs : List α) : (bySize size xs).Perm xs :=
  List.mergeSort_perm xs _

section
variable (size)

theorem le_trans_size (a b c : α) (hab : decide (size a ≤ size b) = true) (hbc : decide (size b ≤ size c) = true) :
    decide (size a ≤ size c) = true := by
  rw [decide_eq_true_eq] at hab hbc ⊢
  exact UInt64.le_trans hab hbc

theorem le_total_size (a b : α) : (decide (size a ≤ size b) || decide (size b ≤ size a)) = true := by
  rw [Bool.or_eq_true, decide_eq_true_eq, decide_eq_true_eq]
  exact UInt64.le_total (size a) (size b)

/-- Sorting sorts. -/
theorem sorted_bySize (xs : List α) : SortedBySize size (bySize size xs) := by
  have hsorted := List.pairwise_mergeSort (le_trans_size size) (le_total_size size) xs
  exact hsorted.imp fun hle => of_decide_eq_true hle

/-- **Sorting is stable**: the elements of one size keep their order. -/
theorem ofSize_bySize (n : UInt64) (xs : List α) : ofSize size n (bySize size xs) = ofSize size n xs := by
  have hpairwise : (ofSize size n xs).Pairwise fun a b => decide (size a ≤ size b) = true := by
    refine List.pairwise_of_forall_mem_list fun a ha b hb => ?_
    rw [(mem_ofSize.mp ha).2, (mem_ofSize.mp hb).2]
    exact decide_eq_true (UInt64.le_refl n)
  -- the elements of one size are sorted already, so sorting all elements keeps them as a sublist
  have hsub : (ofSize size n xs).Sublist (bySize size xs) :=
    List.sublist_mergeSort (le_trans_size size) (le_total_size size) hpairwise List.filter_sublist
  have hself : ofSize size n (ofSize size n xs) = ofSize size n xs :=
    List.filter_eq_self.mpr fun x hx => beq_iff_eq.mpr (mem_ofSize.mp hx).2
  have hkept : (ofSize size n xs).Sublist (ofSize size n (bySize size xs)) := hself ▸ hsub.filter _
  exact (hkept.eq_of_length ((perm_bySize xs).filter _).length_eq.symm).symm

end

/-- The first element of a sorted list is one of the least. -/
theorem SortedBySize.head_le {x y : α} {xs : List α} (h : SortedBySize size (x :: xs)) (hy : y ∈ x :: xs) :
    size x ≤ size y := by
  rcases List.mem_cons.mp hy with rfl | hy
  · exact UInt64.le_refl _
  · exact (List.pairwise_cons.mp h).1 y hy

theorem mem_of_ofSize_eq {xs ys : List α} (h : ∀ n, ofSize size n xs = ofSize size n ys) {x : α} (hx : x ∈ xs) :
    x ∈ ys := by
  have hmem : x ∈ ofSize size (size x) ys := by
    rw [← h]
    exact mem_ofSize.mpr ⟨hx, rfl⟩
  exact (mem_ofSize.mp hmem).1

/-- **A sorted list is decided by its elements of each size.** -/
theorem eq_of_sortedBySize {xs ys : List α} (hx : SortedBySize size xs) (hy : SortedBySize size ys)
    (h : ∀ n, ofSize size n xs = ofSize size n ys) : xs = ys := by
  induction xs generalizing ys with
  | nil =>
    refine (List.eq_nil_iff_forall_not_mem.mpr fun y hmem => ?_).symm
    exact List.not_mem_nil (mem_of_ofSize_eq (fun n => (h n).symm) hmem)
  | cons x xs ih =>
    cases ys with
    | nil => exact absurd (mem_of_ofSize_eq h List.mem_cons_self) List.not_mem_nil
    | cons y ys =>
      -- each head is among the least of the other list, so they have one size, and lead its elements
      have hxy : size x ≤ size y := hx.head_le (mem_of_ofSize_eq (fun n => (h n).symm) List.mem_cons_self)
      have hyx : size y ≤ size x := hy.head_le (mem_of_ofSize_eq h List.mem_cons_self)
      have hsize : size x = size y := UInt64.le_antisymm hxy hyx
      have hhead := h (size x)
      rw [ofSize_cons_of_eq rfl, ofSize_cons_of_eq hsize.symm, List.cons.injEq] at hhead
      obtain ⟨rfl, _⟩ := hhead
      have htail : ∀ n, ofSize size n xs = ofSize size n ys := by
        intro n
        have hn := h n
        by_cases hxn : size x = n
        · rw [ofSize_cons_of_eq hxn, ofSize_cons_of_eq hxn] at hn
          exact (List.cons.inj hn).2
        · rwa [ofSize_cons_of_ne hxn, ofSize_cons_of_ne hxn] at hn
      rw [ih (List.pairwise_cons.mp hx).2 (List.pairwise_cons.mp hy).2 htail]

/-! ## Leaving elements out -/

theorem ofSize_append (n : UInt64) (xs ys : List α) :
    ofSize size n (xs ++ ys) = ofSize size n xs ++ ofSize size n ys :=
  List.filter_append ..

theorem ofSize_filter (n : UInt64) (p : α → Bool) (xs : List α) :
    ofSize size n (xs.filter p) = (ofSize size n xs).filter p := by
  unfold ofSize
  rw [List.filter_filter, List.filter_filter]
  exact List.filter_congr fun x _ => Bool.and_comm _ _

/-- **Leaving elements out before sorting is leaving them out after it.** -/
theorem filter_bySize (p : α → Bool) (xs : List α) : (bySize size xs).filter p = bySize size (xs.filter p) := by
  refine eq_of_sortedBySize ((sorted_bySize size xs).filter _) (sorted_bySize size _) fun n => ?_
  rw [ofSize_filter, ofSize_bySize, ofSize_bySize, ofSize_filter]

/-- A sorted list is what is up to a threshold and then what is above it. -/
theorem SortedBySize.eq_append {xs : List α} (h : SortedBySize size xs) (threshold : UInt64) :
    xs = (xs.filter fun x => decide (size x ≤ threshold)) ++ xs.filter fun x => decide (threshold < size x) := by
  have hsorted : SortedBySize size
      ((xs.filter fun x => decide (size x ≤ threshold)) ++ xs.filter fun x => decide (threshold < size x)) := by
    refine List.pairwise_append.mpr ⟨h.filter _, h.filter _, fun x hx y hy => ?_⟩
    have hle : size x ≤ threshold := of_decide_eq_true (List.mem_filter.mp hx).2
    have hlt : threshold < size y := of_decide_eq_true (List.mem_filter.mp hy).2
    exact UInt64.le_trans hle (UInt64.le_of_lt hlt)
  refine eq_of_sortedBySize h hsorted fun n => ?_
  rw [ofSize_append, ofSize_filter, ofSize_filter]
  have hside : ∀ x ∈ ofSize size n xs, size x = n := fun x hx => (mem_ofSize.mp hx).2
  -- all elements of one size are on one side
  by_cases hn : n ≤ threshold
  · rw [List.filter_eq_self.mpr, List.filter_eq_nil_iff.mpr, List.append_nil]
    · intro x hx
      rw [hside x hx, decide_eq_true_eq, UInt64.not_lt]
      exact hn
    · intro x hx
      rw [hside x hx]
      exact decide_eq_true hn
  · rw [List.filter_eq_nil_iff.mpr, List.filter_eq_self.mpr, List.nil_append]
    · intro x hx
      rw [hside x hx]
      exact decide_eq_true (UInt64.not_le.mp hn)
    · intro x hx
      rw [hside x hx, decide_eq_true_eq]
      exact hn

/-- **The two sides of a threshold**, each sorted for itself and one after the other, are the whole. -/
theorem bySize_eq_append (threshold : UInt64) (xs : List α) :
    bySize size xs =
      bySize size (xs.filter fun x => decide (size x ≤ threshold)) ++
        bySize size (xs.filter fun x => decide (threshold < size x)) := by
  rw [← filter_bySize, ← filter_bySize]
  exact (sorted_bySize size xs).eq_append threshold

/-! ## Positions -/

/-- **A sorted list whose elements of each size are in an order** is in the order of sizes and then in that one. -/
theorem SortedBySize.pairwise_of_ofSize {r : α → α → Prop} {xs : List α} (h : SortedBySize size xs)
    (hties : ∀ n, (ofSize size n xs).Pairwise r) :
    xs.Pairwise fun x y => size x < size y ∨ size x = size y ∧ r x y := by
  induction xs with
  | nil => exact .nil
  | cons x xs ih =>
    obtain ⟨hleast, hsorted⟩ := List.pairwise_cons.mp h
    refine List.pairwise_cons.mpr ⟨fun y hy => ?_, ih hsorted fun n => ?_⟩
    · rcases UInt64.lt_or_eq_of_le (hleast y hy) with hlt | heq
      · exact Or.inl hlt
      · -- the elements of the size of `x` are `x` and then those of the rest, `y` among them
        have hfirst := hties (size x)
        rw [ofSize_cons_of_eq rfl] at hfirst
        exact Or.inr ⟨heq, (List.pairwise_cons.mp hfirst).1 y (mem_ofSize.mpr ⟨hy, heq.symm⟩)⟩
    · exact (hties n).sublist ((List.sublist_cons_self x xs).filter _)

/-- Sorting what elements are mapped to is mapping the sorted elements. -/
theorem bySize_map {β : Type} (f : β → α) (xs : List β) :
    bySize size (xs.map f) = (bySize (fun x => size (f x)) xs).map f := by
  have hsize : ∀ n (ys : List β), ofSize size n (ys.map f) = (ofSize (fun x => size (f x)) n ys).map f :=
    fun n ys => List.filter_map
  refine eq_of_sortedBySize (sorted_bySize size _) ?_ fun n => ?_
  · exact List.pairwise_map.mpr (sorted_bySize (fun x => size (f x)) xs)
  · rw [ofSize_bySize, hsize, hsize, ofSize_bySize]

/-- **Sorting is a permutation of positions**: every position occurs once, the least size first, and of one size the
    first position. -/
theorem exists_positions_bySize (size : α → UInt64) (xs : List α) :
    ∃ positions : List (Fin xs.length), positions.Perm (List.finRange xs.length) ∧
      bySize size xs = positions.map xs.get ∧
      positions.Pairwise fun i j => size xs[i] < size xs[j] ∨ size xs[i] = size xs[j] ∧ i < j := by
  refine ⟨bySize (fun i => size xs[i]) (List.finRange xs.length), perm_bySize _, ?_, ?_⟩
  · have hmap := @bySize_map α size _ xs.get (List.finRange xs.length)
    rwa [List.map_get_finRange] at hmap
  · refine (sorted_bySize _ _).pairwise_of_ofSize fun n => ?_
    rw [ofSize_bySize]
    exact (List.pairwise_lt_finRange xs.length).sublist List.filter_sublist

end

/-! ## The rows of a partition -/

/-- The message size of a row. -/
def Row.size (row : Row) : UInt64 :=
  row.experiment.messageSize

/-- The rows of a range are the rows in the order of their sizes, without those of other ranges. -/
theorem rows_partition (d : Dataset) (range : Range) :
    (d.partition range).rows = bySize Row.size (d.rows.filter fun row => range.contains row.size) := rfl

/-- The rows of all sizes. -/
theorem rows_partition_all (d : Dataset) : (d.partition .all).rows = bySize Row.size d.rows := by
  rw [rows_partition]
  exact congrArg (bySize Row.size) (List.filter_eq_self.mpr fun _ _ => rfl)

/-- **The rows of all sizes** are those up to a threshold and then those above it. -/
theorem rows_partition_eq_append (d : Dataset) (threshold : UInt64) :
    (d.partition .all).rows = (d.partition (.atMost threshold)).rows ++ (d.partition (.above threshold)).rows := by
  rw [rows_partition_all]
  exact bySize_eq_append threshold d.rows

/-- **The rows of all ranges are told by those of all sizes.** For every dataset: the rows of a range are the rows of all
    sizes without those of other ranges, and the two sides of a threshold, one after the other, are the rows of all sizes.
    These are the rows of the dataset, each position once, in the order of their sizes, and rows of one size in the order
    of the dataset. -/
theorem partition_covers_in_order (d : Dataset) :
    (∀ range, (d.partition range).rows = (d.partition .all).rows.filter fun row => range.contains row.size) ∧
    (∀ threshold, (d.split threshold).1.rows ++ (d.split threshold).2.rows = (d.partition .all).rows) ∧
    ∃ positions : List (Fin d.rows.length), positions.Perm (List.finRange d.rows.length) ∧
      (d.partition .all).rows = positions.map d.rows.get ∧
      positions.Pairwise fun i j => d.rows[i].size < d.rows[j].size ∨ d.rows[i].size = d.rows[j].size ∧ i < j := by
  refine ⟨fun range => ?_, fun threshold => (rows_partition_eq_append d threshold).symm, ?_⟩
  · rw [rows_partition_all, filter_bySize, rows_partition]
  · rw [rows_partition_all]
    exact exists_positions_bySize Row.size d.rows

end LatencyReport
