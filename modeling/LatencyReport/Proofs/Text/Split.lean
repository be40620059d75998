import LatencyReport.Text.Split
import Mathlib.Data.List.DropRight
import Mathlib.Data.List.TakeWhile

/-!
# `Proofs.Text.Split` — how cutting and trimming compose

What is proved of cut sequences goes from mark to mark: a sequence is either **one piece without a mark**, or a
piece, a mark and a sequence of its own. `splitInduction` is that principle; everything here that speaks of all
pieces is an instance of it.

## Contents

* `splitInduction` — induction from mark to mark;
* `splitWith_or` — cutting at two kinds of marks is cutting at one of them first, then the pieces at the other;
* `length_splitWith`, `eq_of_splitWith_eq_append_cons` — how many pieces there are, and the sequence from them;
* `splitWith_intercalate` — pieces that were joined; `exists_splitWith_append` — the last piece, with more at its end;
  `eq_of_append_mark_eq` — the last mark;
* `forall_mem_iff_forall_splitWith`, `not_of_countP_le` — what holds of all pieces, or of all but one;
* `flatMap_splitWith` — a function that ignores marks may be applied piece by piece;
* `exists_trimWith`, `trimWith_append_marks`, `trimWith_eq_nil_iff` — what trimming takes away, and what it leaves;
* `trimWith_of_forall_not`, `trimWith_eq_self_of_imp` — when it takes nothing away.
-/

namespace LatencyReport.Text

variable {α : Type}

/-! ## Induction from mark to mark -/

/-- A sequence has no mark, or there is a first one. -/
theorem forall_not_or_exists_mark (isMark : α → Bool) (xs : List α) :
    (∀ x ∈ xs, isMark x = false) ∨
      ∃ piece c rest, xs = piece ++ c :: rest ∧ (∀ x ∈ piece, isMark x = false) ∧ isMark c = true := by
  induction xs with
  | nil => exact Or.inl (by simp)
  | cons x rest ih =>
    by_cases hx : isMark x = true
    · exact Or.inr ⟨[], x, rest, rfl, by simp, hx⟩
    · have hx' : isMark x = false := by simpa using hx
      rcases ih with h | ⟨piece, c, tail, rfl, hp, hc⟩
      · exact Or.inl (by simpa [hx'] using h)
      · exact Or.inr ⟨x :: piece, c, tail, rfl, by simpa [hx'] using hp, hc⟩

/-- **Induction from mark to mark**: a property of all sequences without a mark that passes from what follows a
    mark to the whole holds of every sequence. -/
@[elab_as_elim]
theorem splitInduction (isMark : α → Bool) {motive : List α → Prop}
    (last : ∀ piece, (∀ x ∈ piece, isMark x = false) → motive piece)
    (mark : ∀ piece c rest, (∀ x ∈ piece, isMark x = false) → isMark c = true → motive rest →
      motive (piece ++ c :: rest))
    (xs : List α) : motive xs := by
  rcases forall_not_or_exists_mark isMark xs with h | ⟨piece, c, rest, hxs, hp, hc⟩
  · exact last xs h
  · rw [hxs]
    exact mark piece c rest hp hc (splitInduction isMark last mark rest)
termination_by xs.length
decreasing_by
  rw [hxs]
  simp only [List.length_append, List.length_cons]
  omega

/-- The first piece ends at the first mark. -/
theorem splitWith_piece_mark {isMark : α → Bool} {piece : List α} {c : α} (hp : ∀ x ∈ piece, isMark x = false)
    (hc : isMark c = true) (rest : List α) :
    splitWith isMark (piece ++ c :: rest) = piece :: splitWith isMark rest := by
  rw [splitWith_append_mark hc, splitWith_of_forall_not hp, List.singleton_append]

/-- Elements that are no marks come to the front of the first piece. -/
theorem splitWith_append_of_forall_not {isMark : α → Bool} {front rest first : List α} {others : List (List α)}
    (hf : ∀ x ∈ front, isMark x = false) (hr : splitWith isMark rest = first :: others) :
    splitWith isMark (front ++ rest) = (front ++ first) :: others := by
  induction front with
  | nil => exact hr
  | cons x front ih =>
    have hrest := ih fun y hy => hf y (List.mem_cons_of_mem _ hy)
    rw [List.cons_append, splitWith, hf x List.mem_cons_self, hrest]
    rfl

/-- What has no mark and is put at the end comes to the last piece. -/
theorem exists_splitWith_append (isMark : α → Bool) (front : List α) :
    ∃ above stem, ∀ tail, (∀ x ∈ tail, isMark x = false) →
      splitWith isMark (front ++ tail) = above ++ [stem ++ tail] := by
  induction front using splitInduction isMark with
  | last piece hpiece =>
    refine ⟨[], piece, fun tail htail => splitWith_of_forall_not fun x hx => ?_⟩
    exact (List.mem_append.mp hx).elim (hpiece x) (htail x)
  | mark piece c rest hpiece hc ih =>
    obtain ⟨above, stem, hrest⟩ := ih
    refine ⟨piece :: above, stem, fun tail htail => ?_⟩
    rw [List.append_assoc, List.cons_append, splitWith_piece_mark hpiece hc, hrest tail htail, List.cons_append]

/-- **A sequence is cut in one way at its last mark.** -/
theorem eq_of_append_mark_eq {c : α} {front back front' back' : List α}
    (h : front ++ c :: back = front' ++ c :: back') (hback : c ∉ back) (hback' : c ∉ back') :
    front = front' ∧ back = back' := by
  -- if one front were longer, the mark behind it would stand in the other back
  rcases List.append_eq_append_iff.mp h with ⟨between, hfront, hrest⟩ | ⟨between, hfront, hrest⟩
  · cases between with
    | nil => exact ⟨by simpa using hfront.symm, (List.cons.inj hrest).2⟩
    | cons d more =>
      rw [(List.cons.inj hrest).2] at hback
      exact absurd (by simp) hback
  · cases between with
    | nil => exact ⟨by simpa using hfront, (List.cons.inj hrest).2.symm⟩
    | cons d more =>
      rw [(List.cons.inj hrest).2] at hback'
      exact absurd (by simp) hback'

/-- **Cutting at either of two marks** is cutting at the one and then every piece at the other. -/
theorem splitWith_or (p q : α → Bool) (xs : List α) :
    splitWith (fun x => p x || q x) xs = (splitWith p xs).flatMap (splitWith q) := by
  have hneither : ∀ {piece : List α}, (∀ x ∈ piece, (p x || q x) = false) →
      (∀ x ∈ piece, p x = false) ∧ ∀ x ∈ piece, q x = false := by
    intro piece h
    simp only [Bool.or_eq_false_iff] at h
    exact ⟨fun x hx => (h x hx).1, fun x hx => (h x hx).2⟩
  induction xs using splitInduction (fun x => p x || q x) with
  | last piece h =>
    obtain ⟨hp, hq⟩ := hneither h
    rw [splitWith_of_forall_not h, splitWith_of_forall_not hp, List.flatMap_singleton, splitWith_of_forall_not hq]
  | mark piece c rest h hc ih =>
    obtain ⟨hp, hq⟩ := hneither h
    rw [splitWith_piece_mark h hc, ih]
    by_cases hpc : p c = true
    · rw [splitWith_piece_mark hp hpc, List.flatMap_cons, splitWith_of_forall_not hq, List.singleton_append]
    · -- `c` is no mark of the first kind, so it lies inside the first of the coarser pieces
      have hqc : q c = true := by simpa [hpc] using hc
      obtain ⟨first, others, hr⟩ := List.exists_cons_of_ne_nil (splitWith_ne_nil p rest)
      have hfront : ∀ x ∈ piece ++ [c], p x = false := by
        rw [List.forall_mem_append, List.forall_mem_singleton]
        exact ⟨hp, by simpa using hpc⟩
      have hfirst := splitWith_append_of_forall_not hfront hr
      rw [List.append_assoc, List.append_assoc, List.singleton_append, List.singleton_append] at hfirst
      rw [hfirst, hr, List.flatMap_cons, List.flatMap_cons, splitWith_piece_mark hq hqc, List.cons_append]

/-- **A function that ignores marks may be applied piece by piece.** -/
theorem flatMap_splitWith {β : Type} {isMark : α → Bool} {f : List α → List β}
    (h : ∀ xs c ys, isMark c = true → f (xs ++ c :: ys) = f xs ++ f ys) (xs : List α) :
    (splitWith isMark xs).flatMap f = f xs := by
  induction xs using splitInduction isMark with
  | last piece hp => simp [splitWith_of_forall_not hp]
  | mark piece c rest hp hc ih => rw [splitWith_piece_mark hp hc, List.flatMap_cons, ih, h _ _ _ hc]

/-- There is one piece more than there are marks. -/
theorem length_splitWith [BEq α] (c : α) (xs : List α) : (splitWith (· == c) xs).length = xs.count c + 1 := by
  induction xs using splitInduction (· == c) with
  | last piece hp =>
    have hnone : piece.count c = 0 := List.countP_eq_zero.mpr fun x hx => by simp [hp x hx]
    rw [splitWith_of_forall_not hp, hnone, List.length_singleton]
  | mark piece d rest hp hd ih =>
    have hnone : piece.count c = 0 := List.countP_eq_zero.mpr fun x hx => by simp [hp x hx]
    rw [splitWith_piece_mark hp hd, List.length_cons, ih, List.count_append, hnone, List.count_cons, if_pos hd]
    omega

/-- **A sequence is its pieces** with the mark between any two of them. -/
theorem eq_of_splitWith_eq_append_cons [BEq α] [LawfulBEq α] {c : α} {xs piece : List α} {left right : List (List α)}
    (h : splitWith (· == c) xs = left ++ piece :: right) :
    xs = left.flatMap (· ++ [c]) ++ piece ++ right.flatMap (c :: ·) := by
  induction xs using splitInduction (· == c) generalizing left piece right with
  | last only hp =>
    rw [splitWith_of_forall_not hp] at h
    cases left with
    | nil =>
      obtain ⟨rfl, rfl⟩ := List.cons.inj h
      simp
    | cons first left => simp at h
  | mark first d rest hp hd ih =>
    rw [splitWith_piece_mark hp hd] at h
    rw [beq_iff_eq] at hd
    -- the piece is the first one, or one of those behind the first mark
    cases left with
    | nil =>
      obtain ⟨rfl, hrest⟩ := List.cons.inj h
      obtain ⟨second, others, hothers⟩ := List.exists_cons_of_ne_nil (splitWith_ne_nil (· == c) rest)
      have hjoin := @ih second [] others (by rw [hothers, List.nil_append])
      rw [← hrest, hothers, List.flatMap_cons, hd]
      simpa using hjoin
    | cons other left =>
      rw [List.cons_append, List.cons.injEq] at h
      rw [ih h.2, h.1, List.flatMap_cons, hd]
      simp

/-- **Cutting undoes joining**: pieces without a mark that are joined by it are the pieces between the marks. -/
theorem splitWith_intercalate [BEq α] [LawfulBEq α] {c : α} {pieces : List (List α)} (hne : pieces ≠ [])
    (h : ∀ piece ∈ pieces, c ∉ piece) : splitWith (· == c) ([c].intercalate pieces) = pieces := by
  have hmark : (c == c) = true := beq_self_eq_true c
  have hpiece : ∀ piece ∈ pieces, ∀ x ∈ piece, (x == c) = false := by
    intro piece hmem x hx
    rw [beq_eq_false_iff_ne]
    rintro rfl
    exact h piece hmem hx
  induction pieces with
  | nil => exact absurd rfl hne
  | cons first rest ih =>
    cases rest with
    | nil => rw [List.intercalate_singleton, splitWith_of_forall_not (hpiece first List.mem_cons_self)]
    | cons second rest =>
      have hrest := ih (by simp) (fun piece hmem => h piece (List.mem_cons_of_mem _ hmem))
        fun piece hmem => hpiece piece (List.mem_cons_of_mem _ hmem)
      rw [List.intercalate_cons_cons, List.append_assoc, List.singleton_append,
        splitWith_piece_mark (hpiece first List.mem_cons_self) hmark, hrest]

/-- A property that all marks have holds of a sequence exactly when it holds of its pieces. -/
theorem forall_mem_iff_forall_splitWith {isMark : α → Bool} {p : α → Prop} (h : ∀ x, isMark x = true → p x)
    (xs : List α) : (∀ x ∈ xs, p x) ↔ ∀ piece ∈ splitWith isMark xs, ∀ x ∈ piece, p x := by
  induction xs using splitInduction isMark with
  | last piece hp => rw [splitWith_of_forall_not hp, List.forall_mem_singleton]
  | mark piece c rest hp hc ih =>
    rw [splitWith_piece_mark hp hc, List.forall_mem_append, List.forall_mem_cons, List.forall_mem_cons, ih]
    exact and_congr_right fun _ => and_iff_right (h c hc)

/-- **A piece that has all of what is counted** leaves none of it to the other pieces. -/
theorem not_of_countP_le [BEq α] [LawfulBEq α] {c : α} {p : α → Bool} {xs piece : List α} {left right : List (List α)}
    (h : splitWith (· == c) xs = left ++ piece :: right) (hle : xs.countP p ≤ piece.countP p) :
    ∀ other ∈ left ++ right, ∀ x ∈ other, p x = false := by
  have hsum := congrArg (List.countP p) (eq_of_splitWith_eq_append_cons h)
  rw [List.countP_append, List.countP_append] at hsum
  have hleft : (left.flatMap (· ++ [c])).countP p = 0 := by omega
  have hright : (right.flatMap (c :: ·)).countP p = 0 := by omega
  rw [List.countP_eq_zero] at hleft hright
  intro other hother x hx
  rw [← Bool.not_eq_true]
  rcases List.mem_append.mp hother with hmem | hmem
  · exact hleft x (List.mem_flatMap.mpr ⟨other, hmem, List.mem_append_left _ hx⟩)
  · exact hright x (List.mem_flatMap.mpr ⟨other, hmem, List.mem_cons_of_mem _ hx⟩)

/-! ## Trimming -/

/-- Trimming drops marks in front, then marks at the end. -/
theorem trimWith_eq (isMark : α → Bool) (xs : List α) :
    trimWith isMark xs = (xs.dropWhile isMark).rdropWhile isMark := rfl

/-- Trimming takes marks away from either end, and nothing else. -/
theorem exists_trimWith (isMark : α → Bool) (xs : List α) :
    ∃ left right, xs = left ++ trimWith isMark xs ++ right ∧
      (∀ x ∈ left, isMark x = true) ∧ ∀ x ∈ right, isMark x = true := by
  refine ⟨xs.takeWhile isMark, ((xs.dropWhile isMark).reverse.takeWhile isMark).reverse, ?_, ?_, ?_⟩
  · rw [trimWith, List.append_assoc, ← List.reverse_append, List.takeWhile_append_dropWhile, List.reverse_reverse,
      List.takeWhile_append_dropWhile]
  · exact fun x hx => List.mem_takeWhile_imp hx
  · exact fun x hx => List.mem_takeWhile_imp (List.mem_reverse.mp hx)

/-- A sequence of marks is trimmed to nothing, and no other sequence is. -/
theorem trimWith_eq_nil_iff {isMark : α → Bool} {xs : List α} :
    trimWith isMark xs = [] ↔ ∀ x ∈ xs, isMark x = true := by
  constructor
  · intro h
    obtain ⟨left, right, hxs, hl, hr⟩ := exists_trimWith isMark xs
    rw [h, List.append_nil] at hxs
    rw [hxs]
    intro x hx
    rcases List.mem_append.mp hx with hx | hx
    · exact hl x hx
    · exact hr x hx
  · intro h
    have hnil : xs.dropWhile isMark = [] := List.dropWhile_eq_nil_iff.mpr h
    rw [trimWith, hnil]
    rfl

/-- **Marks at the ends do not matter to trimming.** -/
theorem trimWith_append_marks {isMark : α → Bool} {left right : List α} (hl : ∀ x ∈ left, isMark x = true)
    (hr : ∀ x ∈ right, isMark x = true) (xs : List α) :
    trimWith isMark (left ++ xs ++ right) = trimWith isMark xs := by
  rw [trimWith, List.append_assoc, List.dropWhile_append_of_pos hl]
  -- if nothing but marks is left, trimming in front takes the marks at the end as well
  by_cases hxs : ∀ x ∈ xs, isMark x = true
  · have hall : ∀ x ∈ xs ++ right, isMark x = true := by
      intro x hx
      rcases List.mem_append.mp hx with hx | hx
      · exact hxs x hx
      · exact hr x hx
    rw [List.dropWhile_eq_nil_iff.mpr hall, trimWith_eq_nil_iff.mpr hxs]
    rfl
  · rw [List.dropWhile_append, if_neg, List.reverse_append, List.dropWhile_append_of_pos, trimWith]
    · exact fun x hx => hr x (List.mem_reverse.mp hx)
    · rw [List.isEmpty_iff, List.dropWhile_eq_nil_iff]
      exact hxs

/-- A sequence without a mark is trimmed to itself. -/
theorem trimWith_of_forall_not {isMark : α → Bool} {xs : List α} (h : ∀ x ∈ xs, isMark x = false) :
    trimWith isMark xs = xs := by
  obtain ⟨left, right, hxs, hl, hr⟩ := exists_trimWith isMark xs
  have hnone : ∀ {ys : List α}, (∀ x ∈ ys, x ∈ xs) → (∀ x ∈ ys, isMark x = true) → ys = [] := by
    intro ys hmem hmark
    refine List.eq_nil_iff_forall_not_mem.mpr fun x hx => ?_
    exact absurd (hmark x hx) (by simp [h x (hmem x hx)])
  have hleft : left = [] := hnone (fun x hx => by rw [hxs]; simp [hx]) hl
  have hright : right = [] := hnone (fun x hx => by rw [hxs]; simp [hx]) hr
  rw [hleft, hright, List.nil_append, List.append_nil] at hxs
  exact hxs.symm

/-- **Who trims more leaves nothing to who trims less.** -/
theorem trimWith_eq_self_of_imp {p q : α → Bool} (h : ∀ x, q x = true → p x = true) {xs : List α}
    (hp : trimWith p xs = xs) : trimWith q xs = xs := by
  obtain ⟨left, right, hxs, hl, hr⟩ := exists_trimWith q xs
  obtain ⟨left', right', hrest, _, _⟩ := exists_trimWith p (trimWith q xs)
  have hsame : trimWith p (trimWith q xs) = xs := by
    conv_rhs => rw [← hp, hxs]
    exact (trimWith_append_marks (fun x hx => h x (hl x hx)) (fun x hx => h x (hr x hx)) _).symm
  -- what is trimmed by `q` lies between `xs` and `xs`, so it is all of `xs`
  have hlong := congrArg List.length hxs
  have hshort := congrArg List.length hrest
  rw [hsame] at hshort
  simp only [List.length_append] at hlong hshort
  have hleft : left = [] := List.length_eq_zero_iff.mp (by omega)
  have hright : right = [] := List.length_eq_zero_iff.mp (by omega)
  rw [hleft, hright, List.nil_append, List.append_nil] at hxs
  exact hxs.symm

/-- Trimming takes away none of the elements that are no marks. -/
theorem countP_trimWith {isMark p : α → Bool} (h : ∀ x, isMark x = true → p x = false) (xs : List α) :
    (trimWith isMark xs).countP p = xs.countP p := by
  obtain ⟨left, right, hxs, hl, hr⟩ := exists_trimWith isMark xs
  have hleft : left.countP p = 0 := List.countP_eq_zero.mpr fun x hx => by simp [h x (hl x hx)]
  have hright : right.countP p = 0 := List.countP_eq_zero.mpr fun x hx => by simp [h x (hr x hx)]
  conv_rhs => rw [hxs, List.countP_append, List.countP_append, hleft, hright]
  omega

end LatencyReport.Text
