/-!
# `Text.Split` — cutting sequences at marks, and trimming their ends

Lines, tab-separated fields, words and path components are all one operation: a sequence is **cut at the
elements that satisfy a test**, and the marks themselves are dropped. Cutting never loses a gap, so two
marks in a row leave an empty piece between them, and a sequence without a mark is one piece.

## Contents

* `splitWith` — the pieces between the marks, at least one of them;
* `trimWith` — the sequence without the marks at either end;
* `splitWith_append_mark` — a mark ends one list of pieces and starts another.
-/

namespace LatencyReport.Text

variable {α : Type}

/-- The pieces of a sequence between the elements that satisfy `isMark`, in order. -/
def splitWith (isMark : α → Bool) : List α → List (List α)
  | [] => [[]]
  | x :: rest =>
    if isMark x then
      [] :: splitWith isMark rest
    else
      match splitWith isMark rest with
      | [] => [[x]]
      | piece :: pieces => (x :: piece) :: pieces

/-- The sequence without the marks at its start and at its end. Marks inside stay. -/
def trimWith (isMark : α → Bool) (xs : List α) : List α :=
  ((xs.dropWhile isMark).reverse.dropWhile isMark).reverse

@[simp] theorem splitWith_nil (isMark : α → Bool) : splitWith isMark [] = [[]] := rfl

/-- There is always a first piece. -/
theorem splitWith_ne_nil (isMark : α → Bool) (xs : List α) : splitWith isMark xs ≠ [] := by
  cases xs with
  | nil => simp [splitWith]
  | cons x rest =>
    unfold splitWith
    split
    · simp
    · split <;> simp

/-- **A mark ends one list of pieces and starts another.** All else about cutting follows from this equation. -/
theorem splitWith_append_mark {isMark : α → Bool} {c : α} (h : isMark c = true) (xs ys : List α) :
    splitWith isMark (xs ++ c :: ys) = splitWith isMark xs ++ splitWith isMark ys := by
  induction xs with
  | nil => simp [splitWith, h]
  | cons x rest ih =>
    by_cases hx : isMark x = true
    · simp [splitWith, hx, ih]
    · obtain ⟨piece, pieces, hp⟩ := List.exists_cons_of_ne_nil (splitWith_ne_nil isMark rest)
      simp [splitWith, hx, ih, hp]

/-- A sequence without a mark is one piece. -/
theorem splitWith_of_forall_not {isMark : α → Bool} {xs : List α} (h : ∀ x ∈ xs, isMark x = false) :
    splitWith isMark xs = [xs] := by
  induction xs with
  | nil => rfl
  | cons x rest ih =>
    simp [splitWith, h x List.mem_cons_self, ih fun y hy => h y (List.mem_cons_of_mem _ hy)]

/-- No piece holds a mark. -/
theorem not_isMark_of_mem_splitWith {isMark : α → Bool} {xs piece : List α} (h : piece ∈ splitWith isMark xs) :
    ∀ x ∈ piece, isMark x = false := by
  induction xs generalizing piece with
  | nil => simp_all [splitWith]
  | cons x rest ih =>
    by_cases hx : isMark x = true
    · simp only [splitWith, hx, if_true, List.mem_cons] at h
      rcases h with rfl | h
      · simp
      · exact ih h
    · obtain ⟨first, others, hp⟩ := List.exists_cons_of_ne_nil (splitWith_ne_nil isMark rest)
      simp only [splitWith, hx, hp, Bool.false_eq_true, if_false, List.mem_cons] at h
      rcases h with rfl | h
      · intro y hy
        rcases List.mem_cons.mp hy with rfl | hy
        · simpa using hx
        · exact ih (hp ▸ List.mem_cons_self) y hy
      · exact ih (hp ▸ List.mem_cons_of_mem _ h)

@[simp] theorem trimWith_nil (isMark : α → Bool) : trimWith isMark [] = [] := rfl

end LatencyReport.Text
