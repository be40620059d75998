import LatencyReport.Palette
import Mathlib.Data.Finset.Card
import Mathlib.Data.Finset.Dedup
import Mathlib.Data.List.TakeWhile

/-!
# `Proofs.Palette.Numbering` — series are numbered as they are asked for

A figure asks for colors one after the other, for one series as often as it likes. Whatever was asked for, **the numbers
handed out are those below their count, each for one series** (`IsNumbering`): a series that is new gets the count as its
number, which no other series has, and a series that is known changes nothing. A number, once handed out, stays
(`number?_colorAll_of_some`), so all answers to one series are the same. And a series gets its number when it is asked for
first, so that number is how many different series were asked for before it (`number?_colorAll`).

## Contents

* `number?_colorAll_of_some`, `fst_colorAll`, `fst_color_of_mem` — numbers and answers stay;
* `Colors.IsNumbering` — what one call keeps, and what all calls keep;
* `distinctBefore`, `number?_colorAll` — which number a series gets;
* `colors_in_order` — all answers of a figure.
-/

namespace LatencyReport

namespace Colors

/-! ## Numbers stay -/

theorem ne_of_number? {c : Colors} {s t : Series} {number : Nat} (hs : c.number? s = none)
    (ht : c.number? t = some number) : t ≠ s := by
  intro heq
  rw [heq, hs] at ht
  cases ht

/-- One call keeps every number that was handed out. -/
theorem number?_color_of_some {c : Colors} {t : Series} {number : Nat} (h : c.number? t = some number) (s : Series) :
    (c.color s).2.number? t = some number := by
  cases hs : c.number? s with
  | some _ => rw [color_of_some hs, h]
  | none => rw [number?_color_of_none hs, if_neg (ne_of_number? hs h), h]

/-- **Numbers stay**, whatever is asked for. -/
theorem number?_colorAll_of_some {c : Colors} {t : Series} {number : Nat} (h : c.number? t = some number)
    (calls : List Series) : (c.colorAll calls).2.number? t = some number := by
  induction calls generalizing c with
  | nil => exact h
  | cons s rest ih => exact ih (number?_color_of_some h s)

/-- The answer is the color of the number that the series has from then on. -/
theorem exists_number?_color (c : Colors) (s : Series) :
    ∃ number, (c.color s).1 = colorAt number ∧ (c.color s).2.number? s = some number := by
  cases hs : c.number? s with
  | some number => exact ⟨number, by rw [color_of_some hs], by rw [color_of_some hs, hs]⟩
  | none => exact ⟨c.count, fst_color_of_none hs, by rw [number?_color_of_none hs, if_pos rfl]⟩

/-- **Answers stay**: a series that is asked for again in the end gets the answer that it got. -/
theorem fst_colorAll (c : Colors) (calls : List Series) :
    (c.colorAll calls).1 = calls.map fun s => ((c.colorAll calls).2.color s).1 := by
  induction calls generalizing c with
  | nil => rfl
  | cons s rest ih =>
    obtain ⟨number, hanswer, hnumber⟩ := c.exists_number?_color s
    have hlast := number?_colorAll_of_some hnumber rest
    show (c.color s).1 :: ((c.color s).2.colorAll rest).1 =
      (((c.color s).2.colorAll rest).2.color s).1 :: rest.map fun t => (((c.color s).2.colorAll rest).2.color t).1
    rw [hanswer, color_of_some hlast, ← ih]

/-- A series that was asked for has a number. -/
theorem exists_number?_colorAll (c : Colors) {calls : List Series} {s : Series} (h : s ∈ calls) :
    ∃ number, (c.colorAll calls).2.number? s = some number := by
  induction calls generalizing c with
  | nil => exact absurd h List.not_mem_nil
  | cons t rest ih =>
    rcases List.mem_cons.mp h with rfl | hrest
    · obtain ⟨number, _, hnumber⟩ := c.exists_number?_color s
      exact ⟨number, number?_colorAll_of_some hnumber rest⟩
    · exact ih (c.color t).2 hrest

/-- Once a series was asked for, its answer is the same in every call to come. -/
theorem fst_color_of_mem (c : Colors) {calls : List Series} {s : Series} (h : s ∈ calls) (more : List Series) :
    (((c.colorAll calls).2.colorAll more).2.color s).1 = ((c.colorAll calls).2.color s).1 := by
  obtain ⟨number, hnumber⟩ := c.exists_number?_colorAll h
  rw [color_of_some hnumber, color_of_some (number?_colorAll_of_some hnumber more)]

theorem colorAll_append (c : Colors) (calls more : List Series) :
    (c.colorAll (calls ++ more)).2 = ((c.colorAll calls).2.colorAll more).2 := by
  induction calls generalizing c with
  | nil => rfl
  | cons s rest ih => exact ih (c.color s).2

/-! ## One number for each series -/

/-- The numbers handed out for the series that were asked for: those below the count, each for one series. -/
structure IsNumbering (c : Colors) (calls : List Series) : Prop where
  count_eq : c.count = calls.toFinset.card
  isSome_iff : ∀ s, (c.number? s).isSome ↔ s ∈ calls
  lt_count : ∀ s number, c.number? s = some number → number < c.count
  existsUnique : ∀ number < c.count, ∃! s, c.number? s = some number

theorem IsNumbering.eq_none {c : Colors} {calls : List Series} (h : c.IsNumbering calls) {s : Series} (hs : s ∉ calls) :
    c.number? s = none := by
  rw [← Option.not_isSome_iff_eq_none, h.isSome_iff]
  exact hs

theorem isNumbering_empty : IsNumbering {} [] where
  count_eq := rfl
  isSome_iff s := by simp
  lt_count s number h := by simp at h
  existsUnique number h := by simp at h

/-- A call for a series that was asked for changes nothing. -/
theorem IsNumbering.again {c : Colors} {calls : List Series} (h : c.IsNumbering calls) {s : Series} (hs : s ∈ calls) :
    c.IsNumbering (calls ++ [s]) := by
  refine ⟨?_, ?_, h.lt_count, h.existsUnique⟩
  · simp [h.count_eq, hs]
  · intro t
    rw [h.isSome_iff]
    by_cases ht : t = s <;> simp [ht, hs]

/-- A call for a series that is new hands out the count. -/
theorem IsNumbering.new {c : Colors} {calls : List Series} (h : c.IsNumbering calls) {s : Series} (hs : s ∉ calls) :
    (c.color s).2.IsNumbering (calls ++ [s]) := by
  have hnone := h.eq_none hs
  have hcount := count_color_of_none hnone
  have hnumber := number?_color_of_none hnone
  refine ⟨?_, ?_, ?_, ?_⟩
  · simp [hcount, h.count_eq, hs]
  · intro t
    rw [hnumber]
    by_cases ht : t = s
    · simp [ht]
    · simp [ht, h.isSome_iff]
  · intro t number ht
    rw [hnumber] at ht
    rw [hcount]
    split at ht
    · obtain rfl := Option.some.inj ht
      exact Nat.lt_succ_self _
    · exact Nat.lt_succ_of_lt (h.lt_count t number ht)
  · intro number hlt
    rw [hcount] at hlt
    rcases Nat.lt_succ_iff_lt_or_eq.mp hlt with hold | rfl
    · -- a number from before is that of one series, which is not the new one
      obtain ⟨t, ht, honly⟩ := h.existsUnique number hold
      refine ⟨t, number?_color_of_some ht s, ?_⟩
      intro other hother
      rw [hnumber] at hother
      split at hother
      · exact absurd (Option.some.inj hother) (Nat.ne_of_gt hold)
      · exact honly other hother
    · refine ⟨s, by simp [hnumber], ?_⟩
      intro other hother
      simp only [hnumber] at hother
      split at hother
      · assumption
      · exact absurd (h.lt_count other _ hother) (Nat.lt_irrefl _)

/-- **One call** hands out the count if the series is new, and nothing otherwise. -/
theorem IsNumbering.color {c : Colors} {calls : List Series} (h : c.IsNumbering calls) (s : Series) :
    (c.color s).2.IsNumbering (calls ++ [s]) := by
  by_cases hs : s ∈ calls
  · obtain ⟨number, hnumber⟩ := Option.isSome_iff_exists.mp ((h.isSome_iff s).mpr hs)
    rw [color_of_some hnumber]
    exact h.again hs
  · exact h.new hs

/-- **All calls.** -/
theorem IsNumbering.colorAll {c : Colors} {calls : List Series} (h : c.IsNumbering calls) (more : List Series) :
    (c.colorAll more).2.IsNumbering (calls ++ more) := by
  induction more generalizing c calls with
  | nil =>
    rw [List.append_nil]
    exact h
  | cons s rest ih =>
    have hrest := ih (h.color s)
    rwa [List.append_assoc] at hrest

theorem isNumbering_colorAll (calls : List Series) : (colorAll {} calls).2.IsNumbering calls :=
  isNumbering_empty.colorAll calls

end Colors

/-! ## Which number a series gets -/

/-- How many different series were asked for before this one was asked for first. -/
def distinctBefore (calls : List Series) (s : Series) : Nat :=
  (calls.takeWhile fun t => t != s).toFinset.card

theorem forall_bne_of_not_mem {calls : List Series} {s : Series} (h : s ∉ calls) : ∀ t ∈ calls, (t != s) = true := by
  intro t ht
  rw [bne_iff_ne]
  exact fun heq => h (heq ▸ ht)

theorem distinctBefore_of_not_mem {calls : List Series} {s : Series} (h : s ∉ calls) :
    distinctBefore calls s = calls.toFinset.card := by
  rw [distinctBefore, List.takeWhile_eq_self_iff.mpr (forall_bne_of_not_mem h)]

theorem distinctBefore_append_cons {before : List Series} {s : Series} (h : s ∉ before) (behind : List Series) :
    distinctBefore (before ++ s :: behind) s = before.toFinset.card := by
  rw [distinctBefore, List.takeWhile_append_of_pos (forall_bne_of_not_mem h), List.takeWhile_cons_of_neg (by simp),
    List.append_nil]

namespace Colors

/-- **A series gets as its number how many different series were asked for before it.** -/
theorem number?_colorAll {calls : List Series} {s : Series} (h : s ∈ calls) :
    (colorAll {} calls).2.number? s = some (distinctBefore calls s) := by
  obtain ⟨before, behind, rfl, hnew⟩ := List.eq_append_cons_of_mem h
  have hbefore := isNumbering_colorAll before
  have hfirst : ((colorAll {} before).2.color s).2.number? s = some (colorAll {} before).2.count := by
    rw [number?_color_of_none (hbefore.eq_none hnew), if_pos rfl]
  rw [distinctBefore_append_cons hnew, ← hbefore.count_eq, colorAll_append]
  exact number?_colorAll_of_some hfirst behind

/-- **A call gives the color of how many different series were asked for before the first call for this one.** -/
theorem fst_color_colorAll (calls : List Series) (s : Series) :
    ((colorAll {} calls).2.color s).1 = colorAt (distinctBefore calls s) := by
  by_cases hmem : s ∈ calls
  · rw [color_of_some (number?_colorAll hmem)]
  · have hnumbering := isNumbering_colorAll calls
    rw [fst_color_of_none (hnumbering.eq_none hmem), hnumbering.count_eq, distinctBefore_of_not_mem hmem]

end Colors

/-- The colors of the palette differ. -/
theorem eq_of_colorAt_eq {i j : Nat} (hi : i < 8) (hj : j < 8) (h : colorAt i = colorAt j) : i = j := by
  have hdiffer : ∀ i j : Fin 8, palette.get i = palette.get j → i = j := by decide
  have hsame : i % 8 = j % 8 := congrArg Fin.val (hdiffer _ _ h)
  rwa [Nat.mod_eq_of_lt hi, Nat.mod_eq_of_lt hj] at hsame

/-! ## All answers of a figure -/

/-- **The colors of a figure**, whatever it asks for. The numbers handed out are those below their count, each for one of
    the series that were asked for. The answer to a call is the color of how many different series were asked for before
    the first call for that series; so it was the same in every call before and is the same in every call to come. Of the
    first eight series no two have one color. -/
theorem colors_in_order (calls : List Series) :
    let answers := (Colors.colorAll {} calls).1
    let c := (Colors.colorAll {} calls).2
    c.IsNumbering calls ∧
    (∀ s, (c.color s).1 = colorAt (distinctBefore calls s)) ∧
    answers = calls.map (fun s => (c.color s).1) ∧
    (∀ more, ∀ s ∈ calls, ((Colors.colorAll {} (calls ++ more)).2.color s).1 = (c.color s).1) ∧
    ∀ s ∈ calls, ∀ t ∈ calls, distinctBefore calls s < 8 → distinctBefore calls t < 8 →
      (c.color s).1 = (c.color t).1 → s = t := by
  intro answers c
  have hnumbering : c.IsNumbering calls := Colors.isNumbering_colorAll calls
  refine ⟨hnumbering, Colors.fst_color_colorAll calls, Colors.fst_colorAll {} calls, ?_, ?_⟩
  · intro more s hs
    rw [Colors.colorAll_append]
    exact Colors.fst_color_of_mem {} hs more
  · intro s hs t ht hsmall htsmall hsame
    rw [Colors.fst_color_colorAll, Colors.fst_color_colorAll] at hsame
    have hnumber : c.number? s = some (distinctBefore calls t) := by
      rw [Colors.number?_colorAll hs, eq_of_colorAt_eq hsmall htsmall hsame]
    have hlt := hnumbering.lt_count s _ hnumber
    exact (hnumbering.existsUnique _ hlt).unique hnumber (Colors.number?_colorAll ht)

end LatencyReport
