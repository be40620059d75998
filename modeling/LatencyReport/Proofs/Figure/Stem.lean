import LatencyReport.Comparison
import LatencyReport.Proofs.Size.Writing
import LatencyReport.Proofs.Text.Split

/-!
# `Proofs.Figure.Stem` — names of figures

The files of a figure are called after the comparison and the range. A comparison may have any name, so the name of a
file can look as if another comparison had made it: `x_le_2KiB` with all sizes, and `x` with the sizes up to 2 KiB,
share their start. **No two have the same name**: how a name ends tells all sizes from the rest, and where it does not,
the last underscore stands in front of the threshold (`Comparison.stem_eq_iff`).

## Contents

* `Size.format_ends`, `Side`, `Side.slug_eq`, `Range.eq_all_or` — how slugs look;
* `Side.all_ne`, `Side.inj`, `stem_inj` — the two parts of a name;
* `Comparison.stem_eq_iff` — one name, one comparison and range.
-/

namespace LatencyReport

open Size

/-- A written size holds no underscore, and ends in `B`. -/
theorem Size.format_ends (size : UInt64) :
    '_' ∉ (format size).toList ∧ (format size).toList.getLast? = some 'B' := by
  refine ⟨not_mem_format (by decide) (by decide) size, ?_⟩
  obtain ⟨count, unit, factor, htext, hunit, _⟩ := exists_written size
  have hlast : unit.getLast? = some 'B' := by
    cases hunit <;> rfl
  rw [htext, List.getLast?_append, hlast, Option.some_or]

/-- The side of a threshold, as slugs have it. -/
inductive Side : Range → List Char → UInt64 → Prop where
  | atMost (threshold : UInt64) : Side (.atMost threshold) ['l', 'e'] threshold
  | above (threshold : UInt64) : Side (.above threshold) ['g', 't'] threshold

/-- The slug of one side of a threshold. -/
theorem Side.slug_eq {range : Range} {side : List Char} {threshold : UInt64} (h : Side range side threshold) :
    range.slug.toList = side ++ '_' :: (format threshold).toList := by
  cases h <;> simp [Range.slug]

theorem Range.eq_all_or (range : Range) : range = .all ∨ ∃ side threshold, Side range side threshold := by
  cases range with
  | all => exact Or.inl rfl
  | atMost threshold => exact Or.inr ⟨_, _, .atMost threshold⟩
  | above threshold => exact Or.inr ⟨_, _, .above threshold⟩

/-- The name of all sizes ends in another letter than the name of one side. -/
theorem Side.all_ne {range : Range} {side : List Char} {threshold : UInt64} (h : Side range side threshold)
    (p q : List Char) : p ++ '_' :: Range.all.slug.toList ≠ q ++ '_' :: range.slug.toList := by
  intro heq
  have hall : (p ++ '_' :: Range.all.slug.toList).getLast? = some 'l' := by
    simp [Range.slug]
  have hside : (q ++ '_' :: range.slug.toList).getLast? = some 'B' := by
    simp [h.slug_eq, List.getLast?_append, List.getLast?_cons, (format_ends threshold).2]
  rw [heq, hside] at hall
  exact absurd hall (by decide)

/-- The names of two sides tell which they are. -/
theorem Side.inj {a b : Range} {side other : List Char} {m n : UInt64} (ha : Side a side m) (hb : Side b other n)
    {p q : List Char} (h : p ++ '_' :: a.slug.toList = q ++ '_' :: b.slug.toList) : p = q ∧ a = b := by
  rw [ha.slug_eq, hb.slug_eq, ← List.cons_append, ← List.cons_append, ← List.append_assoc, ← List.append_assoc] at h
  obtain ⟨hfront, hsize⟩ := Text.eq_of_append_mark_eq h (format_ends m).1 (format_ends n).1
  obtain rfl : m = n := format_injective (String.toList_inj.mp hsize)
  have hlast := congrArg List.getLast? hfront
  cases ha <;> cases hb
  · exact ⟨List.append_cancel_right hfront, rfl⟩
  · simp at hlast
  · simp at hlast
  · exact ⟨List.append_cancel_right hfront, rfl⟩

/-- **The two parts of a name can be told from it**, whatever the first of them is. -/
theorem stem_inj {p q : List Char} {a b : Range} (h : p ++ '_' :: a.slug.toList = q ++ '_' :: b.slug.toList) :
    p = q ∧ a = b := by
  rcases a.eq_all_or with rfl | ⟨side, m, ha⟩
  · rcases b.eq_all_or with rfl | ⟨other, n, hb⟩
    · exact ⟨List.append_cancel_right h, rfl⟩
    · exact absurd h (hb.all_ne p q)
  · rcases b.eq_all_or with rfl | ⟨other, n, hb⟩
    · exact absurd h.symm (ha.all_ne q p)
    · exact ha.inj hb h

/-- **A name is that of one comparison's name and one range.** -/
theorem Comparison.stem_eq_iff {c other : Comparison} {a b : Range} :
    c.stem a = other.stem b ↔ c.name = other.name ∧ a = b := by
  constructor
  · intro h
    have htext := congrArg String.toList h
    simp only [Comparison.stem, String.toList_append, List.append_assoc] at htext
    obtain ⟨hname, hrange⟩ := stem_inj htext
    exact ⟨String.toList_inj.mp hname, hrange⟩
  · rintro ⟨hname, rfl⟩
    rw [stem, stem, hname]

end LatencyReport
