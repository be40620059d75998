import LatencyReport.Series

/-!
# `Palette` — the colors of a figure

Eight colors tell the lines of a figure apart. Every series gets a **number** when its color is asked for the first
time, which is how many series have one already, and keeps it; the number decides the color. So a series keeps its color
through the parts of a figure, and from the ninth series on the colors repeat.

## Contents

* `Color`, `palette`; `colorAt` — the color of a number;
* `Colors` — the numbers handed out so far; `Colors.number?` and `Colors.count` — what is known of them;
* `Colors.color`, `Colors.colorAll` — the color of a series, and those of many, one after the other.
-/

namespace LatencyReport

/-- Red, green and blue. -/
structure Color where
  red : UInt8
  green : UInt8
  blue : UInt8
deriving DecidableEq, Repr

/-- The colors, in the order in which they are handed out. -/
def palette : Vector Color 8 :=
  #v[⟨102, 194, 165⟩, ⟨252, 141, 98⟩, ⟨141, 160, 203⟩, ⟨231, 138, 195⟩,
     ⟨166, 216, 84⟩, ⟨255, 217, 47⟩, ⟨229, 196, 148⟩, ⟨179, 179, 179⟩]

/-- The color of a number. -/
def colorAt (number : Nat) : Color :=
  palette.get ⟨number % 8, Nat.mod_lt _ (by decide)⟩

/-- The numbers that a figure has handed out, each with its series. -/
structure Colors where
  assigned : List (Series × Nat) := []

namespace Colors

/-- How many series have a number. -/
def count (c : Colors) : Nat :=
  c.assigned.length

/-- The number of a series, if it has one. -/
def number? (c : Colors) (s : Series) : Option Nat :=
  c.assigned.lookup s

/-- The color of a series, and the numbers after it was asked for. A series without a number gets the next one. -/
def color (c : Colors) (s : Series) : Color × Colors :=
  match c.number? s with
  | some number => (colorAt number, c)
  | none => (colorAt c.count, ⟨c.assigned ++ [(s, c.count)]⟩)

/-- The colors of series that are asked for one after the other, and the numbers after it. -/
def colorAll (c : Colors) : List Series → List Color × Colors
  | [] => ([], c)
  | s :: rest =>
    let (color, next) := c.color s
    let (colors, last) := next.colorAll rest
    (color :: colors, last)

@[simp] theorem count_empty : count {} = 0 := rfl

@[simp] theorem number?_empty (s : Series) : number? {} s = none := rfl

section color

variable {c : Colors} {s : Series}

/-- A series with a number changes nothing. -/
theorem color_of_some {number : Nat} (h : c.number? s = some number) : c.color s = (colorAt number, c) := by
  simp only [color, h]

theorem fst_color_of_none (h : c.number? s = none) : (c.color s).1 = colorAt c.count := by
  simp only [color, h]

theorem count_color_of_none (h : c.number? s = none) : (c.color s).2.count = c.count + 1 := by
  simp only [color, h, count, List.length_append, List.length_singleton]

/-- A series without a number gets the next one, and all others keep theirs. -/
theorem number?_color_of_none (h : c.number? s = none) (t : Series) :
    (c.color s).2.number? t = if t = s then some c.count else c.number? t := by
  simp only [color, h]
  unfold number? at h ⊢
  rw [List.lookup_append]
  by_cases hts : t = s
  · simp [hts, h]
  · rw [if_neg hts, List.lookup_cons, beq_false_of_ne hts, List.lookup_nil, Option.or_none]

end color

end Colors

end LatencyReport
