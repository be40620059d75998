import LatencyReport.Proofs.Text.Lowercase
import LatencyReport.Size
import Mathlib.Algebra.Group.Nat.Defs

/-!
# `Proofs.Size.Reading` — the texts that are sizes

A size is read from the lower case of a text, and lower case is a matter of all of Unicode. Still **the texts that are
sizes can be told without it**: a numeral, and at most one letter for the unit (`SpellsSize`). The letters are those
that one would write, in either case, and the kelvin sign, which looks like one of them and has its lower case.

What is no size fails in one of three ways, and which one is told by the part in front of the unit letter (`IsCut`): it
is no numeral below 2^64, it is zero, or it is a numeral that is too large for its unit. The product is never taken
unless it fits, so **no size is ever wrapped** (`parse_spec`).

## Contents

* `kibiLetters`, `mebiLetters`, `Text.Lowers.cases_unit` — the letters, and their lower case;
* `UnitOf`, `SpellsSize`, `IsCut` — texts with a unit; `exists_isCut`, `IsCut.unique`, `IsCut.spellsSize_iff`;
* `splitUnit_of_isCut`, `parse_of_isCut` — what is read of a text that is cut;
* `parse_eq_ok_iff`, `parse_eq_notANumber_iff`, `parse_eq_notPositive_iff`, `parse_eq_tooLarge_iff` — each outcome;
* `parse_spec` — the texts that are sizes, and how the others fail.
-/

namespace LatencyReport

/-! ## Unit letters -/

namespace Size

/-- The letters for 1024 bytes. The last of them is the kelvin sign. -/
def kibiLetters : List Char := ['k', 'K', '\u212a']

/-- The letters for 1024 times 1024 bytes. -/
def mebiLetters : List Char := ['m', 'M']

/-- No letter is of both units. -/
theorem not_mem_mebiLetters {c : Char} (h : c ∈ kibiLetters) : c ∉ mebiLetters := by
  simp only [kibiLetters, List.mem_cons, List.not_mem_nil, or_false] at h
  rcases h with rfl | rfl | rfl <;> decide

/-- What holds of all letters holds of one. -/
theorem forall_letters {p : Char → Bool} (h : (kibiLetters ++ mebiLetters).all p = true) {c : Char}
    (hc : c ∈ kibiLetters ∨ c ∈ mebiLetters) : p c = true :=
  List.all_eq_true.mp h c (List.mem_append.mpr hc)

/-- The letter of a unit, and the bytes that it stands for. Without a letter, bytes are counted. -/
inductive UnitOf : List Char → Nat → Prop where
  | byte : UnitOf [] 1
  | kibi {c : Char} (hc : c ∈ kibiLetters) : UnitOf [c] 1024
  | mebi {c : Char} (hc : c ∈ mebiLetters) : UnitOf [c] (1024 ^ 2)

/-- **A text spells a size**: it is a numeral with the value `n`, and at most one letter behind it, for a unit of
    `factor` bytes. -/
def SpellsSize (text : List Char) (n factor : Nat) : Prop :=
  ∃ digits unit, text = digits ++ unit ∧ Text.Spells digits n ∧ UnitOf unit factor

/-- A text is cut in front of the unit letter at its end, if there is one, and else is not cut at all. -/
structure IsCut (text digits unit : List Char) (factor : Nat) : Prop where
  text_eq : text = digits ++ unit
  unitOf : UnitOf unit factor
  bare : unit = [] → ∀ c ∈ text.getLast?, c ∉ kibiLetters ∧ c ∉ mebiLetters

/-- Every text is cut. -/
theorem exists_isCut (text : List Char) : ∃ digits unit factor, IsCut text digits unit factor := by
  rcases List.eq_nil_or_concat text with rfl | ⟨front, last, rfl⟩
  · exact ⟨[], [], 1, rfl, .byte, by simp⟩
  · rw [List.concat_eq_append]
    by_cases hkibi : last ∈ kibiLetters
    · exact ⟨front, [last], 1024, rfl, .kibi hkibi, by simp⟩
    · by_cases hmebi : last ∈ mebiLetters
      · exact ⟨front, [last], 1024 ^ 2, rfl, .mebi hmebi, by simp⟩
      · exact ⟨front ++ [last], [], 1, by simp, .byte, by simp [hkibi, hmebi]⟩

variable {text digits unit : List Char} {factor n : Nat}

/-- A unit letter is neither a digit nor a sign. -/
theorem not_inNumeral_of_unit {c : Char} (h : c ∈ kibiLetters ∨ c ∈ mebiLetters) : Text.inNumeral c = false := by
  have hletter := forall_letters (p := fun c => !Text.inNumeral c) (by decide) h
  simpa using hletter

theorem UnitOf.eq_nil_or (h : UnitOf unit factor) :
    (unit = [] ∧ factor = 1) ∨ ∃ c, unit = [c] ∧ (c ∈ kibiLetters ∨ c ∈ mebiLetters) := by
  cases h with
  | byte => exact Or.inl ⟨rfl, rfl⟩
  | kibi hc => exact Or.inr ⟨_, rfl, Or.inl hc⟩
  | mebi hc => exact Or.inr ⟨_, rfl, Or.inr hc⟩

theorem UnitOf.pos (h : UnitOf unit factor) : 0 < factor := by
  cases h <;> decide

/-- The letter tells the unit. -/
theorem UnitOf.unique {other : Nat} (h : UnitOf unit factor) (hother : UnitOf unit other) : factor = other := by
  cases h with
  | byte =>
    cases hother
    rfl
  | kibi hc =>
    cases hother with
    | kibi => rfl
    | mebi hmebi => exact absurd hmebi (not_mem_mebiLetters hc)
  | mebi hc =>
    cases hother with
    | kibi hkibi => exact absurd hc (not_mem_mebiLetters hkibi)
    | mebi => rfl

/-- Where a numeral stands in front of a unit, there the text is cut. -/
theorem IsCut.of_spells (htext : text = digits ++ unit) (hspells : Text.Spells digits n) (hunit : UnitOf unit factor) :
    IsCut text digits unit factor := by
  refine ⟨htext, hunit, ?_⟩
  rintro rfl c hc
  rw [htext, List.append_nil] at hc
  have hnumeral : Text.inNumeral c = true := by
    simpa [Text.inNumeral] using hspells.isDigit_or_eq_plus (List.mem_of_getLast? hc)
  constructor
  · intro hkibi
    exact absurd (hnumeral.symm.trans (not_inNumeral_of_unit (Or.inl hkibi))) (by decide)
  · intro hmebi
    exact absurd (hnumeral.symm.trans (not_inNumeral_of_unit (Or.inr hmebi))) (by decide)

/-- **A text is cut in one way.** -/
theorem IsCut.unique {digits' unit' : List Char} {factor' : Nat} (h : IsCut text digits unit factor)
    (h' : IsCut text digits' unit' factor') : digits = digits' ∧ unit = unit' ∧ factor = factor' := by
  have hletter : ∀ {d u d' u' : List Char} {c : Char} {f f' : Nat}, IsCut text d u f → IsCut text d' u' f' →
      u = [] → u' = [c] → c ∈ kibiLetters ∨ c ∈ mebiLetters → False := by
    rintro d u d' u' c f f' hcut hcut' hu rfl hc
    have hbare := hcut.bare hu c (by rw [hcut'.text_eq, List.getLast?_concat]; rfl)
    exact hc.elim hbare.1 hbare.2
  have hunits : digits = digits' ∧ unit = unit' := by
    rcases h.unitOf.eq_nil_or with ⟨rfl, _⟩ | ⟨c, rfl, hc⟩
    · rcases h'.unitOf.eq_nil_or with ⟨rfl, _⟩ | ⟨c', hunit', hc'⟩
      · have htext := h.text_eq.symm.trans h'.text_eq
        rw [List.append_nil, List.append_nil] at htext
        exact ⟨htext, rfl⟩
      · exact (hletter h h' rfl hunit' hc').elim
    · rcases h'.unitOf.eq_nil_or with ⟨hunit', _⟩ | ⟨c', rfl, hc'⟩
      · exact (hletter h' h hunit' rfl hc).elim
      · exact List.append_inj' (h.text_eq.symm.trans h'.text_eq) rfl
  obtain ⟨rfl, rfl⟩ := hunits
  exact ⟨rfl, rfl, h.unitOf.unique h'.unitOf⟩

/-- **A text that is cut spells the sizes that the part in front of its unit spells.** -/
theorem IsCut.spellsSize_iff {factor' : Nat} (h : IsCut text digits unit factor) :
    SpellsSize text n factor' ↔ Text.Spells digits n ∧ factor' = factor := by
  constructor
  · rintro ⟨digits', unit', htext, hspells, hunit⟩
    obtain ⟨rfl, -, rfl⟩ := h.unique (.of_spells htext hspells hunit)
    exact ⟨hspells, rfl⟩
  · rintro ⟨hspells, rfl⟩
    exact ⟨digits, unit, h.text_eq, hspells, h.unitOf⟩

end Size

open Size

/-- **The letters of a unit, and no others, end in that letter when they are lower-cased.** -/
theorem Text.Lowers.cases_unit {c : Char} {image : List Char} (h : Text.Lowers c image) :
    (c ∈ kibiLetters ∧ image = ['k']) ∨ (c ∈ mebiLetters ∧ image = ['m']) ∨
      (c ∉ kibiLetters ∧ c ∉ mebiLetters ∧ ∃ front last, image = front ++ [last] ∧ last ≠ 'k' ∧ last ≠ 'm') := by
  have hbeyond : ∀ {d : Char}, 0x80 ≤ d.toNat → d ≠ 'k' ∧ d ≠ 'm' := by
    intro d hd
    constructor <;> rintro rfl <;> exact absurd hd (by decide)
  cases h with
  | ascii hc =>
    have hcases := Text.of_ascii (P := fun c => (c ∈ kibiLetters ∧ c.toLower = 'k') ∨
      (c ∈ mebiLetters ∧ c.toLower = 'm') ∨
      (c ∉ kibiLetters ∧ c ∉ mebiLetters ∧ c.toLower ≠ 'k' ∧ c.toLower ≠ 'm')) (by decide) hc
    rcases hcases with ⟨hletter, hlower⟩ | ⟨hletter, hlower⟩ | ⟨hkibi, hmebi, hlast⟩
    · exact Or.inl ⟨hletter, by rw [hlower]⟩
    · exact Or.inr (Or.inl ⟨hletter, by rw [hlower]⟩)
    · exact Or.inr (Or.inr ⟨hkibi, hmebi, [], _, rfl, hlast⟩)
  | dotted => exact Or.inr (Or.inr ⟨by decide, by decide, ['i'], _, rfl, by decide⟩)
  | kelvin => exact Or.inl ⟨by decide, rfl⟩
  | @beyond c d hc hkelvin hd =>
    refine Or.inr (Or.inr ⟨?_, ?_, [], d, rfl, hbeyond hd⟩)
    · have hne := (hbeyond hc).1
      simp only [kibiLetters, List.mem_cons, List.not_mem_nil, or_false, not_or]
      refine ⟨hne, ?_, hkelvin⟩
      rintro rfl
      exact absurd hc (by decide)
    · have hne := (hbeyond hc).2
      simp only [mebiLetters, List.mem_cons, List.not_mem_nil, or_false, not_or]
      refine ⟨hne, ?_⟩
      rintro rfl
      exact absurd hc (by decide)

namespace Size

variable {text : String} {digits unit : List Char} {factor : Nat}

/-! ## What is read -/

theorem splitUnit_kibi (digits : List Char) : splitUnit (digits ++ ['k']) = (digits, kibi) := by
  simp [splitUnit]

theorem splitUnit_mebi (digits : List Char) : splitUnit (digits ++ ['m']) = (digits, mebi) := by
  simp [splitUnit]

theorem splitUnit_bare {s : List Char} (h : ∀ c ∈ s.getLast?, c ≠ 'k' ∧ c ≠ 'm') : splitUnit s = (s, 1) := by
  unfold splitUnit
  split
  · rename_i hlast
    exact absurd rfl (h _ hlast).1
  · rename_i hlast
    exact absurd rfl (h _ hlast).2
  · rfl

/-- A text that ends in no unit letter has a lower case that ends in none. -/
theorem getLast?_flatten {s : List Char} {images : List (List Char)} (h : List.Forall₂ Text.Lowers s images)
    (hlast : ∀ c ∈ s.getLast?, c ∉ kibiLetters ∧ c ∉ mebiLetters) :
    ∀ c ∈ images.flatten.getLast?, c ≠ 'k' ∧ c ≠ 'm' := by
  induction h with
  | nil => simp
  | @cons c image rest images himage hrest ih =>
    rw [List.flatten_cons]
    by_cases hempty : rest = []
    · -- the last character: its image ends in no unit letter
      subst hempty
      obtain ⟨hkibi, hmebi⟩ := hlast c rfl
      rcases himage.cases_unit with ⟨hc, _⟩ | ⟨hc, _⟩ | ⟨_, _, front, last, rfl, hne⟩
      · exact absurd hc hkibi
      · exact absurd hc hmebi
      · rw [(Text.flatten_eq_nil_iff hrest).mpr rfl]
        simpa using hne
    · rw [List.getLast?_append_of_ne_nil _ (mt (Text.flatten_eq_nil_iff hrest).mp hempty)]
      apply ih
      rwa [List.getLast?_cons_of_ne_nil hempty] at hlast

/-- **A text and its lower case are cut at the same place**, and what stands in front of the unit letter is the same
    numeral. -/
theorem splitUnit_of_isCut {s : List Char} (h : IsCut s digits unit factor) :
    ∃ lower, splitUnit (Text.lowercase s) = (lower, UInt64.ofNat factor) ∧
      Text.readUInt64 lower = Text.readUInt64 digits := by
  obtain ⟨fronts, backs, hfronts, hbacks, hlower⟩ := Text.exists_images digits unit
  refine ⟨fronts.flatten, ?_, Text.readUInt64_flatten hfronts⟩
  obtain ⟨htext, hunit, hbare⟩ := h
  rw [htext, hlower]
  cases hunit with
  | byte =>
    obtain rfl := List.forall₂_nil_left_iff.mp hbacks
    rw [htext, List.append_nil] at hbare
    rw [List.flatten_nil, List.append_nil]
    exact splitUnit_bare (getLast?_flatten hfronts (hbare rfl))
  | kibi hc =>
    obtain ⟨image, rest, himage, hrest, rfl⟩ := List.forall₂_cons_left_iff.mp hbacks
    obtain rfl := List.forall₂_nil_left_iff.mp hrest
    rcases himage.cases_unit with ⟨_, rfl⟩ | ⟨hmebi, _⟩ | ⟨hkibi, _⟩
    · exact splitUnit_kibi fronts.flatten
    · exact absurd hmebi (not_mem_mebiLetters hc)
    · exact absurd hc hkibi
  | mebi hc =>
    obtain ⟨image, rest, himage, hrest, rfl⟩ := List.forall₂_cons_left_iff.mp hbacks
    obtain rfl := List.forall₂_nil_left_iff.mp hrest
    rcases himage.cases_unit with ⟨hkibi, _⟩ | ⟨_, rfl⟩ | ⟨_, hmebi, _⟩
    · exact absurd hc (not_mem_mebiLetters hkibi)
    · exact splitUnit_mebi fronts.flatten
    · exact absurd hc hmebi

/-- The text as faults tell it: trimmed and in lower case. -/
def lowered (text : String) : String :=
  String.ofList (Text.lowercase (Text.trim text.toList))

/-- **What is read of a text that is cut.** The product is taken only if it fits. -/
theorem parse_of_isCut (h : IsCut (Text.trim text.toList) digits unit factor) :
    parse text =
      match Text.readUInt64 digits with
      | .error fault => .error (.notANumber (lowered text) fault)
      | .ok value =>
        if value = 0 then .error (.notPositive (lowered text))
        else if value.toNat * factor < 2 ^ 64 then .ok (UInt64.ofNat (value.toNat * factor))
        else .error (.tooLarge (lowered text)) := by
  obtain ⟨lower, hsplit, hread⟩ := splitUnit_of_isCut h
  have hfactor : (UInt64.ofNat factor).toNat = factor := by
    cases h.unitOf <;> rfl
  unfold parse
  simp only [hsplit, hread, hfactor]
  cases Text.readUInt64 digits with
  | error fault => rfl
  | ok value =>
    have hproduct : value * UInt64.ofNat factor = UInt64.ofNat (value.toNat * factor) := by
      rw [UInt64.ofNat_mul, UInt64.ofNat_toNat]
    simp only [hproduct]
    rfl

/-- What is no numeral below 2^64 is no number. -/
theorem parse_of_unread (h : IsCut (Text.trim text.toList) digits unit factor)
    (hlarge : ∀ n, Text.Spells digits n → 2 ^ 64 ≤ n) :
    ∃ fault, parse text = .error (.notANumber (lowered text) fault) := by
  obtain ⟨fault, hfault⟩ := Text.readUInt64_eq_error_iff.mpr hlarge
  exact ⟨fault, by rw [parse_of_isCut h, hfault]⟩

/-- What a numeral below 2^64 makes with its unit. -/
theorem parse_of_spells {n : Nat} (h : IsCut (Text.trim text.toList) digits unit factor)
    (hspells : Text.Spells digits n) (hn : n < 2 ^ 64) :
    parse text =
      if n = 0 then .error (.notPositive (lowered text))
      else if n * factor < 2 ^ 64 then .ok (UInt64.ofNat (n * factor))
      else .error (.tooLarge (lowered text)) := by
  have hvalue : (UInt64.ofNat n).toNat = n := UInt64.toNat_ofNat_of_lt' hn
  have hread : Text.readUInt64 digits = .ok (UInt64.ofNat n) := by
    rwa [Text.readUInt64_eq_ok_iff, hvalue]
  have hzero : UInt64.ofNat n = 0 ↔ n = 0 := by
    rw [← UInt64.toNat_inj, hvalue]
    rfl
  rw [parse_of_isCut h, hread]
  simp only [hzero, hvalue]

/-! ## Sizes, and what is none -/

/-- A part in front of a unit spells no number below 2^64, or it does. -/
theorem unread_or_spells (digits : List Char) :
    (∀ n, Text.Spells digits n → 2 ^ 64 ≤ n) ∨ ∃ n, Text.Spells digits n ∧ n < 2 ^ 64 := by
  by_cases hlarge : ∀ n, Text.Spells digits n → 2 ^ 64 ≤ n
  · exact Or.inl hlarge
  · right
    simpa only [not_forall, exists_prop, Nat.not_le] using hlarge

section Cut

variable (hcut : IsCut (Text.trim text.toList) digits unit factor)
include hcut

theorem parse_eq_notANumber_iff :
    (∃ fault, parse text = .error (.notANumber (lowered text) fault)) ↔
      ∀ n, Text.Spells digits n → 2 ^ 64 ≤ n := by
  constructor
  · rintro ⟨fault, hfault⟩ n hspells
    by_contra hsmall
    rw [parse_of_spells hcut hspells (Nat.not_le.mp hsmall)] at hfault
    split at hfault
    · cases hfault
    · split at hfault <;> cases hfault
  · exact parse_of_unread hcut

theorem parse_eq_notPositive_iff :
    parse text = .error (.notPositive (lowered text)) ↔ Text.Spells digits 0 := by
  rcases unread_or_spells digits with hlarge | ⟨n, hspells, hn⟩
  · obtain ⟨fault, hfault⟩ := parse_of_unread hcut hlarge
    rw [hfault]
    refine iff_of_false (by simp) fun hzero => ?_
    exact absurd (hlarge 0 hzero) (by decide)
  · rw [parse_of_spells hcut hspells hn]
    constructor
    · intro h
      by_cases hzero : n = 0
      · rwa [hzero] at hspells
      · rw [if_neg hzero] at h
        split at h <;> cases h
    · intro hzero
      rw [if_pos (hspells.unique hzero)]

theorem parse_eq_tooLarge_iff :
    parse text = .error (.tooLarge (lowered text)) ↔
      ∃ n, Text.Spells digits n ∧ n < 2 ^ 64 ∧ 2 ^ 64 ≤ n * factor := by
  constructor
  · intro h
    rcases unread_or_spells digits with hlarge | ⟨n, hspells, hn⟩
    · obtain ⟨fault, hfault⟩ := parse_of_unread hcut hlarge
      rw [hfault] at h
      cases h
    · refine ⟨n, hspells, hn, Nat.not_lt.mp fun hfits => ?_⟩
      rw [parse_of_spells hcut hspells hn, if_pos hfits] at h
      split at h <;> cases h
  · rintro ⟨n, hspells, hn, hlarge⟩
    have hpos : n ≠ 0 := by
      rintro rfl
      omega
    rw [parse_of_spells hcut hspells hn, if_neg hpos, if_neg (Nat.not_lt.mpr hlarge)]

theorem parse_eq_ok_iff {size : UInt64} :
    parse text = .ok size ↔
      ∃ n, Text.Spells digits n ∧ 1 ≤ n ∧ n * factor ≤ 2 ^ 64 - 1 ∧ size.toNat = n * factor := by
  constructor
  · intro h
    rcases unread_or_spells digits with hlarge | ⟨n, hspells, hn⟩
    · obtain ⟨fault, hfault⟩ := parse_of_unread hcut hlarge
      rw [hfault] at h
      cases h
    · rw [parse_of_spells hcut hspells hn] at h
      split at h
      · cases h
      · rename_i hpos
        split at h
        · rename_i hfits
          obtain rfl := Except.ok.inj h
          exact ⟨n, hspells, Nat.pos_of_ne_zero hpos, by omega, UInt64.toNat_ofNat_of_lt' hfits⟩
        · cases h
  · rintro ⟨n, hspells, hpos, hfits, hsize⟩
    -- a factor makes the numeral no smaller, so it fits as well
    have hle : n ≤ n * factor := Nat.le_mul_of_pos_right n hcut.unitOf.pos
    rw [parse_of_spells hcut hspells (by omega), if_neg (by omega), if_pos (by omega), ← hsize, UInt64.ofNat_toNat]

end Cut

/-- **The texts that are sizes are those that spell one that fits**, and the size is the product. What is no size
    fails by the part in front of its unit: it is no numeral below 2^64, or it is zero, or only the product is too
    large. -/
theorem parse_spec (text : String) :
    (∀ size : UInt64, parse text = .ok size ↔
      ∃ n factor, SpellsSize (Text.trim text.toList) n factor ∧ 1 ≤ n ∧ n * factor ≤ 2 ^ 64 - 1 ∧
        size.toNat = n * factor) ∧
    ∃ digits unit factor, IsCut (Text.trim text.toList) digits unit factor ∧
      ((∃ fault, parse text = .error (.notANumber (lowered text) fault)) ↔
        ∀ n, Text.Spells digits n → 2 ^ 64 ≤ n) ∧
      (parse text = .error (.notPositive (lowered text)) ↔ Text.Spells digits 0) ∧
      (parse text = .error (.tooLarge (lowered text)) ↔
        ∃ n, Text.Spells digits n ∧ n < 2 ^ 64 ∧ 2 ^ 64 ≤ n * factor) := by
  obtain ⟨digits, unit, factor, hcut⟩ := exists_isCut (Text.trim text.toList)
  have hsizes : ∀ size : UInt64,
      (∃ n factor, SpellsSize (Text.trim text.toList) n factor ∧ 1 ≤ n ∧ n * factor ≤ 2 ^ 64 - 1 ∧
        size.toNat = n * factor) ↔
      ∃ n, Text.Spells digits n ∧ 1 ≤ n ∧ n * factor ≤ 2 ^ 64 - 1 ∧ size.toNat = n * factor := by
    intro size
    simp only [hcut.spellsSize_iff, and_assoc, exists_and_left, exists_eq_left]
  refine ⟨fun size => ?_, digits, unit, factor, hcut, ?_, ?_, ?_⟩
  · rw [hsizes]
    exact parse_eq_ok_iff hcut
  · exact parse_eq_notANumber_iff hcut
  · exact parse_eq_notPositive_iff hcut
  · exact parse_eq_tooLarge_iff hcut

end Size

end LatencyReport
