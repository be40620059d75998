import LatencyReport.Proofs.Size.Reading
import LatencyReport.Proofs.Text.Split

/-!
# `Proofs.Size.Writing` — sizes as they are written

A size is written as a count and the largest unit that divides it, so **the text says the size exactly**
(`exists_written`). What is read has a unit letter and no more, so a text is read back without the letters behind it
(`short`, `parse_short`). And what is read back is told apart: two sizes never have one text (`format_injective`).

## Contents

* `IsCount`, `WrittenUnit`, `exists_written`, `not_mem_format` — the two parts of a written size;
* `short`, `exists_short`, `trim_written`, `parse_short` — what is read back;
* `format_injective`, `format_spec` — written sizes.
-/

namespace LatencyReport.Size

/-! ## The parts of a written size -/

/-- **The text is the decimal form of a number**: digits with its value, and no zero in front of them. -/
structure IsCount (text : List Char) (count : Nat) : Prop where
  spells : Text.Spells text count
  isDigit : ∀ c ∈ text, c.isDigit = true
  no_zero : text.head? = some '0' → text = ['0']

/-- **The unit with which `n` bytes are written**, and the bytes that it stands for: the largest of the units that
    divides `n` and is not above it. -/
inductive WrittenUnit (n : Nat) : List Char → Nat → Prop where
  | mebi (hle : 2 ^ 20 ≤ n) (hdvd : 2 ^ 20 ∣ n) : WrittenUnit n ['M', 'i', 'B'] (2 ^ 20)
  | kibi (hmebi : ¬(2 ^ 20 ≤ n ∧ 2 ^ 20 ∣ n)) (hle : 2 ^ 10 ≤ n) (hdvd : 2 ^ 10 ∣ n) :
      WrittenUnit n ['K', 'i', 'B'] (2 ^ 10)
  | byte (hmebi : ¬(2 ^ 20 ≤ n ∧ 2 ^ 20 ∣ n)) (hkibi : ¬(2 ^ 10 ≤ n ∧ 2 ^ 10 ∣ n)) : WrittenUnit n ['B'] 1

/-- What is written of a number is its decimal form. -/
theorem isCount_toString (count : UInt64) : IsCount (toString count).toList count.toNat := by
  have hdigits : (toString count).toList = Nat.toDigits 10 count.toNat := Nat.toList_repr
  refine ⟨Text.spells_toString count, ?_, ?_⟩
  · intro c hc
    rw [hdigits] at hc
    exact Nat.isDigit_of_mem_toDigits (by decide) (by decide) hc
  · intro hzero
    rw [hdigits] at hzero ⊢
    by_cases hcount : count.toNat = 0
    · rw [hcount]
      rfl
    · exact absurd hzero (Text.head?_toDigits hcount)

/-- A unit is fit for a size if it divides the size and is not above it. -/
theorem fits_iff {unit size : UInt64} : unit ≤ size ∧ size % unit = 0 ↔
    unit.toNat ≤ size.toNat ∧ unit.toNat ∣ size.toNat := by
  rw [UInt64.le_iff_toNat_le, ← UInt64.toNat_inj, UInt64.toNat_mod, UInt64.toNat_zero, Nat.dvd_iff_mod_eq_zero]

/-- **A written size is a count and a unit, and their product is the size.** -/
theorem exists_written (size : UInt64) :
    ∃ (count : UInt64) (unit : List Char) (factor : Nat), (format size).toList = (toString count).toList ++ unit ∧
      WrittenUnit size.toNat unit factor ∧ count.toNat * factor = size.toNat := by
  unfold format
  simp only [fits_iff]
  split
  · rename_i hmebi
    refine ⟨size / mebi, _, _, String.toList_append, .mebi hmebi.1 hmebi.2, ?_⟩
    rw [UInt64.toNat_div]
    exact Nat.div_mul_cancel hmebi.2
  · rename_i hmebi
    split
    · rename_i hkibi
      refine ⟨size / kibi, _, _, String.toList_append, .kibi hmebi hkibi.1 hkibi.2, ?_⟩
      rw [UInt64.toNat_div]
      exact Nat.div_mul_cancel hkibi.2
    · rename_i hkibi
      exact ⟨size, _, _, String.toList_append, .byte hmebi hkibi, Nat.mul_one _⟩

/-- What is no digit and no letter of a unit does not stand in a written size. -/
theorem not_mem_format {c : Char} (hdigit : c.isDigit = false) (hletter : c ∉ ['M', 'K', 'i', 'B']) (size : UInt64) :
    c ∉ (format size).toList := by
  obtain ⟨count, unit, factor, htext, hunit, _⟩ := exists_written size
  have hdigits : c ∉ (toString count).toList := by
    intro hmem
    exact absurd (hdigit.symm.trans ((isCount_toString count).isDigit c hmem)) (by decide)
  have hletters : c ∉ unit := by
    simp only [List.mem_cons, List.not_mem_nil, or_false, not_or] at hletter
    cases hunit <;> simp [hletter]
  rw [htext, List.mem_append, not_or]
  exact ⟨hdigits, hletters⟩

/-! ## Read back -/

/-- The text without the `iB` at its end, or without its last letter if no `i` stands in front of that. -/
def short (text : String) : String :=
  if ['i', 'B'] <:+ text.toList then String.ofList text.toList.dropLast.dropLast
  else String.ofList text.toList.dropLast

theorem short_of_binary {text : String} {front : List Char} (h : text.toList = front ++ ['i', 'B']) :
    short text = String.ofList front := by
  rw [short, h, if_pos (List.suffix_append front _)]
  simp

theorem short_of_byte {text : String} {front : List Char} (h : text.toList = front ++ ['B'])
    (hfront : 'i' ∉ front) : short text = String.ofList front := by
  rw [short, h, if_neg, List.dropLast_concat]
  rintro ⟨rest, hrest⟩
  have hback : rest ++ ['i'] = front := by
    have hlast : (rest ++ ['i']) ++ ['B'] = front ++ ['B'] := by
      simpa using hrest
    exact List.append_cancel_right hlast
  apply hfront
  simp [← hback]

/-- **What is left of a written size is the count and the letter of its unit.** -/
theorem exists_short (size : UInt64) :
    ∃ (count : UInt64) (letter : List Char) (factor : Nat),
      short (format size) = String.ofList ((toString count).toList ++ letter) ∧ UnitOf letter factor ∧
        count.toNat * factor = size.toNat := by
  obtain ⟨count, unit, factor, htext, hunit, hproduct⟩ := exists_written size
  cases hunit with
  | mebi => exact ⟨count, ['M'], _, short_of_binary (by simp [htext]), .mebi (by decide), hproduct⟩
  | kibi => exact ⟨count, ['K'], _, short_of_binary (by simp [htext]), .kibi (by decide), hproduct⟩
  | byte =>
    refine ⟨count, [], _, ?_, .byte, hproduct⟩
    rw [List.append_nil]
    apply short_of_byte htext
    intro hi
    exact absurd ((isCount_toString count).isDigit 'i' hi) (by decide)

/-- No digit is white space. -/
theorem not_isBlank_of_isDigit {c : Char} (h : c.isDigit = true) : Text.isBlank c = false := by
  have hnumeral : Text.inNumeral c = true := by
    simp [Text.inNumeral, h]
  exact Text.of_ascii (P := fun c => c.isDigit = true → Text.isBlank c = false) (by decide)
    (Text.toNat_lt_of_inNumeral hnumeral) h

/-- A written count and a unit letter hold no white space. -/
theorem trim_written (count : UInt64) {letter : List Char} {factor : Nat} (h : UnitOf letter factor) :
    Text.trim ((toString count).toList ++ letter) = (toString count).toList ++ letter := by
  apply Text.trimWith_of_forall_not
  intro c hc
  rcases List.mem_append.mp hc with hdigit | hletter
  · exact not_isBlank_of_isDigit ((isCount_toString count).isDigit c hdigit)
  · rcases h.eq_nil_or with ⟨rfl, _⟩ | ⟨d, rfl, hd⟩
    · cases hletter
    · obtain rfl := List.mem_singleton.mp hletter
      have hblank := forall_letters (p := fun c => !Text.isBlank c) (by decide) hd
      simpa using hblank

/-- **A written size is read back**, and zero, which can be written as well, is no size. -/
theorem parse_short (size : UInt64) :
    parse (short (format size)) = if size = 0 then .error (.notPositive "0") else .ok size := by
  obtain ⟨count, letter, factor, hshort, hletter, hproduct⟩ := exists_short size
  have hspells := (isCount_toString count).spells
  have hcut : IsCut (Text.trim (short (format size)).toList) (toString count).toList letter factor := by
    rw [hshort, String.toList_ofList, trim_written count hletter]
    exact .of_spells rfl hspells hletter
  by_cases hzero : size = 0
  · subst hzero
    decide
  · rw [if_neg hzero, parse_eq_ok_iff hcut]
    have hcount : count.toNat ≠ 0 := by
      intro hcount
      rw [hcount, Nat.zero_mul] at hproduct
      exact hzero (UInt64.toNat_inj.mp hproduct.symm)
    have hsize := size.toNat_lt
    exact ⟨count.toNat, hspells, Nat.pos_of_ne_zero hcount, by omega, hproduct.symm⟩

/-! ## Written sizes -/

/-- **Two sizes never have one text.** -/
theorem format_injective : Function.Injective format := by
  intro m n h
  have hread := (parse_short m).symm.trans ((congrArg (parse <| short ·) h).trans (parse_short n))
  split at hread
  · split at hread
    · rename_i hm hn
      rw [hm, hn]
    · cases hread
  · split at hread
    · cases hread
    · exact Except.ok.inj hread

/-- **A written size says the size and is read back.** It is a count without leading zeros and the largest unit that
    divides it. Without the letters behind its unit letter it is read as the size again, but for zero, which is no
    size. No other size is written so. -/
theorem format_spec (size : UInt64) :
    (∃ digits unit count factor, (format size).toList = digits ++ unit ∧ IsCount digits count ∧
      WrittenUnit size.toNat unit factor ∧ count * factor = size.toNat) ∧
    parse (short (format size)) = (if size = 0 then .error (.notPositive "0") else .ok size) ∧
    ∀ other, format other = format size ↔ other = size := by
  refine ⟨?_, parse_short size, fun other => format_injective.eq_iff⟩
  obtain ⟨count, unit, factor, htext, hunit, hproduct⟩ := exists_written size
  exact ⟨_, unit, count.toNat, factor, htext, isCount_toString count, hunit, hproduct⟩

end LatencyReport.Size
