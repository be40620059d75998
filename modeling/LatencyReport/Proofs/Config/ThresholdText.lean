import LatencyReport.Proofs.Config.ThresholdField
import LatencyReport.Proofs.Json.Integers
import LatencyReport.Proofs.Text.Split

/-!
# `Proofs.Config.ThresholdText` — numbers, and the texts of their digits

A threshold can be written as a number or as the text of its digits, and the two are read by quite different rules. Of the
text white space is taken off, a unit is looked for, and digits are counted, zeros in front and a sign included; the number
has to be an integer first, which is told by its look. Still **they agree on every integer**
(`thresholdOfText?_toString_iff`, `thresholdOfText?_quoted_iff`): the same threshold, or none.

No other numeral is a threshold at all (`thresholdOfText?_numeral_iff`).

## Contents

* `thresholdOfText?`, `thresholdOfText?_numeral_iff` — numerals;
* `spells_toString_iff`, `parse_toString_eq_ok_iff` — the texts of integers, as sizes;
* `thresholdOfText?_toString_iff`, `thresholdOfText?_quoted_iff` — integers, and the texts of their digits;
* `threshold_of_json` — the threshold of a plot.
-/

namespace LatencyReport

open Document

/-! ## Numerals -/

/-- What a JSON text says of a threshold, if it is JSON and says anything. -/
def thresholdOfText? (text : String) : Option (Option UInt64) :=
  (Json.parse? text).bind fun v => ((ofJson v).option size).toOption

theorem thresholdOfText?_eq_some_iff {text : String} {t : Option UInt64} :
    thresholdOfText? text = some t ↔ ∃ v, Json.parse? text = some v ∧ v.SaysThreshold t := by
  unfold thresholdOfText?
  rw [Option.bind_eq_some_iff]
  simp only [← option_size_eq_ok_iff]
  refine exists_congr fun v => and_congr_right fun _ => ?_
  cases (ofJson v).option size <;> simp [Except.toOption]

theorem toString_toNat (n : UInt64) : toString n = toString (n.toNat : ℤ) := rfl

/-- A count of bytes other than zero is a threshold. -/
theorem saysThreshold_toNat {n : UInt64} (hn : n ≠ 0) : (Json.int n.toNat).SaysThreshold (some n) := by
  have hpos : n.toNat ≠ 0 := by rwa [ne_eq, ← UInt64.toNat_zero, UInt64.toNat_inj]
  have hlt := n.toNat_lt
  have hsays : (Json.int n.toNat).SaysThreshold (some (UInt64.ofNat n.toNat)) := .number (by omega) (by omega)
  rwa [UInt64.ofNat_toNat] at hsays

/-- **A numeral is a threshold if it is the decimal form of one.** -/
theorem thresholdOfText?_numeral_iff {s : List Char} (hne : s ≠ []) (hs : ∀ c ∈ s, Json.isNumeralChar c = true)
    {t : Option UInt64} :
    thresholdOfText? (String.ofList s) = some t ↔ ∃ n : UInt64, n ≠ 0 ∧ s = (toString n).toList ∧ t = some n := by
  rw [thresholdOfText?_eq_some_iff, Json.parse?_numeral hne hs]
  constructor
  · rintro ⟨v, hv, ht⟩
    cases ht with
    | nothing => rcases Json.ofNumeral?_int_or_float hv with ⟨_, h⟩ | ⟨_, h⟩ <;> cases h
    | text _ => rcases Json.ofNumeral?_int_or_float hv with ⟨_, h⟩ | ⟨_, h⟩ <;> cases h
    | @number n hpos hfits =>
      have hn : (UInt64.ofNat n).toNat = n := UInt64.toNat_ofNat_of_lt' (by omega : n < 2 ^ 64)
      obtain ⟨htext, -, -⟩ := Json.ofNumeral?_eq_int_iff.mp hv
      have hsame : toString (UInt64.ofNat n) = toString (n : ℤ) := by
        rw [toString_toNat, hn]
      refine ⟨UInt64.ofNat n, ?_, by rw [hsame, htext], rfl⟩
      rw [ne_eq, ← UInt64.toNat_inj, hn, UInt64.toNat_zero]
      omega
  · rintro ⟨n, hn, rfl, rfl⟩
    refine ⟨.int n.toNat, Json.ofNumeral?_eq_int_iff.mpr ⟨by rw [toString_toNat], by omega, ?_⟩, ?_⟩
    · exact_mod_cast n.toNat_lt
    · exact saysThreshold_toNat hn

/-! ## Integers, and the texts of their digits -/

/-- An integer spells a natural number if it is that number. -/
theorem spells_toString_iff {n : ℤ} {k : ℕ} : Text.Spells (toString n).toList k ↔ n = k := by
  rw [Json.toList_toString]
  split_ifs with hneg
  · rw [decide_eq_true_eq] at hneg
    refine iff_of_false (fun h => ?_) (by omega)
    rcases h.isDigit_or_eq_plus List.mem_cons_self with hminus | hminus <;> exact absurd hminus (by decide)
  · rw [decide_eq_true_eq] at hneg
    obtain ⟨m, rfl⟩ := Int.eq_ofNat_of_zero_le (not_lt.mp hneg)
    have hspells : Text.Spells (Nat.toDigits 10 m) m :=
      ⟨_, Or.inl rfl, Nat.toDigits_ne_nil, fun c hc => Nat.isDigit_of_mem_toDigits (by decide) (by decide) hc,
        Nat.ofDigitChars_ten_toDigits⟩
    constructor
    · intro h
      rw [Text.Spells.unique hspells h]
    · intro h
      obtain rfl : m = k := by omega
      exact hspells

/-- **The text of an integer is a size if the integer is positive and fits.** -/
theorem parse_toString_eq_ok_iff {n : ℤ} {bytes : UInt64} :
    Size.parse (toString n) = .ok bytes ↔ bytes ≠ 0 ∧ n = bytes.toNat := by
  have hchars : ∀ c ∈ (toString n).toList, Json.isNumeralChar c = true := fun c => Json.isNumeralChar_of_mem_toString
  have htrim : Text.trim (toString n).toList = (toString n).toList :=
    Text.trimWith_of_forall_not fun c hc =>
      Decimal.not_isBlank_of_isNumeralChar (Json.isNumeralChar_eq c ▸ hchars c hc)
  -- no unit letter is a character of a numeral
  have hletter : ∀ c ∈ (toString n).toList, ¬(c ∈ Size.kibiLetters ∨ c ∈ Size.mebiLetters) := by
    intro c hc hunit
    have hno := Size.forall_letters (p := fun c => !Json.isNumeralChar c) (by decide) hunit
    rw [hchars c hc] at hno
    cases hno
  have hcut : Size.IsCut (Text.trim (toString n).toList) (toString n).toList [] 1 := by
    refine ⟨by rw [htrim, List.append_nil], .byte, fun _ c hc => ?_⟩
    rw [htrim] at hc
    exact not_or.mp (hletter c (List.mem_of_getLast? hc))
  have hlt := bytes.toNat_lt
  rw [Size.parse_eq_ok_iff hcut, ne_eq, ← UInt64.toNat_inj, UInt64.toNat_zero]
  simp only [spells_toString_iff, Nat.mul_one]
  constructor
  · rintro ⟨k, rfl, hpos, _, hbytes⟩
    exact ⟨by omega, by rw [hbytes]⟩
  · rintro ⟨hpos, rfl⟩
    exact ⟨bytes.toNat, rfl, by omega, by omega, rfl⟩

/-- **A number is a threshold if it is an integer that is positive and fits.** -/
theorem thresholdOfText?_toString_iff (n : ℤ) {t : Option UInt64} :
    thresholdOfText? (toString n) = some t ↔ ∃ bytes : UInt64, bytes ≠ 0 ∧ n = bytes.toNat ∧ t = some bytes := by
  have htext : toString n = String.ofList (toString n).toList := String.ofList_toList.symm
  rw [htext, thresholdOfText?_numeral_iff (Json.toList_toString_ne_nil n) fun c => Json.isNumeralChar_of_mem_toString]
  refine exists_congr fun bytes => and_congr_right fun _ => and_congr_left fun _ => ?_
  rw [toString_toNat]
  constructor
  · intro h
    exact spells_toString_iff.mp (h ▸ spells_toString_iff.mpr rfl)
  · rintro rfl
    rfl

/-- **The text of its digits is a threshold in the same cases.** -/
theorem thresholdOfText?_quoted_iff (n : ℤ) {t : Option UInt64} :
    thresholdOfText? (Json.quoted (toString n)) = some t ↔
      ∃ bytes : UInt64, bytes ≠ 0 ∧ n = bytes.toNat ∧ t = some bytes := by
  rw [thresholdOfText?_eq_some_iff, Json.parse?_quoted fun c => Json.isNumeralChar_of_mem_toString]
  constructor
  · rintro ⟨v, hv, ht⟩
    obtain rfl := Option.some.inj hv
    cases ht with
    | @text _ bytes hsize =>
      obtain ⟨hpos, hn⟩ := parse_toString_eq_ok_iff.mp hsize
      exact ⟨bytes, hpos, hn, rfl⟩
  · rintro ⟨bytes, hpos, hn, rfl⟩
    exact ⟨_, rfl, .text (parse_toString_eq_ok_iff.mpr ⟨hpos, hn⟩)⟩

/-! ## Thresholds -/

/-- **The threshold of a plot.** A value says that there is none if it is null, a number of bytes if it is an integer from
    1 to 2^64 - 1, and what its size is if it is a text, with the fault of the size if that is none; every other value is
    refused. Whatever reads a plot reads the plot without a threshold, which has none, and puts in what the value says. So
    no plot that is read, on its own or in a configuration, has the threshold zero. A numeral is accepted exactly if it is
    the decimal form of such a number: not with a fraction or a power, also where its value is whole. And for every
    integer, the number and the text of its digits are the same threshold, or are both refused. -/
theorem threshold_of_json :
    (∀ (v : Json) (t : Option UInt64), (ofJson v).option size = .ok t ↔ v.SaysThreshold t) ∧
      (∀ s : String, (ofJson (.str s)).option size =
        ((Size.parse s).map some).mapError fun fault => DocumentFault.size (.text fault)) ∧
      (∀ read, Comparison.ReadsPlots read →
        (∀ plot without, Comparison.GivesThreshold plot without → Comparison.TakesThreshold read plot without) ∧
          ∀ d c, read d = .ok c → c.threshold ≠ some 0) ∧
      (∀ dialect d config, Config.read dialect d = .ok config → config.HasSizes) ∧
      (∀ s : List Char, s ≠ [] → (∀ c ∈ s, Json.isNumeralChar c = true) → ∀ t : Option UInt64,
        thresholdOfText? (String.ofList s) = some t ↔ ∃ n : UInt64, n ≠ 0 ∧ s = (toString n).toList ∧ t = some n) ∧
      ∀ n : ℤ, thresholdOfText? (toString n) = thresholdOfText? (Json.quoted (toString n)) := by
  refine ⟨fun v t => option_size_eq_ok_iff, option_size_str, ?_, fun _ _ _ => Config.hasSizes_of_read,
    fun s hne hs t => thresholdOfText?_numeral_iff hne hs, ?_⟩
  · intro read hread
    exact ⟨fun plot without => Comparison.takesThreshold hread, fun d c => Comparison.threshold_ne_zero hread⟩
  · intro n
    refine Option.ext fun t => ?_
    exact (thresholdOfText?_toString_iff n).trans (thresholdOfText?_quoted_iff n).symm

/-- A text with a unit among the other members, zero at the same place, a power of ten, and a number that does not fit. -/
theorem threshold_of_json_suffix :
    let plot (v : Json) : Json := .obj ([("name", .str "a"), ("type", .str "PhaseCompare")] ++
      ("threshold", v) :: [("series", .arr []), ("title", .str "b")])
    let c : Comparison := { name := "a", title := "b", selections := [], threshold := some 16384 }
    Comparison.readTagged (ofJson (plot (.str " 16K "))) = .ok c ∧ c.threshold ≠ some 0 ∧
      (∀ c, Comparison.readTagged (ofJson (plot (.int 0))) ≠ .ok c) ∧
      Config.HasSizes { name := "all", plots := [c] } ∧ thresholdOfText? "1e3" = none ∧
      thresholdOfText? (toString (2 ^ 64 : ℤ)) = thresholdOfText? (Json.quoted (toString (2 ^ 64 : ℤ))) := by
  intro plot c
  obtain ⟨hvalue, _, hplots, hconfig, hnumeral, hinteger⟩ := threshold_of_json
  obtain ⟨htakes, hzero⟩ := hplots Comparison.readTagged (Or.inl rfl)
  have hgives := htakes plot _ (.member [("name", .str "a"), ("type", .str "PhaseCompare")]
    [("series", .arr []), ("title", .str "b")] (by simp))
  have hrest : Comparison.readTagged (ofJson (.obj ([("name", .str "a"), ("type", .str "PhaseCompare")] ++
      [("series", .arr []), ("title", .str "b")]))) = .ok (c.withThreshold none) := rfl
  have hsize : Size.parse " 16K " = .ok 16384 := by decide
  have hall : Config.read .json (ofJson (.obj [("name", .str "all"), ("plots", .arr [plot (.str " 16K ")])])) =
      .ok { name := "all", plots := [c] } := rfl
  have hc := (hgives.read_iff (.str " 16K ") c).mpr ⟨some 16384, _, .text hsize, hrest, rfl⟩
  refine ⟨hc, hzero _ c hc, fun other hother => ?_, ?_, ?_, hinteger (2 ^ 64)⟩
  · obtain ⟨t, _, ht, _⟩ := (hgives.read_iff _ other).mp hother
    have hrefused := (hvalue (.int 0) t).mpr ht
    cases hrefused
  · exact hconfig .json _ _ hall
  · refine Option.eq_none_iff_forall_ne_some.mpr fun t ht => ?_
    have hchars : ∀ c ∈ ['1', 'e', '3'], Json.isNumeralChar c = true := List.all_eq_true.mp rfl
    obtain ⟨n, _, hn, _⟩ := (hnumeral ['1', 'e', '3'] (List.cons_ne_nil _ _) hchars t).mp ht
    -- a letter is no digit
    have hdigit : 'e' ∈ (toString n).toList := hn ▸ by simp
    have hspells := Text.spells_toString n
    rcases hspells.isDigit_or_eq_plus hdigit with h | h <;> exact absurd h (by decide)

end LatencyReport
