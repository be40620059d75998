import LatencyReport.Proofs.Text.Numeral
import LatencyReport.Text.Lowercase
import Mathlib.Data.List.Forall2

/-!
# `Proofs.Text.Lowercase` — what lower case leaves of a numeral

The lower case of a text is made of one image for each character. A character of ASCII has one of ASCII, and a
character beyond it has one beyond it, **but for two**: the kelvin sign, whose image is `k`, and the dotted capital I,
whose image starts with `i` (`Lowers`, `exists_images`). Neither is a digit or a sign, so a text and its lower case are
the same numeral, or fail to be one for the same reason (`readUInt64_flatten`).

Which form a sigma takes depends on its neighbours, and so the lower case of a part of a text need not be a part of its
lower case. The images are therefore kept apart, one for each character.

## Contents

* `Lowers`, `lowers_lower` — the image of one character;
* `exists_images` — the images of a text;
* `inNumeral`, `readDigits_flatten`, `readUInt64_flatten` — images and numerals.
-/

namespace LatencyReport.Text

/-! ## The image of a character -/

/-- What the image of a character can be. -/
inductive Lowers : Char → List Char → Prop where
  | ascii {c : Char} (hc : c.toNat < 0x80) : Lowers c [c.toLower]
  | dotted : Lowers '\u0130' ['i', '\u0307']
  | kelvin : Lowers '\u212a' ['k']
  | beyond {c d : Char} (hc : 0x80 ≤ c.toNat) (hkelvin : c ≠ '\u212a') (hd : 0x80 ≤ d.toNat) : Lowers c [d]

/-- A run that moves characters to characters beyond ASCII, and has no part in the kelvin sign. -/
def LowerStep.StaysBeyond (run : LowerStep) : Prop :=
  run.covers 0x212A = false ∧ 0x80 ≤ run.first + run.shift ∧
    (run.last + run.shift < 0xD800 ∨ 0xE000 ≤ run.first + run.shift ∧ run.last + run.shift < 0x110000)

instance (run : LowerStep) : Decidable run.StaysBeyond := by
  unfold LowerStep.StaysBeyond
  infer_instance

set_option maxRecDepth 4000 in
/-- **No run but that of the kelvin sign leads from beyond ASCII into it.** -/
theorem staysBeyond_of_mem :
    ∀ run ∈ lowerSteps, run.last < 0x80 ∨ (run.first = 0x212A ∧ run.last = 0x212A ∧ run.shift = -8383) ∨
      run.StaysBeyond := by
  decide

theorem toNat_ofNat {n : Nat} (h : n < 0xD800 ∨ 0xE000 ≤ n ∧ n < 0x110000) : (Char.ofNat n).toNat = n := by
  have hvalid : n.isValidChar := by
    rcases h with h | h
    · exact Or.inl h
    · exact Or.inr ⟨by omega, h.2⟩
  rw [Char.ofNat, dif_pos hvalid]
  rfl

/-- The image of a character that a run moves. -/
theorem lowers_of_covers {run : LowerStep} (hrun : run ∈ lowerSteps) {c : Char} (hcovers : run.covers c.toNat = true)
    (hc : 0x80 ≤ c.toNat) : Lowers c [Char.ofNat (c.toNat + run.shift).toNat] := by
  have hbounds := hcovers
  simp only [LowerStep.covers, Bool.and_eq_true, decide_eq_true_eq] at hbounds
  rcases staysBeyond_of_mem run hrun with hascii | ⟨hfirst, hlast, hshift⟩ | ⟨hother, hlow, hhigh⟩
  · omega
  · have hkelvin : c.toNat = '\u212a'.toNat := by
      show c.toNat = 0x212A
      omega
    rw [Char.toNat_inj.mp hkelvin, hshift]
    exact .kelvin
  · refine .beyond hc ?_ ?_
    · rintro rfl
      exact absurd (hcovers.symm.trans hother) (by decide)
    · rw [toNat_ofNat] <;> omega

/-- **The image of a character without its neighbours.** -/
theorem lowers_lower (c : Char) : Lowers c (lower c) := by
  unfold lower
  by_cases hascii : c.toNat < 0x80
  · rw [if_pos hascii]
    exact .ascii hascii
  · rw [if_neg hascii]
    by_cases hdotted : c.toNat = 0x130
    · rw [if_pos hdotted, Char.toNat_inj.mp (show c.toNat = '\u0130'.toNat from hdotted)]
      exact .dotted
    · rw [if_neg hdotted]
      cases hfind : lowerSteps.find? (·.covers c.toNat) with
      | some run =>
        have hcovers := List.find?_some hfind
        exact lowers_of_covers (List.mem_of_find?_eq_some hfind) hcovers (by omega)
      | none =>
        have hkelvin : c ≠ '\u212a' := by
          rintro rfl
          exact absurd hfind (by decide)
        exact .beyond (by omega) hkelvin (by omega)

/-! ## The images of a text -/

theorem exists_images_after (before s : List Char) :
    ∃ images, List.Forall₂ Lowers s images ∧ lowercaseAfter before s = images.flatten := by
  induction s generalizing before with
  | nil => exact ⟨[], .nil, rfl⟩
  | cons c rest ih =>
    obtain ⟨images, himages, hrest⟩ := ih (c :: before)
    have hcons : ∀ image, Lowers c image →
        ∃ all, List.Forall₂ Lowers (c :: rest) all ∧ image ++ lowercaseAfter (c :: before) rest = all.flatten :=
      fun image himage => ⟨image :: images, .cons himage himages, by rw [hrest, List.flatten_cons]⟩
    rw [lowercaseAfter]
    by_cases hsigma : c.toNat = 0x3A3
    · -- either form of the sigma is beyond ASCII
      have hform : ∀ d : Char, 0x80 ≤ d.toNat → Lowers c [d] := by
        refine fun d hd => .beyond (by omega) ?_ hd
        rintro rfl
        exact absurd hsigma (by decide)
      rw [if_pos hsigma]
      split
      · exact hcons _ (hform _ (by decide))
      · exact hcons _ (hform _ (by decide))
    · rw [if_neg hsigma]
      exact hcons _ (lowers_lower c)

/-- **The lower case of a text is an image for each of its characters**, in either of two parts of it. -/
theorem exists_images (front back : List Char) :
    ∃ fronts backs, List.Forall₂ Lowers front fronts ∧ List.Forall₂ Lowers back backs ∧
      lowercase (front ++ back) = fronts.flatten ++ backs.flatten := by
  obtain ⟨images, himages, hlower⟩ := exists_images_after [] (front ++ back)
  have hfront := List.forall₂_take front.length himages
  have hback := List.forall₂_drop front.length himages
  rw [List.take_left] at hfront
  rw [List.drop_left] at hback
  refine ⟨_, _, hfront, hback, ?_⟩
  rw [← List.flatten_append, List.take_append_drop]
  exact hlower

/-! ## Numerals -/

/-- What holds of all characters of ASCII holds of one. -/
theorem of_ascii {P : Char → Prop} (h : ∀ n < 0x80, P (Char.ofNat n)) {c : Char} (hc : c.toNat < 0x80) : P c := by
  rw [← Char.ofNat_toNat c]
  exact h _ hc

/-- A character of a numeral: a digit or a plus sign. -/
def inNumeral (c : Char) : Bool :=
  c.isDigit || c == '+'

theorem toNat_lt_of_inNumeral {c : Char} (h : inNumeral c = true) : c.toNat < 0x80 := by
  simp only [inNumeral, Bool.or_eq_true, Char.isDigit, Bool.and_eq_true, decide_eq_true_eq, beq_iff_eq] at h
  rcases h with ⟨_, hc⟩ | rfl
  · exact Nat.lt_of_le_of_lt (UInt32.le_iff_toNat_le.mp hc) (by decide)
  · decide

theorem toLower_inNumeral {c : Char} (hc : c.toNat < 0x80) :
    inNumeral c.toLower = inNumeral c ∧ (inNumeral c = true → c.toLower = c) :=
  of_ascii (P := fun c => inNumeral c.toLower = inNumeral c ∧ (inNumeral c = true → c.toLower = c)) (by decide) hc

/-- **A character of a numeral is its own image, and no other image starts with one.** -/
theorem Lowers.cases_inNumeral {c : Char} {image : List Char} (h : Lowers c image) :
    image = [c] ∨ inNumeral c = false ∧ ∃ first more, image = first :: more ∧ inNumeral first = false := by
  have hbeyond : ∀ {d : Char}, 0x80 ≤ d.toNat → inNumeral d = false := by
    intro d hd
    rw [← Bool.not_eq_true]
    exact fun hnumeral => absurd (toNat_lt_of_inNumeral hnumeral) (by omega)
  cases h with
  | ascii hc =>
    obtain ⟨hsame, hself⟩ := toLower_inNumeral hc
    cases hnumeral : inNumeral c with
    | true => exact Or.inl (by rw [hself hnumeral])
    | false => exact Or.inr ⟨rfl, _, _, rfl, hsame.trans hnumeral⟩
  | dotted => exact Or.inr ⟨by decide, 'i', _, rfl, by decide⟩
  | kelvin => exact Or.inr ⟨by decide, 'k', _, rfl, by decide⟩
  | beyond hc _ hd => exact Or.inr ⟨hbeyond hc, _, _, rfl, hbeyond hd⟩

/-- What is no character of a numeral is no digit. -/
theorem digitValue?_of_inNumeral {c : Char} (h : inNumeral c = false) : digitValue? c = none := by
  rw [inNumeral, Bool.or_eq_false_iff] at h
  rw [digitValue?_eq, if_neg (by simp [h.1])]

/-- **Digits are read, or refused, as their images are.** -/
theorem readDigits_flatten {s : List Char} {images : List (List Char)} (h : List.Forall₂ Lowers s images)
    (value : Nat) : readDigits value images.flatten = readDigits value s := by
  induction h generalizing value with
  | nil => rfl
  | cons himage _ ih =>
    rw [List.flatten_cons]
    rcases himage.cases_inNumeral with rfl | ⟨hother, first, more, rfl, hfirst⟩
    · rw [List.singleton_append, readDigits, readDigits]
      simp only [ih]
    · rw [List.cons_append, readDigits, readDigits, digitValue?_of_inNumeral hother, digitValue?_of_inNumeral hfirst]

/-- A text and its images are empty together. -/
theorem flatten_eq_nil_iff {s : List Char} {images : List (List Char)} (h : List.Forall₂ Lowers s images) :
    images.flatten = [] ↔ s = [] := by
  cases h with
  | nil => simp
  | cons himage _ => rcases himage.cases_inNumeral with rfl | ⟨_, first, more, rfl, _⟩ <;> simp

/-- **A text and its lower case are the same numeral**, or fail to be one for the same reason. -/
theorem readUInt64_flatten {s : List Char} {images : List (List Char)} (h : List.Forall₂ Lowers s images) :
    readUInt64 images.flatten = readUInt64 s := by
  have hdigits := readDigits_flatten h 0
  cases h with
  | nil => rfl
  | @cons c image rest images himage hrest =>
    rw [List.flatten_cons] at hdigits ⊢
    rcases himage.cases_inNumeral with rfl | ⟨hother, first, more, rfl, hfirst⟩
    · rw [List.singleton_append] at hdigits ⊢
      by_cases hsign : c = '+'
      · subst hsign
        by_cases hempty : rest = []
        · rw [hempty, (flatten_eq_nil_iff hrest).mpr hempty]
        · rw [readUInt64_plus hempty, readUInt64_plus (mt (flatten_eq_nil_iff hrest).mp hempty),
            readDigits_flatten hrest]
      · rw [readUInt64_cons hsign, readUInt64_cons hsign, hdigits]
    · have hsign : ∀ {d : Char}, inNumeral d = false → d ≠ '+' := by
        rintro d hd rfl
        exact absurd hd (by decide)
      rw [List.cons_append] at hdigits ⊢
      rw [readUInt64_cons (hsign hother), readUInt64_cons (hsign hfirst), hdigits]

end LatencyReport.Text
