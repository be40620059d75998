import LatencyReport.FileError
import LatencyReport.Proofs.Text.Numeral
import Mathlib.Algebra.Group.Nat.Defs
import Mathlib.Data.List.TakeWhile
import Mathlib.Tactic.ByContra

/-!
# `Proofs.Experiment.FileName` — the names of results files

A name is read from its end: the ending, the message size, and the stem that is left. Each of these can be wrong, and
**the first that is wrong is told** (`Refused`). Stems hold underscores and one of them starts another, but the size
holds none, so a name can be cut in one way only (`IsCut`) and what it tells is decided by its two parts
(`classify_of_isCut`). The name that is written for an experiment is one of those that tell it; a size with leading
zeros or a plus sign makes further ones.

## Contents

* `IsCut`, `IsCut.unique` — a name with its last underscore; `noEnding_or_noUnderscore_or_isCut` — finding it;
* `ofStem?_eq_some_iff` — a stem tells one label;
* `classify_of_isCut` — what the two parts of a name tell;
* `Refused`, `classify_eq_error_iff`, `classify_eq_ok_iff` — what a name tells;
* `classify_grammar` — all of it, and the names that are written.
-/

namespace LatencyReport.Experiment

/-! ## The ending -/

/-- The ending of the names of results files. -/
def txtEnding : List Char := ['.', 't', 'x', 't']

theorem beforeEnding?_eq_some_iff {ending s text : List Char} :
    beforeEnding? ending s = some text ↔ s = text ++ ending := by
  unfold beforeEnding?
  constructor
  · intro h
    split at h
    · rename_i hsuffix
      obtain ⟨front, rfl⟩ := List.isSuffixOf_iff_suffix.mp hsuffix
      have htake : (front ++ ending).take ((front ++ ending).length - ending.length) = front := by simp
      rw [htake] at h
      rw [Option.some.inj h]
    · cases h
  · rintro rfl
    rw [if_pos (List.isSuffixOf_iff_suffix.mpr ⟨text, rfl⟩)]
    simp

theorem beforeEnding?_eq_none_iff {ending s : List Char} :
    beforeEnding? ending s = none ↔ ∀ text, s ≠ text ++ ending := by
  constructor
  · intro h text hs
    rw [beforeEnding?_eq_some_iff.mpr hs] at h
    cases h
  · intro h
    cases hbefore : beforeEnding? ending s with
    | none => rfl
    | some text => exact absurd (beforeEnding?_eq_some_iff.mp hbefore) (h text)

/-! ## The last underscore -/

theorem splitAtLastUnderscore?_append {before after : List Char} (h : '_' ∉ after) :
    splitAtLastUnderscore? (before ++ '_' :: after) = some (before, after) := by
  have hkeep : ∀ c ∈ after.reverse, decide (c ≠ '_') = true := by
    intro c hc
    have hne : c ≠ '_' := fun heq => h (List.mem_reverse.mp (heq ▸ hc))
    exact decide_eq_true hne
  have hreverse : (before ++ '_' :: after).reverse = after.reverse ++ '_' :: before.reverse := by simp
  unfold splitAtLastUnderscore?
  rw [hreverse, List.dropWhile_append_of_pos hkeep, List.takeWhile_append_of_pos hkeep]
  simp

/-- A text holds no underscore, or it is cut at its last one. -/
theorem not_mem_or_exists_last (s : List Char) :
    '_' ∉ s ∨ ∃ before after, s = before ++ '_' :: after ∧ '_' ∉ after := by
  induction s with
  | nil => exact Or.inl List.not_mem_nil
  | cons c rest ih =>
    rcases ih with hrest | ⟨before, after, rfl, hafter⟩
    · by_cases hc : c = '_'
      · exact Or.inr ⟨[], rest, by rw [hc, List.nil_append], hrest⟩
      · refine Or.inl fun hmem => ?_
        rcases List.mem_cons.mp hmem with heq | htail
        · exact hc heq.symm
        · exact hrest htail
    · exact Or.inr ⟨c :: before, after, rfl, hafter⟩

theorem splitAtLastUnderscore?_eq_none {s : List Char} (h : '_' ∉ s) : splitAtLastUnderscore? s = none := by
  have hall : ∀ c ∈ s.reverse, decide (c ≠ '_') = true := by
    intro c hc
    have hne : c ≠ '_' := fun heq => h (List.mem_reverse.mp (heq ▸ hc))
    exact decide_eq_true hne
  unfold splitAtLastUnderscore?
  rw [List.dropWhile_eq_nil_iff.mpr hall]

/-! ## Names that are cut -/

/-- A name is cut into a stem and a size: they stand around its last underscore, in front of the ending. -/
structure IsCut (name stem size : String) : Prop where
  name_eq : name = stem ++ "_" ++ size ++ ".txt"
  last : '_' ∉ size.toList

theorem toList_cut (stem size : String) :
    (stem ++ "_" ++ size ++ ".txt").toList = (stem.toList ++ '_' :: size.toList) ++ txtEnding := by
  simp [String.toList_append, txtEnding]

theorem toList_eq_append_txtEnding_iff {name text : String} :
    name.toList = text.toList ++ txtEnding ↔ name = text ++ ".txt" := by
  rw [← String.toList_inj, String.toList_append]
  rfl

/-- The characters of a numeral hold no underscore. -/
theorem not_mem_of_spells {text : List Char} {n : Nat} (h : Text.Spells text n) : '_' ∉ text := by
  intro hmem
  rcases h.isDigit_or_eq_plus hmem with hdigit | hplus
  · exact absurd hdigit (by decide)
  · exact absurd hplus (by decide)

/-- **A name is cut in one way.** -/
theorem IsCut.unique {name stem₁ size₁ stem₂ size₂ : String} (h₁ : IsCut name stem₁ size₁)
    (h₂ : IsCut name stem₂ size₂) : stem₁ = stem₂ ∧ size₁ = size₂ := by
  have hnames : (stem₁ ++ "_" ++ size₁ ++ ".txt").toList = (stem₂ ++ "_" ++ size₂ ++ ".txt").toList := by
    rw [← h₁.name_eq, ← h₂.name_eq]
  rw [toList_cut, toList_cut] at hnames
  have hsplit := @splitAtLastUnderscore?_append stem₁.toList _ h₁.last
  rw [List.append_cancel_right hnames, splitAtLastUnderscore?_append h₂.last, Option.some.injEq, Prod.mk.injEq] at hsplit
  exact ⟨String.toList_inj.mp hsplit.1.symm, String.toList_inj.mp hsplit.2.symm⟩

/-- A name has no ending, or no underscore before it, or it is cut. -/
theorem noEnding_or_noUnderscore_or_isCut (name : String) :
    (∀ text : String, name ≠ text ++ ".txt") ∨ (∃ text : String, name = text ++ ".txt" ∧ '_' ∉ text.toList) ∨
      ∃ stem size, IsCut name stem size := by
  by_cases hending : ∃ text : String, name = text ++ ".txt"
  · obtain ⟨text, hname⟩ := hending
    rcases not_mem_or_exists_last text.toList with hnone | ⟨before, after, htext, hafter⟩
    · exact Or.inr (Or.inl ⟨text, hname, hnone⟩)
    · refine Or.inr (Or.inr ⟨String.ofList before, String.ofList after, ?_, ?_⟩)
      · rw [← String.toList_inj, toList_cut, String.toList_ofList, String.toList_ofList, hname, String.toList_append, htext]
        rfl
      · rw [String.toList_ofList]
        exact hafter
  · exact Or.inl fun text hname => hending ⟨text, hname⟩

/-! ## Labels -/

/-- **A stem tells one label**, the one whose stem it is. -/
theorem ofStem?_eq_some_iff {stem : String} {label : Label} : Label.ofStem? stem = some label ↔ label.stem = stem := by
  constructor
  · intro h
    simpa using List.find?_some h
  · rintro rfl
    cases label <;> rfl

theorem ofStem?_eq_none_iff {stem : String} : Label.ofStem? stem = none ↔ ∀ label : Label, label.stem ≠ stem := by
  constructor
  · intro h label hlabel
    rw [ofStem?_eq_some_iff.mpr hlabel] at h
    cases h
  · intro h
    cases hstem : Label.ofStem? stem with
    | none => rfl
    | some label => exact absurd (ofStem?_eq_some_iff.mp hstem) (h label)

/-! ## What a name tells -/

/-- What is told of a name that is cut: of its size first, and then of its stem. -/
theorem classify_of_isCut {name stem size : String} (h : IsCut name stem size) :
    classify name =
      match Text.readUInt64 size.toList with
      | .error _ => .error (.badName name .sizeNotInteger)
      | .ok n =>
        if n = 0 then .error (.badName name .sizeNotPositive)
        else
          match Label.ofStem? stem with
          | none => .error (.unknownLabel name stem)
          | some label => .ok ⟨label, n⟩ := by
  have hname : name.toList = (stem.toList ++ '_' :: size.toList) ++ txtEnding := by rw [h.name_eq, toList_cut]
  unfold classify ofFileName
  rw [show ['.', 't', 'x', 't'] = txtEnding from rfl, beforeEnding?_eq_some_iff.mpr hname]
  simp only [splitAtLastUnderscore?_append h.last, String.ofList_toList]
  cases Text.readUInt64 size.toList with
  | error fault => rfl
  | ok n =>
    by_cases hzero : n = 0
    · simp only [if_pos hzero]
    · simp only [if_neg hzero]
      cases Label.ofStem? stem <;> rfl

/-- Why a name tells no experiment: the first of these that applies. -/
inductive Refused (name : String) : FileError → Prop
  | noTxtEnding (h : ∀ text : String, name ≠ text ++ ".txt") : Refused name (.badName name .noTxtEnding)
  | noSizeSuffix {text : String} (h : name = text ++ ".txt") (hnone : '_' ∉ text.toList) :
      Refused name (.badName name .noSizeSuffix)
  | sizeNotInteger {stem size : String} (h : IsCut name stem size)
      (hsize : ∀ n, Text.Spells size.toList n → 2 ^ 64 ≤ n) : Refused name (.badName name .sizeNotInteger)
  | sizeNotPositive {stem size : String} (h : IsCut name stem size) (hsize : Text.Spells size.toList 0) :
      Refused name (.badName name .sizeNotPositive)
  | unknownLabel {stem size : String} {n : Nat} (h : IsCut name stem size) (hsize : Text.Spells size.toList n)
      (hpos : 0 < n) (hlt : n < 2 ^ 64) (hstem : ∀ label : Label, label.stem ≠ stem) :
      Refused name (.unknownLabel name stem)

theorem classify_of_noTxtEnding {name : String} (h : ∀ text : String, name ≠ text ++ ".txt") :
    classify name = .error (.badName name .noTxtEnding) := by
  have hnone : beforeEnding? txtEnding name.toList = none := by
    refine beforeEnding?_eq_none_iff.mpr fun text htext => h (String.ofList text) ?_
    rwa [← toList_eq_append_txtEnding_iff, String.toList_ofList]
  unfold classify ofFileName
  rw [show ['.', 't', 'x', 't'] = txtEnding from rfl, hnone]

theorem classify_of_noSizeSuffix {name text : String} (h : name = text ++ ".txt") (hnone : '_' ∉ text.toList) :
    classify name = .error (.badName name .noSizeSuffix) := by
  unfold classify ofFileName
  rw [show ['.', 't', 'x', 't'] = txtEnding from rfl,
    beforeEnding?_eq_some_iff.mpr (toList_eq_append_txtEnding_iff.mpr h)]
  simp only [splitAtLastUnderscore?_eq_none hnone]

/-- The size of a name that is cut is no integer, or zero, or an experiment's; then the stem decides. -/
theorem classify_of_spells {name stem size : String} {n : UInt64} (h : IsCut name stem size)
    (hsize : Text.Spells size.toList n.toNat) (hpos : 0 < n) :
    classify name =
      match Label.ofStem? stem with
      | none => .error (.unknownLabel name stem)
      | some label => .ok ⟨label, n⟩ := by
  have hne : n ≠ 0 := fun hzero => absurd hpos (by rw [hzero]; decide)
  rw [classify_of_isCut h, Text.readUInt64_eq_ok_iff.mpr hsize]
  simp only [if_neg hne]

/-- **A name is refused for the first thing that is wrong with it**, and otherwise tells an experiment. -/
theorem classify_of_refused {name : String} {cause : FileError} (h : Refused name cause) :
    classify name = .error cause := by
  cases h with
  | noTxtEnding h => exact classify_of_noTxtEnding h
  | noSizeSuffix h hnone => exact classify_of_noSizeSuffix h hnone
  | sizeNotInteger h hsize =>
    obtain ⟨fault, hfault⟩ := Text.readUInt64_eq_error_iff.mpr hsize
    rw [classify_of_isCut h, hfault]
  | @sizeNotPositive stem size h hsize =>
    have hzero : Text.readUInt64 size.toList = .ok 0 := Text.readUInt64_eq_ok_iff.mpr hsize
    rw [classify_of_isCut h, hzero]
    rfl
  | @unknownLabel stem size n h hsize hpos hlt hstem =>
    have hn : (UInt64.ofNat n).toNat = n := UInt64.toNat_ofNat_of_lt' hlt
    have hspells : Text.Spells size.toList (UInt64.ofNat n).toNat := by rwa [hn]
    have hpos' : 0 < UInt64.ofNat n := by
      rw [UInt64.lt_iff_toNat_lt, hn]
      exact hpos
    rw [classify_of_spells h hspells hpos', ofStem?_eq_none_iff.mpr hstem]

/-- **A name tells an experiment if it is written so**: the label's stem, an underscore, a numeral of the size, and the
    ending. -/
theorem classify_of_name (label : Label) {size : UInt64} (hpos : 0 < size) {numeral : String}
    (hspells : Text.Spells numeral.toList size.toNat) :
    classify (label.stem ++ "_" ++ numeral ++ ".txt") = .ok ⟨label, size⟩ := by
  have hcut : IsCut (label.stem ++ "_" ++ numeral ++ ".txt") label.stem numeral := ⟨rfl, not_mem_of_spells hspells⟩
  rw [classify_of_spells hcut hspells hpos, ofStem?_eq_some_iff.mpr rfl]

/-- Every name is refused for a cause, or is the name of an experiment. -/
theorem refused_or_name (name : String) :
    (∃ cause, Refused name cause) ∨
      ∃ (label : Label) (size : UInt64) (numeral : String), 0 < size ∧ Text.Spells numeral.toList size.toNat ∧
        name = label.stem ++ "_" ++ numeral ++ ".txt" := by
  rcases noEnding_or_noUnderscore_or_isCut name with hending | ⟨text, htext, hnone⟩ | ⟨stem, size, hcut⟩
  · exact Or.inl ⟨_, .noTxtEnding hending⟩
  · exact Or.inl ⟨_, .noSizeSuffix htext hnone⟩
  · by_cases hread : ∃ n < 2 ^ 64, Text.Spells size.toList n
    · obtain ⟨n, hlt, hspells⟩ := hread
      rcases Nat.eq_zero_or_pos n with rfl | hpos
      · exact Or.inl ⟨_, .sizeNotPositive hcut hspells⟩
      · by_cases hstem : ∃ label : Label, label.stem = stem
        · obtain ⟨label, rfl⟩ := hstem
          have hn : (UInt64.ofNat n).toNat = n := UInt64.toNat_ofNat_of_lt' hlt
          refine Or.inr ⟨label, UInt64.ofNat n, size, ?_, by rwa [hn], hcut.name_eq⟩
          rw [UInt64.lt_iff_toNat_lt, hn]
          exact hpos
        · exact Or.inl ⟨_, .unknownLabel hcut hspells hpos hlt fun label hlabel => hstem ⟨label, hlabel⟩⟩
    · refine Or.inl ⟨_, .sizeNotInteger hcut fun n hspells => ?_⟩
      by_contra hlt
      exact hread ⟨n, Nat.not_le.mp hlt, hspells⟩

theorem classify_eq_error_iff {name : String} {cause : FileError} :
    classify name = .error cause ↔ Refused name cause := by
  refine ⟨fun h => ?_, classify_of_refused⟩
  rcases refused_or_name name with ⟨other, hother⟩ | ⟨label, size, numeral, hpos, hspells, rfl⟩
  · rw [classify_of_refused hother, Except.error.injEq] at h
    exact h ▸ hother
  · rw [classify_of_name label hpos hspells] at h
    cases h

theorem classify_eq_ok_iff {name : String} {label : Label} {size : UInt64} :
    classify name = .ok ⟨label, size⟩ ↔
      0 < size ∧ ∃ numeral : String, Text.Spells numeral.toList size.toNat ∧
        name = label.stem ++ "_" ++ numeral ++ ".txt" := by
  constructor
  · intro h
    rcases refused_or_name name with ⟨cause, hcause⟩ | ⟨other, n, numeral, hpos, hspells, rfl⟩
    · rw [classify_of_refused hcause] at h
      cases h
    · rw [classify_of_name other hpos hspells, Except.ok.injEq, Experiment.mk.injEq] at h
      obtain ⟨rfl, rfl⟩ := h
      exact ⟨hpos, numeral, hspells, rfl⟩
  · rintro ⟨hpos, numeral, hspells, rfl⟩
    exact classify_of_name label hpos hspells

/-- **Names and experiments.** A name tells an experiment exactly when it is the label's stem, an underscore, a numeral
    of the positive size and the ending. Every other name is refused, with the name itself and the first thing that is
    wrong with it. The name that is written for an experiment tells it. -/
theorem classify_grammar (name : String) :
    (∀ label size, classify name = .ok ⟨label, size⟩ ↔
        0 < size ∧ ∃ numeral : String, Text.Spells numeral.toList size.toNat ∧
          name = label.stem ++ "_" ++ numeral ++ ".txt") ∧
      (∀ cause, classify name = .error cause ↔ Refused name cause) ∧
      ∀ label size, 0 < size → classify (fileNameFor label size) = .ok ⟨label, size⟩ := by
  refine ⟨fun label size => classify_eq_ok_iff, fun cause => classify_eq_error_iff, fun label size hpos => ?_⟩
  exact classify_of_name label hpos (Text.spells_toString size)

/-- The greatest size, with a sign and a zero in front, and a stem that starts with another one. -/
theorem classify_grammar_greatest :
    (0 : UInt64) < 18446744073709551615 ∧
      classify "rdma_send_recv_c_+018446744073709551615.txt" = .ok ⟨.rdmaSendRecvC, 18446744073709551615⟩ ∧
      classify (fileNameFor .rdmaSendRecvC 18446744073709551615) = .ok ⟨.rdmaSendRecvC, 18446744073709551615⟩ := by
  obtain ⟨htells, _, hwritten⟩ := classify_grammar "rdma_send_recv_c_+018446744073709551615.txt"
  have hpos : (0 : UInt64) < 18446744073709551615 := by decide
  refine ⟨hpos, (htells _ _).mpr ⟨hpos, "+018446744073709551615", ?_, rfl⟩, hwritten _ _ hpos⟩
  exact ⟨"018446744073709551615".toList, Or.inr rfl, by decide, List.all_eq_true.mp rfl, by decide⟩

end LatencyReport.Experiment
