import LatencyReport.Proofs.Text.Split
import LatencyReport.Text.Blank
import LatencyReport.Text.Utf8

/-!
# `Proofs.Text.Utf8` — which bytes are text

Reading bytes as UTF-8 inverts writing text as UTF-8: **bytes decode to a text exactly when they are the bytes of
that text** (`decode_eq_ok_iff`). So whether bytes are text, and which, is a question about `encode` alone, which is
a `flatMap` and has no state.

A byte below `0x80` occurs in no character but its own. Cutting and trimming at such bytes therefore never tears a
character apart, and may be done on the bytes or on the text.

## Contents

* `nextChar?_eq_some_iff`, `decode_eq_ok_iff` — reading inverts writing;
* `SameTest` — a test on bytes and a test on characters that say the same; cutting and trimming by either;
* `IsText`, `IsTextOf` — bytes that are text, and text of certain characters;
* `isText_append_small`, `isText_trimWith` — bytes between which a small byte stands are text one by one.
-/

namespace LatencyReport.Utf8

/-! ## Reading inverts writing -/

@[simp] theorem encode_nil : encode [] = [] := rfl

@[simp] theorem encode_cons (c : Char) (s : List Char) : encode (c :: s) = String.utf8EncodeChar c ++ encode s := by
  simp [encode]

@[simp] theorem encode_append (s t : List Char) : encode (s ++ t) = encode s ++ encode t := by
  simp [encode]

/-- The character that bytes start with is the one whose bytes they start with. -/
theorem nextChar?_eq_some_iff {bytes : List UInt8} {c : Char} :
    nextChar? bytes = some c ↔ ∃ rest, bytes = String.utf8EncodeChar c ++ rest := by
  constructor
  · intro h
    obtain ⟨more, hmore⟩ := ByteArray.exists_of_utf8DecodeChar?_eq_some h
    have htake : bytes.take 4 = String.utf8EncodeChar c ++ more.data.toList := by
      rw [← List.toByteArray_inj, hmore, List.toByteArray_append]
      congr 1
      exact ByteArray.ext (by rw [List.data_toByteArray, Array.toArray_toList])
    refine ⟨more.data.toList ++ bytes.drop 4, ?_⟩
    rw [← List.append_assoc, ← htake, List.take_append_drop]
  · rintro ⟨rest, rfl⟩
    have hlen : (String.utf8EncodeChar c).length ≤ 4 := by
      rw [String.length_utf8EncodeChar]
      exact c.utf8Size_le_four
    rw [nextChar?, List.take_append, List.take_of_length_le hlen, List.toByteArray_append]
    exact ByteArray.utf8DecodeChar?_utf8EncodeChar_append

/-- The bytes of a character are read as that character, and what follows them is read next. -/
theorem decodeFrom_encodeChar_append (offset : Nat) (c : Char) (rest : List UInt8) :
    decodeFrom offset 0 (String.utf8EncodeChar c ++ rest) =
      (decodeFrom (offset + c.utf8Size) 0 rest).map (c :: ·) := by
  obtain ⟨b, more, hb⟩ := List.exists_cons_of_ne_nil (String.utf8EncodeChar_ne_nil (c := c))
  have hnext : nextChar? (b :: (more ++ rest)) = some c :=
    nextChar?_eq_some_iff.mpr ⟨rest, by rw [hb, List.cons_append]⟩
  have hsize : c.utf8Size = more.length + 1 := by
    rw [← String.length_utf8EncodeChar, hb, List.length_cons]
  rw [hb, List.cons_append, decodeFrom, hnext]
  simp only [hsize, Nat.add_sub_cancel]
  rw [decodeFrom_skip _ _ _ (by simp), List.drop_left, Nat.add_assoc, Nat.add_comm 1]

theorem decodeFrom_encode (offset : Nat) (s : List Char) : decodeFrom offset 0 (encode s) = .ok s := by
  induction s generalizing offset with
  | nil => rfl
  | cons c s ih =>
    rw [encode_cons, decodeFrom_encodeChar_append, ih]
    rfl

theorem eq_encode_of_decodeFrom {offset : Nat} {bytes : List UInt8} {s : List Char}
    (h : decodeFrom offset 0 bytes = .ok s) : bytes = encode s := by
  -- on the text, not on the bytes: one character of it takes several bytes away
  induction s generalizing offset bytes with
  | nil =>
    cases bytes with
    | nil => rfl
    | cons b rest =>
      rw [decodeFrom] at h
      cases hnext : nextChar? (b :: rest) with
      | none => simp [hnext] at h
      | some c =>
        cases hrest : decodeFrom (offset + 1) (c.utf8Size - 1) rest <;> simp [hnext, hrest, Except.map] at h
  | cons c s ih =>
    cases bytes with
    | nil => simp [decodeFrom] at h
    | cons b rest =>
      cases hnext : nextChar? (b :: rest) with
      | none => simp [decodeFrom, hnext] at h
      | some d =>
        obtain ⟨more, hmore⟩ := nextChar?_eq_some_iff.mp hnext
        rw [hmore, decodeFrom_encodeChar_append] at h
        cases hrest : decodeFrom (offset + d.utf8Size) 0 more with
        | error e => simp [hrest, Except.map] at h
        | ok t =>
          simp only [hrest, Except.map, Except.ok.injEq, List.cons.injEq] at h
          obtain ⟨rfl, rfl⟩ := h
          rw [hmore, encode_cons, ih hrest]

/-- **Bytes decode to a text exactly when they are the bytes of that text.** -/
theorem decode_eq_ok_iff {bytes : List UInt8} {s : List Char} : decode bytes = .ok s ↔ bytes = encode s := by
  constructor
  · exact eq_encode_of_decodeFrom
  · rintro rfl
    exact decodeFrom_encode 0 s

@[simp] theorem decode_encode (s : List Char) : decode (encode s) = .ok s := decode_eq_ok_iff.mpr rfl

theorem encode_injective {s t : List Char} (h : encode s = encode t) : s = t := by
  have hs := decode_encode s
  rw [h, decode_encode t] at hs
  exact (Except.ok.inj hs).symm

/-! ## Small bytes -/

/-- **A byte below `0x80` occurs in no character but its own.** -/
theorem encodeChar_of_small_mem {b : UInt8} {c : Char} (hb : b.toNat < 128) (h : b ∈ String.utf8EncodeChar c) :
    String.utf8EncodeChar c = [b] := by
  -- every byte of a longer encoding is at least `0x80`
  have high : ∀ v k : Nat, 128 ≤ k → v + k < 256 → b ≠ UInt8.ofNat (v + k) := by
    intro v k hk hlt heq
    have hbyte := congrArg UInt8.toNat heq
    rw [UInt8.toNat_ofNat'] at hbyte
    omega
  revert h
  fun_cases String.utf8EncodeChar c <;> intro h <;> simp only [List.mem_cons, List.not_mem_nil, or_false] at h
  · rw [h]
  · rcases h with h | h <;> exact absurd h (high _ _ (by decide) (by omega))
  · rcases h with h | h | h <;> exact absurd h (high _ _ (by decide) (by omega))
  · rcases h with h | h | h | h <;> exact absurd h (high _ _ (by decide) (by omega))

/-- A test on bytes and a test on characters that say the same: a character passes exactly when it is one byte and
    that byte passes, and no byte of any other character passes. -/
structure SameTest (onBytes : UInt8 → Bool) (onChars : Char → Bool) : Prop where
  pass : ∀ c, onChars c = true → ∃ b, String.utf8EncodeChar c = [b] ∧ onBytes b = true
  fail : ∀ c, onChars c = false → ∀ b ∈ String.utf8EncodeChar c, onBytes b = false

/-- Tests of small bytes are tests of characters. -/
theorem SameTest.of_small {onBytes : UInt8 → Bool} {onChars : Char → Bool}
    (hsmall : ∀ b, onBytes b = true → b.toNat < 128)
    (hpass : ∀ c, onChars c = true → ∃ b, String.utf8EncodeChar c = [b] ∧ onBytes b = true)
    (hback : ∀ c b, String.utf8EncodeChar c = [b] → onBytes b = true → onChars c = true) :
    SameTest onBytes onChars := by
  refine ⟨hpass, fun c hc b hb => ?_⟩
  cases hbyte : onBytes b with
  | false => rfl
  | true =>
    have hone := encodeChar_of_small_mem (hsmall b hbyte) hb
    rw [hback c b hone hbyte] at hc
    exact absurd hc (by simp)

/-- To be one small byte is to be one character. -/
theorem SameTest.of_eq {b : UInt8} {c : Char} (hb : b.toNat < 128) (hc : String.utf8EncodeChar c = [b]) :
    SameTest (· == b) (· == c) := by
  refine .of_small ?_ ?_ ?_
  · intro x hx
    rw [beq_iff_eq.mp hx]
    exact hb
  · intro d hd
    rw [beq_iff_eq.mp hd]
    exact ⟨b, hc, beq_self_eq_true b⟩
  · intro d x hone hx
    rw [beq_iff_eq.mp hx] at hone
    have hsame : encode [d] = encode [c] := by
      rw [encode_cons, encode_cons, hone, hc]
    simpa using encode_injective hsame

variable {onBytes : UInt8 → Bool} {onChars : Char → Bool}

theorem SameTest.fail_encode (h : SameTest onBytes onChars) {s : List Char} (hs : ∀ c ∈ s, onChars c = false) :
    ∀ b ∈ encode s, onBytes b = false := by
  intro b hb
  obtain ⟨c, hc, hbc⟩ := List.mem_flatMap.mp hb
  exact h.fail c (hs c hc) b hbc

/-- The byte of a character that is not in a text is not among the text's bytes. -/
theorem not_mem_encode {c : Char} {b : UInt8} (hb : b.toNat < 128) (hc : String.utf8EncodeChar c = [b])
    {s : List Char} (h : c ∉ s) : b ∉ encode s := by
  intro hmem
  have hno : ∀ other ∈ s, (other == c) = false := by
    intro other hother
    rw [beq_eq_false_iff_ne]
    rintro rfl
    exact h hother
  simpa using (SameTest.of_eq hb hc).fail_encode hno b hmem

/-- **Cutting the bytes of a text is cutting the text.** -/
theorem SameTest.splitWith_encode (h : SameTest onBytes onChars) (s : List Char) :
    Text.splitWith onBytes (encode s) = (Text.splitWith onChars s).map encode := by
  induction s using Text.splitInduction onChars with
  | last piece hp =>
    rw [Text.splitWith_of_forall_not hp, Text.splitWith_of_forall_not (h.fail_encode hp)]
    rfl
  | mark piece c rest hp hc ih =>
    obtain ⟨b, hb, hpass⟩ := h.pass c hc
    rw [encode_append, encode_cons, hb, List.singleton_append, Text.splitWith_piece_mark (h.fail_encode hp) hpass,
      Text.splitWith_piece_mark hp hc, ih, List.map_cons]

theorem SameTest.dropWhile_encode (h : SameTest onBytes onChars) (s : List Char) :
    (encode s).dropWhile onBytes = encode (s.dropWhile onChars) := by
  induction s with
  | nil => rfl
  | cons c s ih =>
    by_cases hc : onChars c = true
    · obtain ⟨b, hb, hpass⟩ := h.pass c hc
      rw [encode_cons, hb, List.singleton_append, List.dropWhile_cons_of_pos hpass, List.dropWhile_cons_of_pos hc, ih]
    · obtain ⟨b, more, hb⟩ := List.exists_cons_of_ne_nil (String.utf8EncodeChar_ne_nil (c := c))
      have hfail : ¬onBytes b = true := by
        simp [h.fail c (by simpa using hc) b (hb ▸ List.mem_cons_self)]
      rw [List.dropWhile_cons_of_neg hc, encode_cons, hb, List.cons_append, List.dropWhile_cons_of_neg hfail]

theorem SameTest.rdropWhile_encode (h : SameTest onBytes onChars) (s : List Char) :
    (encode s).rdropWhile onBytes = encode (s.rdropWhile onChars) := by
  induction s using List.reverseRecOn with
  | nil => rfl
  | append_singleton s c ih =>
    by_cases hc : onChars c = true
    · obtain ⟨b, hb, hpass⟩ := h.pass c hc
      rw [encode_append, encode_cons, encode_nil, hb, List.append_nil, List.rdropWhile_concat_pos _ _ _ hpass,
        List.rdropWhile_concat_pos _ _ _ hc, ih]
    · have hne := String.utf8EncodeChar_ne_nil (c := c)
      have hfail : ¬onBytes ((String.utf8EncodeChar c).getLast hne) = true := by
        simp [h.fail c (by simpa using hc) _ (List.getLast_mem hne)]
      rw [List.rdropWhile_concat_neg _ _ _ hc, encode_append, encode_cons, encode_nil, List.append_nil,
        ← List.dropLast_append_getLast hne, ← List.append_assoc, List.rdropWhile_concat_neg _ _ _ hfail]

/-- **Trimming the bytes of a text is trimming the text.** -/
theorem SameTest.trimWith_encode (h : SameTest onBytes onChars) (s : List Char) :
    Text.trimWith onBytes (encode s) = encode (Text.trimWith onChars s) := by
  rw [Text.trimWith_eq, h.dropWhile_encode, h.rdropWhile_encode, Text.trimWith_eq]

/-! ## Bytes that are text -/

/-- Bytes that are text. -/
def IsText (bytes : List UInt8) : Prop :=
  ∃ s, bytes = encode s

/-- Bytes that are a text of characters that pass a test. -/
def IsTextOf (p : Char → Bool) (bytes : List UInt8) : Prop :=
  ∃ s, bytes = encode s ∧ ∀ c ∈ s, p c = true

theorem isTextOf_encode {p : Char → Bool} {s : List Char} : IsTextOf p (encode s) ↔ ∀ c ∈ s, p c = true := by
  constructor
  · rintro ⟨t, hst, ht⟩
    rwa [encode_injective hst]
  · intro h
    exact ⟨s, rfl, h⟩

theorem IsTextOf.isText {p : Char → Bool} {bytes : List UInt8} (h : IsTextOf p bytes) : IsText bytes := by
  obtain ⟨s, hs, _⟩ := h
  exact ⟨s, hs⟩

/-- A byte below `0x80` is the character of the same number. -/
theorem encode_ofNat_of_small {b : UInt8} (hb : b.toNat < 128) : encode [Char.ofNat b.toNat] = [b] := by
  have hval : (Char.ofNat b.toNat).val.toNat = b.toNat := by
    have hvalid : b.toNat.isValidChar := Or.inl (by omega)
    rw [Char.ofNat, dif_pos hvalid]
    rfl
  rw [encode_cons, encode_nil, List.append_nil, String.utf8EncodeChar]
  simp only [hval]
  rw [if_pos (by omega), UInt8.ofNat_toNat]

/-- **Bytes on either side of a byte below `0x80` are text one by one.** -/
theorem isText_append_small {b : UInt8} (hb : b.toNat < 128) (xs ys : List UInt8) :
    IsText (xs ++ b :: ys) ↔ IsText xs ∧ IsText ys := by
  constructor
  · rintro ⟨s, hs⟩
    induction s generalizing xs with
    | nil => simp at hs
    | cons c s ih =>
      rw [encode_cons] at hs
      -- the first character reaches to the small byte or past it, or ends before it
      rcases List.append_eq_append_iff.mp hs with ⟨more, hc, hrest⟩ | ⟨more, hxs, hrest⟩
      · cases more with
        | nil =>
          obtain ⟨_, hy⟩ := ih [] (by rw [List.nil_append, hrest, List.nil_append])
          exact ⟨⟨[c], by simpa using hc.symm⟩, hy⟩
        | cons first more =>
          -- the character reaches to the small byte, so it is that byte
          simp only [List.cons_append, List.cons.injEq] at hrest
          obtain ⟨rfl, rfl⟩ := hrest
          have hone := encodeChar_of_small_mem hb (by rw [hc]; simp)
          rw [hc] at hone
          have hlen := congrArg List.length hone
          simp only [List.length_append, List.length_cons, List.length_nil] at hlen
          have hxs : xs = [] := List.length_eq_zero_iff.mp (by omega)
          have hmore : more = [] := List.length_eq_zero_iff.mp (by omega)
          exact ⟨⟨[], hxs⟩, ⟨s, by rw [hmore, List.nil_append]⟩⟩
      · obtain ⟨⟨t, ht⟩, hy⟩ := ih more hrest.symm
        exact ⟨⟨c :: t, by rw [hxs, ht, encode_cons]⟩, hy⟩
  · rintro ⟨⟨s, rfl⟩, ⟨t, rfl⟩⟩
    exact ⟨s ++ Char.ofNat b.toNat :: t, by
      rw [encode_append, ← List.singleton_append, ← encode_ofNat_of_small hb, ← encode_append]; rfl⟩

theorem isText_nil : IsText [] := ⟨[], rfl⟩

theorem isText_of_forall_small {xs : List UInt8} (h : ∀ b ∈ xs, b.toNat < 128) : IsText xs := by
  induction xs with
  | nil => exact isText_nil
  | cons b rest ih =>
    have hrest := ih fun x hx => h x (List.mem_cons_of_mem _ hx)
    exact (isText_append_small (h b List.mem_cons_self) [] rest).mpr ⟨isText_nil, hrest⟩

/-- Small bytes in front decide nothing. -/
theorem isText_small_append {left : List UInt8} (hl : ∀ b ∈ left, b.toNat < 128) {xs : List UInt8} :
    IsText (left ++ xs) ↔ IsText xs := by
  induction left with
  | nil => rfl
  | cons b rest ih =>
    have hrest := ih fun x hx => hl x (List.mem_cons_of_mem _ hx)
    have hb := isText_append_small (hl b List.mem_cons_self) [] (rest ++ xs)
    rw [List.cons_append, ← hrest]
    exact hb.trans (and_iff_right isText_nil)

/-- Small bytes at the end decide nothing. -/
theorem isText_append_smalls {right : List UInt8} (hr : ∀ b ∈ right, b.toNat < 128) {xs : List UInt8} :
    IsText (xs ++ right) ↔ IsText xs := by
  cases right with
  | nil => rw [List.append_nil]
  | cons b rest =>
    rw [isText_append_small (hr b List.mem_cons_self)]
    exact and_iff_left (isText_of_forall_small fun x hx => hr x (List.mem_cons_of_mem _ hx))

variable {isMark : UInt8 → Bool}

/-- Trimming small bytes decides nothing. -/
theorem isText_trimWith (hsmall : ∀ b, isMark b = true → b.toNat < 128) {xs : List UInt8} :
    IsText (Text.trimWith isMark xs) ↔ IsText xs := by
  obtain ⟨left, right, hxs, hl, hr⟩ := Text.exists_trimWith isMark xs
  conv_rhs => rw [hxs]
  rw [isText_append_smalls fun b hb => hsmall b (hr b hb), isText_small_append fun b hb => hsmall b (hl b hb)]

/-- **Bytes cut at small bytes are text exactly when every piece is.** -/
theorem isText_iff_forall_splitWith (hsmall : ∀ b, isMark b = true → b.toNat < 128) {xs : List UInt8} :
    IsText xs ↔ ∀ piece ∈ Text.splitWith isMark xs, IsText piece := by
  induction xs using Text.splitInduction isMark with
  | last piece hp => simp [Text.splitWith_of_forall_not hp]
  | mark piece c rest hp hc ih =>
    rw [isText_append_small (hsmall c hc), ih, Text.splitWith_piece_mark hp hc, List.forall_mem_cons]

end LatencyReport.Utf8
