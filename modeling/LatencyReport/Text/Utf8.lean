import LatencyReport.Text.Split

/-!
# `Text.Utf8` — bytes as text, and bytes that are no text

Files and their names are bytes. `decode` reads them as UTF-8 and, where they are not, names **the first byte
that belongs to no character**: everything before it decodes. `lossy` reads them all the same, and puts one
replacement character for each maximal start of a character that goes no further.

The step that reads one character is core's, so what is known about it there (it inverts
`String.utf8EncodeChar`) is known here.

## Contents

* `nextChar?` — the character that a byte sequence starts with;
* `decode` — all of it, or the offset of the first byte that is not text;
* `lossy` — all of it, with replacement characters;
* `encode` — the bytes of a text.
-/

namespace LatencyReport.Utf8

/-- The character that the bytes start with, if they start with one. It has at most four bytes. -/
def nextChar? (bytes : List UInt8) : Option Char :=
  (bytes.take 4).toByteArray.utf8DecodeChar? 0

/-- The bytes of a text. -/
def encode (s : List Char) : List UInt8 :=
  s.flatMap String.utf8EncodeChar

/-- The characters from byte `offset` on, after `skip` bytes that belong to a character already read; or the
offset of the first byte that starts none. -/
def decodeFrom (offset : Nat) : (skip : Nat) → List UInt8 → Except Nat (List Char)
  | _, [] => .ok []
  | skip + 1, _ :: rest => decodeFrom (offset + 1) skip rest
  | 0, b :: rest =>
    match nextChar? (b :: rest) with
    | none => .error offset
    | some c => (decodeFrom (offset + 1) (c.utf8Size - 1) rest).map (c :: ·)

/-- The text that the bytes encode, or the offset of the first byte that belongs to no character. -/
def decode (bytes : List UInt8) : Except Nat (List Char) :=
  decodeFrom 0 0 bytes

/-- The lead byte's demand on its follower: the range that the second byte of a character may have, and how
many bytes follow the lead. -/
def followers (lead : UInt8) : Option (UInt8 × UInt8 × Nat) :=
  if 0xC2 ≤ lead && lead ≤ 0xDF then some (0x80, 0xBF, 1)
  else if lead = 0xE0 then some (0xA0, 0xBF, 2)
  else if lead = 0xED then some (0x80, 0x9F, 2)
  else if 0xE1 ≤ lead && lead ≤ 0xEF then some (0x80, 0xBF, 2)
  else if lead = 0xF0 then some (0x90, 0xBF, 3)
  else if 0xF1 ≤ lead && lead ≤ 0xF3 then some (0x80, 0xBF, 3)
  else if lead = 0xF4 then some (0x80, 0x8F, 3)
  else none

/-- How many of the bytes after the lead are the start of the character that the lead announces. -/
def followed (low high : UInt8) : Nat → List UInt8 → Nat
  | 0, _ => 0
  | _, [] => 0
  | n + 1, b :: rest => if low ≤ b && b ≤ high then 1 + followed 0x80 0xBF n rest else 0

/-- The length of the broken character at the front: its longest start that some character has, and at least
one byte. -/
def brokenLength : List UInt8 → Nat
  | [] => 1
  | lead :: rest =>
    match followers lead with
    | some (low, high, n) => 1 + followed low high n rest
    | none => 1

/-- The characters after `skip` bytes that are already read, broken ones replaced. -/
def lossyFrom : (skip : Nat) → List UInt8 → List Char
  | _, [] => []
  | skip + 1, _ :: rest => lossyFrom skip rest
  | 0, b :: rest =>
    match nextChar? (b :: rest) with
    | some c => c :: lossyFrom (c.utf8Size - 1) rest
    | none => Char.ofNat 0xFFFD :: lossyFrom (brokenLength (b :: rest) - 1) rest

/-- The text that the bytes encode, with one replacement character for each broken one. -/
def lossy (bytes : List UInt8) : List Char :=
  lossyFrom 0 bytes

/-- Bytes already read are skipped. -/
theorem decodeFrom_skip (offset skip : Nat) (bytes : List UInt8) (h : skip ≤ bytes.length) :
    decodeFrom offset skip bytes = decodeFrom (offset + skip) 0 (bytes.drop skip) := by
  induction skip generalizing offset bytes with
  | zero => simp
  | succ n ih =>
    cases bytes with
    | nil => simp at h
    | cons b rest =>
      simp only [List.length_cons, Nat.add_le_add_iff_right] at h
      rw [decodeFrom, ih _ _ h, List.drop_succ_cons, Nat.add_right_comm, Nat.add_assoc]

end LatencyReport.Utf8
