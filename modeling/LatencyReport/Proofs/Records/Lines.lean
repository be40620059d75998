import LatencyReport.Proofs.Records.Cells

/-!
# `Proofs.Records.Lines` — the lines of a content

Lines are found in one pass that counts line feeds and keeps the bytes of the current line. Of what it finds, only
the numbers depend on what came before: **the bytes of the lines are the pieces between line ends**, without the
empty ones (`bytes_linesFrom`), and after a line feed the pass starts anew (`exists_linesFrom_append`).

## Contents

* `isLineEnd`, `bareLines` — the pieces between line ends;
* `bytes_linesFrom`, `bytes_linesOf` — they are the lines;
* `linesFrom_step`, `exists_linesFrom_append` — one byte, and all bytes up to a line feed;
* `withoutMark_append`, `exists_linesOf_append` — the lines of a content that goes on after a line feed.
-/

namespace LatencyReport

/-- A byte at which a line ends. -/
def isLineEnd (b : UInt8) : Bool :=
  b == lineFeed || b == carriageReturn

/-- What stands between the line ends of a content. A carriage return and the line feed after it are two ends, with
    an empty line between them. -/
def bareLines (data : List UInt8) : List (List UInt8) :=
  Text.splitWith isLineEnd data

/-- Whether a line is none of the empty ones. -/
def isFilled (line : List UInt8) : Bool :=
  !line.isEmpty

/-- **The bytes of the lines are the pieces between line ends**, the empty ones left out. -/
theorem bytes_linesFrom (feeds number : Nat) {taken : List UInt8} (h : ∀ b ∈ taken, isLineEnd b = false)
    (data : List UInt8) :
    (linesFrom feeds number taken data).map (·.bytes) =
      (Text.splitWith isLineEnd (taken.reverse ++ data)).filter isFilled := by
  have htaken : ∀ b ∈ taken.reverse, isLineEnd b = false := fun b hb => h b (List.mem_reverse.mp hb)
  -- the bytes taken so far vary with the pass: they stand in front of what is still to come
  induction data generalizing feeds number taken with
  | nil =>
    rw [List.append_nil, Text.splitWith_of_forall_not htaken, linesFrom]
    cases taken with
    | nil => rfl
    | cons b taken =>
      have hfilled : isFilled (b :: taken).reverse = true := by simp [isFilled]
      rw [List.filter_cons_of_pos hfilled]
      rfl
  | cons b rest ih =>
    have hnil : ∀ c ∈ ([] : List UInt8), isLineEnd c = false := by simp
    -- at a line end, the line so far is complete; what follows starts with nothing
    have hend : isLineEnd b = true → (Text.splitWith isLineEnd (taken.reverse ++ b :: rest)).filter isFilled =
        (if taken.isEmpty then [] else [taken.reverse]) ++ (Text.splitWith isLineEnd rest).filter isFilled := by
      intro hb
      rw [Text.splitWith_piece_mark htaken hb, List.filter_cons]
      cases taken <;> simp [isFilled]
    by_cases hfeed : b = lineFeed
    · have hb : isLineEnd b = true := by simp [isLineEnd, hfeed]
      rw [hend hb, linesFrom, if_pos hfeed]
      split
      · exact ih _ _ hnil hnil
      · rw [List.map_cons, ih _ _ hnil hnil]
        rfl
    · by_cases hreturn : b = carriageReturn
      · have hb : isLineEnd b = true := by simp [isLineEnd, hreturn]
        rw [hend hb, linesFrom, if_neg hfeed, if_pos hreturn]
        split
        · exact ih _ _ hnil hnil
        · rw [List.map_cons, ih _ _ hnil hnil]
          rfl
      · have hb : isLineEnd b = false := by simp [isLineEnd, hfeed, hreturn]
        have hmore : ∀ c ∈ b :: taken, isLineEnd c = false := by simpa [hb] using h
        rw [linesFrom, if_neg hfeed, if_neg hreturn,
          ih _ _ hmore fun c hc => hmore c (List.mem_reverse.mp hc), List.reverse_cons, List.append_assoc]
        rfl

/-- The lines of a content are what stands between its line ends, behind the byte order mark. -/
theorem bytes_linesOf (data : List UInt8) :
    (linesOf data).map (·.bytes) = (bareLines (withoutMark data)).filter isFilled := by
  rw [linesOf, bytes_linesFrom 1 1 (by simp)]
  rfl

/-- **One byte** completes a line at most, and leaves a state from which the pass goes on. After a line feed no byte
    of a line is kept. -/
theorem linesFrom_step (feeds number : Nat) (taken : List UInt8) (b : UInt8) :
    ∃ done feeds' number' taken',
      (∀ rest, linesFrom feeds number taken (b :: rest) = done ++ linesFrom feeds' number' taken' rest) ∧
        (b = lineFeed → taken' = []) := by
  by_cases hfeed : b = lineFeed
  · by_cases htaken : taken.isEmpty = true
    · exact ⟨[], feeds + 1, number, [], fun rest => by simp [linesFrom, hfeed, htaken], fun _ => rfl⟩
    · exact ⟨[⟨number, taken.reverse⟩], feeds + 1, feeds + 1, [], fun rest => by simp [linesFrom, hfeed, htaken],
        fun _ => rfl⟩
  · by_cases hreturn : b = carriageReturn
    · by_cases htaken : taken.isEmpty = true
      · exact ⟨[], feeds, number, [], fun rest => by rw [linesFrom, if_neg hfeed, if_pos hreturn, if_pos htaken]; rfl,
          fun _ => rfl⟩
      · exact ⟨[⟨number, taken.reverse⟩], feeds, feeds, [],
          fun rest => by rw [linesFrom, if_neg hfeed, if_pos hreturn, if_neg htaken]; rfl, fun _ => rfl⟩
    · exact ⟨[], feeds, number, b :: taken, fun rest => by rw [linesFrom, if_neg hfeed, if_neg hreturn]; rfl,
        fun h => absurd h hfeed⟩

/-- **After a line feed, lines are found as if nothing had come before**, but for their numbers. -/
theorem exists_linesFrom_append {front : List UInt8} (h : front.getLast? = some lineFeed) (feeds number : Nat)
    (taken : List UInt8) :
    ∃ feeds' number', ∀ back,
      linesFrom feeds number taken (front ++ back) =
        linesFrom feeds number taken front ++ linesFrom feeds' number' [] back := by
  -- the state before a byte is arbitrary; only the last byte, the line feed, makes it known
  induction front generalizing feeds number taken with
  | nil => simp at h
  | cons b rest ih =>
    obtain ⟨done, feeds₁, number₁, taken₁, hstep, hfeed⟩ := linesFrom_step feeds number taken b
    cases rest with
    | nil =>
      have hb : b = lineFeed := by simpa using h
      refine ⟨feeds₁, number₁, fun back => ?_⟩
      rw [List.singleton_append, hstep, hstep, hfeed hb, linesFrom]
      simp
    | cons c rest =>
      obtain ⟨feeds₂, number₂, hrun⟩ := ih (by simpa using h) feeds₁ number₁ taken₁
      refine ⟨feeds₂, number₂, fun back => ?_⟩
      rw [List.cons_append, hstep, hstep, hrun, List.append_assoc]

/-! ## The byte order mark -/

/-- The bytes of the byte order mark. -/
def byteOrderMark : List UInt8 :=
  [0xEF, 0xBB, 0xBF]

theorem withoutMark_eq (data : List UInt8) :
    withoutMark data = if byteOrderMark <+: data then data.drop 3 else data := by
  unfold withoutMark
  split
  · rw [if_pos ⟨_, rfl⟩]
    rfl
  · rename_i hno
    rw [if_neg]
    rintro ⟨rest, rfl⟩
    exact hno rest rfl

/-- **The byte order mark is looked for up to the first line feed only**: content that goes on keeps its start. -/
theorem withoutMark_append {front : List UInt8} (h : front.getLast? = some lineFeed) (back : List UInt8) :
    withoutMark (front ++ back) = withoutMark front ++ back ∧ (withoutMark front).getLast? = some lineFeed := by
  have hfeed : lineFeed ∈ front := List.mem_of_getLast? h
  rw [withoutMark_eq, withoutMark_eq]
  by_cases hmark : byteOrderMark <+: front
  · obtain ⟨rest, rfl⟩ := hmark
    rw [if_pos ⟨rest ++ back, by rw [List.append_assoc]⟩, if_pos ⟨rest, rfl⟩]
    refine ⟨rfl, ?_⟩
    show rest.getLast? = some lineFeed
    cases rest with
    | nil => exact absurd h (by decide)
    | cons b rest => simpa [byteOrderMark] using h
  · -- a mark that reaches past the front would hold the line feed
    have hno : ¬byteOrderMark <+: front ++ back := by
      intro hlong
      rcases List.prefix_or_prefix_of_prefix hlong (List.prefix_append front back) with hin | hout
      · exact hmark hin
      · exact absurd (hout.mem hfeed) (by decide)
    rw [if_neg hmark, if_neg hno]
    exact ⟨rfl, h⟩

/-- The lines of a content that goes on after a line feed. -/
theorem exists_linesOf_append {front : List UInt8} (h : front.getLast? = some lineFeed) (back : List UInt8) :
    ∃ more, linesOf (front ++ back) = linesOf front ++ more ∧
      more.map (·.bytes) = (bareLines back).filter isFilled := by
  obtain ⟨happend, hlast⟩ := withoutMark_append h back
  obtain ⟨feeds, number, hrun⟩ := exists_linesFrom_append hlast 1 1 []
  refine ⟨linesFrom feeds number [] back, ?_, ?_⟩
  · rw [linesOf, linesOf, happend, hrun]
  · exact bytes_linesFrom feeds number (by simp) back

end LatencyReport
