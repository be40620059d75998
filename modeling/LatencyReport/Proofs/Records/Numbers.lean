import LatencyReport.Proofs.Records.Append

/-!
# `Proofs.Records.Numbers` — the number by which a line is called

A row that is left out is told by a number. It is taken **when the line before it ends**, and that is not where the row
begins: an empty line may stand between them, and so may the line feed of a line that ended at a carriage return. The line
feeds of this gap are not in the number. So the number is that of the row's own line exactly when there are none
(`LinePlace.called_eq_number_iff`); it is too small by as many as there are, and never too great.

The pass over a content that finds its lines is followed by one that keeps all bytes it has passed (`placesFrom`). Its state
is itself a place: of the line that is being read, with what has been read of it.

## Contents

* `LinePlace`, `LinePlace.called`, `LinePlace.number` — a line where it stands, how it is called, and the number of its line;
* `placesFrom`, `placesOf`, `linesOf_eq` — the places of all lines;
* `LinePlace.Bounded`, `LinePlace.StandsIn`, `standsIn_of_mem` — every place is one of the content;
* `LinePlace.Precedes`, `pairwise_placesOf` — their order, and that of the numbers;
* `exists_skipped` — the lines that are left out;
* `warnings_called`, `warning_of_emptyLine` — what the warnings tell.
-/

namespace LatencyReport

/-- A line that is not empty, where it stands: behind the end of the line before it, which is the end of `front`, and
    behind a gap. -/
structure LinePlace where
  front : List UInt8
  gap : List UInt8
  bytes : List UInt8

namespace LinePlace

/-- All that stands in front of the line. -/
def before (p : LinePlace) : List UInt8 :=
  p.front ++ p.gap

/-- The number by which messages call the line: the one of the line that begins where the line before it ends. -/
def called (p : LinePlace) : ℕ :=
  1 + p.front.count lineFeed

/-- The number of the line that the first byte stands in. -/
def number (p : LinePlace) : ℕ :=
  1 + p.before.count lineFeed

/-- The line, as messages call it. -/
def line (p : LinePlace) : Line :=
  ⟨p.called, p.bytes⟩

/-- What is missing in the number by which a line is called are the line feeds of the gap. -/
theorem called_add_count (p : LinePlace) : p.called + p.gap.count lineFeed = p.number := by
  rw [called, number, before, List.count_append, Nat.add_assoc]

/-- **A line is called by its own number exactly when there is no line feed in the gap.** -/
theorem called_eq_number_iff (p : LinePlace) : p.called = p.number ↔ lineFeed ∉ p.gap := by
  rw [← List.count_eq_zero, ← called_add_count]
  omega

/-- A line, or the beginning of one, is behind nothing but line ends, and these are behind a line with its end, if one
    stands in front. -/
structure Bounded (p : LinePlace) : Prop where
  inside : ∀ b ∈ p.bytes, isLineEnd b = false
  gap_ends : ∀ b ∈ p.gap, isLineEnd b = true
  front_ends : p.front = [] ∨ ∃ text b e, p.front = text ++ [b, e] ∧ isLineEnd b = false ∧ isLineEnd e = true

/-- **A line stands in a content**: it is not empty, it goes up to the next line end or the end of the content, and it is
    behind the byte order mark. -/
structure StandsIn (p : LinePlace) (data : List UInt8) : Prop extends p.Bounded where
  bytes_ne : p.bytes ≠ []
  content_eq : ∃ mark after, data = mark ++ withoutMark data ∧ lineFeed ∉ mark ∧
    withoutMark data = p.before ++ p.bytes ++ after ∧ (after = [] ∨ ∃ e rest, after = e :: rest ∧ isLineEnd e = true)

/-- What stands in front of a line stands in the content. -/
theorem StandsIn.front_subset {p : LinePlace} {data : List UInt8} (h : p.StandsIn data) : p.front ⊆ data := by
  obtain ⟨mark, after, hdata, _, hcontent, _⟩ := h.content_eq
  rw [hdata, hcontent, before, List.append_assoc, List.append_assoc]
  exact List.Subset.trans (List.subset_append_left _ _) (List.subset_append_right _ _)

/-- One line stands in front of another one, and its end as well. -/
def Precedes (p q : LinePlace) : Prop :=
  ∃ e, isLineEnd e = true ∧ p.before ++ p.bytes ++ [e] <+: q.front

theorem Bounded.count_bytes {p : LinePlace} (h : p.Bounded) : p.bytes.count lineFeed = 0 := by
  rw [List.count_eq_zero]
  intro hmem
  exact absurd (h.inside _ hmem) (by decide)

/-- The beginning of a content. -/
theorem bounded_start : (⟨[], [], []⟩ : LinePlace).Bounded :=
  ⟨by simp, by simp, Or.inl rfl⟩

/-- An empty line goes into the gap. -/
theorem Bounded.skip {p : LinePlace} (h : p.Bounded) {b : UInt8} (hb : isLineEnd b = true) :
    (⟨p.front, p.gap ++ [b], p.bytes⟩ : LinePlace).Bounded :=
  ⟨h.inside, by simpa [or_imp, forall_and, hb] using h.gap_ends, h.front_ends⟩

/-- Any other byte goes into the line. -/
theorem Bounded.take {p : LinePlace} (h : p.Bounded) {b : UInt8} (hb : isLineEnd b = false) :
    (⟨p.front, p.gap, p.bytes ++ [b]⟩ : LinePlace).Bounded :=
  ⟨by simpa [or_imp, forall_and, hb] using h.inside, h.gap_ends, h.front_ends⟩

/-- Behind the end of a line, the next one begins. -/
theorem Bounded.next {p : LinePlace} (h : p.Bounded) (hne : p.bytes ≠ []) {b : UInt8} (hb : isLineEnd b = true) :
    (⟨p.before ++ p.bytes ++ [b], [], []⟩ : LinePlace).Bounded := by
  refine ⟨by simp, by simp, Or.inr ⟨p.before ++ p.bytes.dropLast, p.bytes.getLast hne, b, ?_, ?_, hb⟩⟩
  · show p.before ++ p.bytes ++ [b] = _
    conv_lhs => rw [← List.dropLast_concat_getLast hne]
    simp
  · exact h.inside _ (List.getLast_mem hne)

end LinePlace

/-! ## The places of all lines -/

/-- The places of the lines that are not empty, of which the first is being read. -/
def placesFrom (p : LinePlace) : List UInt8 → List LinePlace
  | [] => if p.bytes.isEmpty then [] else [p]
  | b :: rest =>
    if isLineEnd b then
      if p.bytes.isEmpty then placesFrom ⟨p.front, p.gap ++ [b], p.bytes⟩ rest
      else p :: placesFrom ⟨p.before ++ p.bytes ++ [b], [], []⟩ rest
    else
      placesFrom ⟨p.front, p.gap, p.bytes ++ [b]⟩ rest

/-- The places of the lines of a content. -/
def placesOf (data : List UInt8) : List LinePlace :=
  placesFrom ⟨[], [], []⟩ (withoutMark data)

/-- A line ends, and the count of line feeds goes on if it ends at one. -/
theorem linesFrom_lineEnd (feeds number : ℕ) (taken : List UInt8) {b : UInt8} (hb : isLineEnd b = true)
    (rest : List UInt8) :
    linesFrom feeds number taken (b :: rest) =
      if taken.isEmpty then linesFrom (feeds + [b].count lineFeed) number [] rest
      else ⟨number, taken.reverse⟩ :: linesFrom (feeds + [b].count lineFeed) (feeds + [b].count lineFeed) [] rest := by
  rw [isLineEnd, Bool.or_eq_true, beq_iff_eq, beq_iff_eq] at hb
  rcases hb with rfl | rfl <;> rfl

theorem linesFrom_inside (feeds number : ℕ) (taken : List UInt8) {b : UInt8} (hb : isLineEnd b = false)
    (rest : List UInt8) : linesFrom feeds number taken (b :: rest) = linesFrom feeds number (b :: taken) rest := by
  rw [isLineEnd, Bool.or_eq_false_iff, beq_eq_false_iff_ne, beq_eq_false_iff_ne] at hb
  rw [linesFrom, if_neg hb.1, if_neg hb.2]

/-- **The pass that counts finds the same lines**: it counts the line feeds in front of the line that is being read, and
    keeps what the count was when the line before it ended. -/
theorem linesFrom_eq {p : LinePlace} (h : p.Bounded) (rest : List UInt8) :
    linesFrom p.number p.called p.bytes.reverse rest = (placesFrom p rest).map LinePlace.line := by
  -- the place is the state of the pass, so it varies with what is still to come
  induction rest generalizing p with
  | nil =>
    rw [linesFrom, placesFrom, List.isEmpty_reverse, List.reverse_reverse]
    split_ifs <;> rfl
  | cons b rest ih =>
    rw [placesFrom]
    cases hb : isLineEnd b with
    | false =>
      have hmore := ih (h.take hb)
      rw [List.reverse_append] at hmore
      rw [linesFrom_inside _ _ _ hb, if_neg Bool.false_ne_true]
      exact hmore
    | true =>
      rw [linesFrom_lineEnd _ _ _ hb, if_pos rfl, List.isEmpty_reverse, List.reverse_reverse]
      split_ifs with hempty
      · have hnumber : (⟨p.front, p.gap ++ [b], p.bytes⟩ : LinePlace).number = p.number + [b].count lineFeed := by
          simp only [LinePlace.number, LinePlace.before, List.count_append, Nat.add_assoc]
        have hmore := ih (h.skip hb)
        rw [hnumber] at hmore
        rw [← hmore, List.isEmpty_iff.mp hempty]
        rfl
      · have hnext : 1 + (p.before ++ p.bytes ++ [b]).count lineFeed = p.number + [b].count lineFeed := by
          rw [List.count_append, List.count_append, h.count_bytes, LinePlace.number, Nat.add_zero, Nat.add_assoc]
        have hmore := ih (h.next (mt List.isEmpty_iff.mpr hempty) hb)
        rw [LinePlace.number, LinePlace.called, LinePlace.before, List.append_nil, hnext] at hmore
        rw [List.map_cons, ← hmore]
        rfl

/-- **The lines of a content are called by their places.** -/
theorem linesOf_eq (data : List UInt8) : linesOf data = (placesOf data).map LinePlace.line :=
  linesFrom_eq LinePlace.bounded_start (withoutMark data)

/-! ## Places in the content -/

/-- Every line that the pass finds stands in the content, behind what has been read of it. -/
theorem exists_of_mem_placesFrom {p q : LinePlace} (h : p.Bounded) {rest : List UInt8} (hq : q ∈ placesFrom p rest) :
    q.Bounded ∧ q.bytes ≠ [] ∧ p.front <+: q.front ∧
      ∃ after, p.before ++ p.bytes ++ rest = q.before ++ q.bytes ++ after ∧
        (after = [] ∨ ∃ e tail, after = e :: tail ∧ isLineEnd e = true) := by
  induction rest generalizing p with
  | nil =>
    rw [placesFrom] at hq
    split_ifs at hq with hempty
    · cases hq
    · obtain rfl := List.mem_singleton.mp hq
      exact ⟨h, mt List.isEmpty_iff.mpr hempty, List.prefix_refl _, [], rfl, Or.inl rfl⟩
  | cons b rest ih =>
    rw [placesFrom] at hq
    cases hb : isLineEnd b with
    | false =>
      rw [hb, if_neg Bool.false_ne_true] at hq
      obtain ⟨hbounded, hne, hfront, after, heq, hafter⟩ := ih (h.take hb) hq
      refine ⟨hbounded, hne, hfront, after, ?_, hafter⟩
      rw [← heq]
      simp [LinePlace.before]
    | true =>
      rw [hb, if_pos rfl] at hq
      -- a line end goes into the gap if nothing has been read of the line, and else the place is complete
      split_ifs at hq with hempty
      · obtain ⟨hbounded, hne, hfront, after, heq, hafter⟩ := ih (h.skip hb) hq
        refine ⟨hbounded, hne, hfront, after, ?_, hafter⟩
        rw [← heq, List.isEmpty_iff.mp hempty]
        simp [LinePlace.before]
      · have hbytes : p.bytes ≠ [] := mt List.isEmpty_iff.mpr hempty
        rcases List.mem_cons.mp hq with rfl | hq
        · exact ⟨h, hbytes, List.prefix_refl _, b :: rest, rfl, Or.inr ⟨b, rest, rfl, hb⟩⟩
        · obtain ⟨hbounded, hne, hfront, after, heq, hafter⟩ := ih (h.next hbytes hb) hq
          refine ⟨hbounded, hne, ?_, after, ?_, hafter⟩
          · refine List.IsPrefix.trans ?_ hfront
            simp [LinePlace.before, List.append_assoc]
          · rw [← heq]
            simp [LinePlace.before]

theorem exists_mark (data : List UInt8) : ∃ mark, data = mark ++ withoutMark data ∧ lineFeed ∉ mark := by
  rw [withoutMark_eq]
  split_ifs with hmark
  · obtain ⟨rest, rfl⟩ := hmark
    exact ⟨byteOrderMark, rfl, by decide⟩
  · exact ⟨[], rfl, by decide⟩

/-- **Every line stands in the content** where its place says. -/
theorem standsIn_of_mem {data : List UInt8} {p : LinePlace} (h : p ∈ placesOf data) : p.StandsIn data := by
  obtain ⟨hbounded, hne, _, after, heq, hafter⟩ := exists_of_mem_placesFrom LinePlace.bounded_start h
  obtain ⟨mark, hmark, hfeed⟩ := exists_mark data
  exact { hbounded with bytes_ne := hne, content_eq := ⟨mark, after, hmark, hfeed, heq, hafter⟩ }

/-! ## Order -/

/-- Every line stands in front of the lines behind it. -/
theorem pairwise_placesFrom {p : LinePlace} (h : p.Bounded) (rest : List UInt8) :
    (placesFrom p rest).Pairwise LinePlace.Precedes := by
  induction rest generalizing p with
  | nil =>
    rw [placesFrom]
    split_ifs
    · exact List.Pairwise.nil
    · exact List.pairwise_singleton _ _
  | cons b rest ih =>
    rw [placesFrom]
    cases hb : isLineEnd b with
    | false => exact ih (h.take hb)
    | true =>
      rw [if_pos rfl]
      split_ifs with hempty
      · exact ih (h.skip hb)
      · have hnext := h.next (mt List.isEmpty_iff.mpr hempty) hb
        refine List.pairwise_cons.mpr ⟨fun q hq => ?_, ih hnext⟩
        exact ⟨b, hb, (exists_of_mem_placesFrom hnext hq).2.2.1⟩

theorem pairwise_placesOf (data : List UInt8) : (placesOf data).Pairwise LinePlace.Precedes :=
  pairwise_placesFrom LinePlace.bounded_start (withoutMark data)

/-- **The numbers of lines do not decrease.** -/
theorem LinePlace.Precedes.called_le {p q : LinePlace} (h : p.Precedes q) : p.called ≤ q.called := by
  obtain ⟨e, _, hle⟩ := h
  have hfront : p.front <+: q.front := by
    refine List.IsPrefix.trans ?_ hle
    simp [LinePlace.before, List.append_assoc]
  exact Nat.add_le_add_left (hfront.sublist.count_le lineFeed) 1

/-- **They increase where a line ends at a line feed.** -/
theorem LinePlace.Precedes.called_lt {p q : LinePlace} (h : p.Precedes q) (hreturn : carriageReturn ∉ q.front) :
    p.called < q.called := by
  obtain ⟨e, hend, hle⟩ := h
  have hmem : e ∈ q.front := hle.subset (by simp)
  have hfeed : e = lineFeed := by
    rw [isLineEnd, Bool.or_eq_true, beq_iff_eq, beq_iff_eq] at hend
    exact hend.resolve_right fun heq => hreturn (heq ▸ hmem)
  subst hfeed
  have hcount := hle.sublist.count_le lineFeed
  simp only [LinePlace.before, List.count_append, List.count_singleton_self] at hcount
  unfold LinePlace.called
  omega

/-! ## Warnings -/

/-- **The rows that are left out are lines of the content**, in order, each for its own fault. -/
theorem exists_skipped (path : Path) (data : List UInt8) :
    ∃ δ columns lines, lines.Sublist (linesOf data) ∧
      (Records.parse path data).skipped = lines.filterMap (skippedRow? δ columns) ∧
      (lines ≠ [] → Delimiter.ofData? data = some δ) ∧
      ∀ R, (Records.parse path data).records? = some R → columns = R.columns := by
  cases hδ : Delimiter.ofData? data with
  | none =>
    rw [parse_of_ofData?_eq_none path hδ]
    exact ⟨.blanks, [], [], List.nil_sublist _, rfl, fun hne => absurd rfl hne, fun R hR => by cases hR⟩
  | some δ =>
    rcases forall_headless_or_headerAt δ (linesOf data) with hall | ⟨before, header, after, cells, hat⟩
    · rw [parse_of_headless path hδ hall []]
      exact ⟨δ, [], linesOf data, List.Sublist.refl _, rfl, fun _ => rfl, fun R hR => by cases hR⟩
    · have hsub : (before ++ after).Sublist (linesOf data) := by
        rw [hat.lines_eq]
        exact (List.sublist_cons_self header after).append_left before
      rw [parse_of_headerAt path hδ hat]
      exact ⟨δ, cells.map String.ofList, before ++ after, hsub, rfl, fun _ => rfl,
        fun R hR => by rw [← Option.some.inj hR]⟩

/-- **By which numbers rows are called that are left out.** What reading a content warns of are lines that stand in it, one
    behind the other, each with the fault that it gives under the columns. The number that the warning tells and the line
    feeds in the gap in front of the row make up the number of its line; so it is the number of the row's own line if and
    only if no line feed stands in the gap. The numbers do not decrease, and they increase if no line ends at a carriage
    return. -/
theorem warnings_called (path : Path) (data : List UInt8) :
    ∃ (δ : Delimiter) (columns : List String) (rows : List (LinePlace × RowFault)),
      warnings path data = rows.map (fun row => .rowSkipped path ⟨row.1.called, row.2⟩) ∧
      (rows ≠ [] → Delimiter.ofData? data = some δ) ∧
      (∀ R, (Records.parse path data).records? = some R → columns = R.columns) ∧
      (∀ row ∈ rows, row.1.StandsIn data ∧ lineFault? δ columns row.1.bytes = some row.2 ∧
        row.1.called + row.1.gap.count lineFeed = row.1.number ∧
        (row.1.called = row.1.number ↔ lineFeed ∉ row.1.gap)) ∧
      rows.Pairwise fun row next => row.1.Precedes next.1 ∧ row.1.called ≤ next.1.called ∧
        (carriageReturn ∉ data → row.1.called < next.1.called) := by
  obtain ⟨δ, columns, lines, hsub, hskipped, hδ, hcolumns⟩ := exists_skipped path data
  rw [linesOf_eq, List.sublist_map_iff] at hsub
  obtain ⟨places, hplaces, rfl⟩ := hsub
  set faultOf : LinePlace → Option (LinePlace × RowFault) := fun p => (lineFault? δ columns p.bytes).map (p, ·) with hfaultOf
  have hmem : ∀ {row : LinePlace × RowFault}, row ∈ places.filterMap faultOf →
      row.1 ∈ placesOf data ∧ lineFault? δ columns row.1.bytes = some row.2 := by
    intro row hrow
    obtain ⟨p, hp, heq⟩ := List.mem_filterMap.mp hrow
    obtain ⟨fault, hfault, rfl⟩ := Option.map_eq_some_iff.mp heq
    exact ⟨hplaces.subset hp, hfault⟩
  refine ⟨δ, columns, places.filterMap faultOf, ?_, fun hne => hδ fun hnil => hne ?_, hcolumns, fun row hrow => ?_, ?_⟩
  · rw [warnings_eq, hskipped, List.filterMap_map, List.map_filterMap, List.map_filterMap]
    refine List.filterMap_congr fun p _ => ?_
    simp only [hfaultOf, skippedRow?, Function.comp, Option.map_map]
    rfl
  · rw [List.map_eq_nil_iff.mp hnil, List.filterMap_nil]
  · obtain ⟨hplace, hfault⟩ := hmem hrow
    exact ⟨standsIn_of_mem hplace, hfault, row.1.called_add_count, row.1.called_eq_number_iff⟩
  · have horder : (places.filterMap faultOf).Pairwise fun row next => row.1.Precedes next.1 := by
      refine List.Pairwise.filterMap faultOf ?_ ((pairwise_placesOf data).sublist hplaces)
      intro p q hpq row hrow next hnext
      obtain ⟨_, _, rfl⟩ := Option.map_eq_some_iff.mp hrow
      obtain ⟨_, _, rfl⟩ := Option.map_eq_some_iff.mp hnext
      exact hpq
    refine horder.imp_of_mem fun {row next} _ hnext hprecedes => ⟨hprecedes, hprecedes.called_le, fun hreturn => ?_⟩
    exact hprecedes.called_lt fun hin => hreturn ((standsIn_of_mem (hmem hnext).1).front_subset hin)

/-- **An empty line takes one from the number of the row behind it**: the row stands behind two line feeds, and is called the
    second line. -/
theorem warning_of_emptyLine :
    let front := Utf8.encode "write\n\n".toList
    let row := Utf8.encode "x\n".toList
    warnings ⟨[]⟩ (front ++ row) = [.rowSkipped ⟨[]⟩ ⟨2, .notADuration "x" "write"⟩] ∧ 1 + front.count lineFeed = 3 :=
  ⟨rfl, rfl⟩

end LatencyReport
