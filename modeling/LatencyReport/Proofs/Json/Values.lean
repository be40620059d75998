import LatencyReport.Proofs.Json.Scalars

/-!
# `Proofs.Json.Values` — JSON values read back

**What is written of a value is read as the value**, with or without lines of its own for every item
(`parse?_compact`, `parse?_pretty`), if JSON has texts for its numbers (`IsReadable`). The text stands in front of
whatever follows, and the reader stops where the text ends: nothing that can follow a value belongs to a number, and no
value begins with white space or with the bracket that would close an empty array.

The reader counts down while it goes along a text, in nested values and from item to item. So the proof is by induction
on that count, with one step for each of the reader's functions (`reads_succ`, `readsItems_succ`, `readsMembers_succ`),
and the count is large enough because a text is longer than what stands behind it (`length_lt_put`).

## Contents

* `IsReadable` — values that can be read back;
* `length_lt_put` — texts and what stands behind them;
* `Starts`, `Follows` — what a value begins with, and what can stand behind it;
* `readValue?_numeral`, `readItems?_last`, `readItems?_next` and their like — steps of the reader;
* `Reads`, `reads` — the reader gives values back;
* `parse?_put`, `parse?_compact`, `parse?_pretty` — whole texts.
-/

namespace LatencyReport.Json

/-! ## Values that can be read back -/

mutual

/-- A value whose numbers JSON has texts for: integers have 64 bits, and the other numbers are finite. -/
def IsReadable : Json → Prop
  | .int n => -2 ^ 63 ≤ n ∧ n < 2 ^ 64
  | .float x => x.isFinite = true
  | .arr items => AreReadable items
  | .obj members => HaveReadable members
  | _ => True

/-- Items that are readable, each of them. -/
def AreReadable : List Json → Prop
  | [] => True
  | item :: items => item.IsReadable ∧ AreReadable items

/-- Members that have readable values, each of them. -/
def HaveReadable : List (String × Json) → Prop
  | [] => True
  | (_, value) :: members => value.IsReadable ∧ HaveReadable members

end

/-! ## Texts and what stands behind them -/

section
variable (onLines : Bool)

theorem length_lt_append {text : List Char} (h : text ≠ []) (rest : List Char) : rest.length < (text ++ rest).length := by
  rw [List.length_append]
  exact Nat.lt_add_of_pos_left (List.length_pos_iff.mpr h)

theorem length_le_putGap (depth : ℕ) (rest : List Char) : rest.length ≤ (putGap onLines depth rest).length := by
  cases onLines with
  | false => exact le_rfl
  | true => exact (length_lt_append (List.cons_ne_nil _ _) rest).le

theorem length_lt_putNumber (x : Float) (rest : List Char) : rest.length < (putNumber x rest).length := by
  unfold putNumber
  split_ifs with hx
  · exact length_lt_append (spells_finite hx).ne_nil rest
  · exact length_lt_append (by decide) rest

theorem length_lt_putString (name : String) (rest : List Char) : rest.length < (putString name rest).length :=
  calc rest.length
    _ < ('\x22' :: rest).length := Nat.lt_succ_self _
    _ < _ := length_lt_append (List.cons_ne_nil '\x22' (name.toList.flatMap escapeChar)) _

/-- The name of a member and its colon in front of its value. -/
def putName (name : String) (value : List Char) : List Char :=
  putString name (':' :: (if onLines then [' '] else []) ++ value)

theorem length_lt_putName (name : String) (text : List Char) : text.length < (putName onLines name text).length :=
  (length_lt_append (List.cons_ne_nil _ _) text).trans (length_lt_putString name _)

mutual

/-- **The text of a value is longer than what stands behind it.** -/
theorem length_lt_put (value : Json) (depth : ℕ) (rest : List Char) :
    rest.length < (value.put onLines depth rest).length := by
  match value with
  | .null => exact length_lt_append (by decide) rest
  | .bool true => exact length_lt_append (by decide) rest
  | .bool false => exact length_lt_append (by decide) rest
  | .int n => exact length_lt_append (toList_toString_ne_nil n) rest
  | .float x => exact length_lt_putNumber x rest
  | .str s => exact length_lt_putString s rest
  | .arr [] => exact length_lt_append (List.cons_ne_nil '[' [']']) rest
  | .arr (item :: items) =>
    exact calc rest.length
      _ < (']' :: rest).length := Nat.lt_succ_self _
      _ ≤ _ := length_le_putGap onLines depth _
      _ ≤ _ := length_le_putItems items (depth + 1) _
      _ < _ := length_lt_put item (depth + 1) _
      _ ≤ _ := length_le_putGap onLines (depth + 1) _
      _ < _ := Nat.lt_succ_self _
  | .obj [] => exact length_lt_append (List.cons_ne_nil '\x7b' ['\x7d']) rest
  | .obj ((name, value) :: members) =>
    exact calc rest.length
      _ < ('\x7d' :: rest).length := Nat.lt_succ_self _
      _ ≤ _ := length_le_putGap onLines depth _
      _ ≤ _ := length_le_putMembers members (depth + 1) _
      _ < _ := length_lt_put value (depth + 1) _
      _ < _ := length_lt_putName onLines name _
      _ ≤ _ := length_le_putGap onLines (depth + 1) _
      _ < _ := Nat.lt_succ_self _

theorem length_le_putItems (items : List Json) (depth : ℕ) (rest : List Char) :
    rest.length ≤ (putItems onLines depth items rest).length := by
  match items with
  | [] => exact le_rfl
  | item :: items =>
    exact calc rest.length
      _ ≤ _ := length_le_putItems items depth rest
      _ ≤ _ := (length_lt_put item depth _).le
      _ ≤ _ := length_le_putGap onLines depth _
      _ ≤ _ := Nat.le_succ _

theorem length_le_putMembers (members : List (String × Json)) (depth : ℕ) (rest : List Char) :
    rest.length ≤ (putMembers onLines depth members rest).length := by
  match members with
  | [] => exact le_rfl
  | (name, value) :: members =>
    exact calc rest.length
      _ ≤ _ := length_le_putMembers members depth rest
      _ ≤ _ := (length_lt_put value depth _).le
      _ ≤ _ := (length_lt_putName onLines name _).le
      _ ≤ _ := length_le_putGap onLines depth _
      _ ≤ _ := Nat.le_succ _

end

end

/-! ## What a value begins with, and what can stand behind it -/

/-- A text that begins as a value can: with no white space, and not with a closing bracket. -/
def Starts (s : List Char) : Prop :=
  ∀ c ∈ s.head?, (c ≠ ' ' ∧ c ≠ '\n' ∧ c ≠ '\t' ∧ c ≠ '\r') ∧ c ≠ ']'

/-- A text that can stand behind a value: it does not begin with a character of a number. -/
def Follows (s : List Char) : Prop :=
  ∀ c ∈ s.head?, isNumeralChar c = false

theorem starts_cons {c : Char} (h : (c ≠ ' ' ∧ c ≠ '\n' ∧ c ≠ '\t' ∧ c ≠ '\r') ∧ c ≠ ']') (rest : List Char) :
    Starts (c :: rest) := fun _ hc => Option.some.inj hc ▸ h

theorem follows_cons {c : Char} (h : isNumeralChar c = false) (rest : List Char) : Follows (c :: rest) :=
  fun _ hc => Option.some.inj hc ▸ h

theorem ne_of_isNumeralChar {c other : Char} (h : isNumeralChar c = true) (hother : isNumeralChar other = false) :
    c ≠ other :=
  ne_of_apply_ne isNumeralChar (by rw [h, hother]; decide)

theorem Spells.starts {text : List Char} {value : Json} (h : Spells text value) (rest : List Char) :
    Starts (text ++ rest) := by
  obtain ⟨c, others, rfl, hc⟩ := h.exists_cons
  have hne := fun other => @ne_of_isNumeralChar c other hc
  exact starts_cons ⟨⟨hne _ rfl, hne _ rfl, hne _ rfl, hne _ rfl⟩, hne _ rfl⟩ _

theorem starts_put (onLines : Bool) {value : Json} (h : value.IsReadable) (depth : ℕ) (rest : List Char) :
    Starts (value.put onLines depth rest) := by
  match value with
  | .null => exact starts_cons (by decide) _
  | .bool true => exact starts_cons (by decide) _
  | .bool false => exact starts_cons (by decide) _
  | .int n => exact (spells_int h.1 h.2).starts rest
  | .float x =>
    have hx : x.isFinite = true := h
    show Starts (putNumber x rest)
    rw [putNumber, if_pos hx]
    exact (spells_finite hx).starts rest
  | .str s => exact starts_cons (by decide) _
  | .arr [] => exact starts_cons (by decide) _
  | .arr (item :: items) => exact starts_cons (by decide) _
  | .obj [] => exact starts_cons (by decide) _
  | .obj ((name, value) :: members) => exact starts_cons (by decide) _

theorem follows_putGap (onLines : Bool) (depth : ℕ) {rest : List Char} (h : Follows rest) :
    Follows (putGap onLines depth rest) := by
  cases onLines with
  | false => exact h
  | true => exact follows_cons rfl _

theorem skipBlank_cons {c : Char} (h : c ≠ ' ' ∧ c ≠ '\n' ∧ c ≠ '\t' ∧ c ≠ '\r') (rest : List Char) :
    skipBlank (c :: rest) = c :: rest :=
  List.dropWhile_cons_of_neg (by simp [h])

theorem skipBlank_of_starts {s : List Char} (h : Starts s) : skipBlank s = s := by
  cases s with
  | nil => rfl
  | cons c rest => exact skipBlank_cons (h c rfl).1 rest

theorem skipBlank_blanks (n : ℕ) (rest : List Char) : skipBlank (List.replicate n ' ' ++ rest) = skipBlank rest := by
  induction n with
  | zero => rfl
  | succ n ih => exact ih

theorem skipBlank_putGap (onLines : Bool) (depth : ℕ) (rest : List Char) :
    skipBlank (putGap onLines depth rest) = skipBlank rest := by
  cases onLines with
  | false => rfl
  | true => exact skipBlank_blanks (2 * depth) rest

theorem skipBlank_afterColon (onLines : Bool) {s : List Char} (h : Starts s) :
    skipBlank ((if onLines then [' '] else []) ++ s) = s := by
  cases onLines with
  | false => exact skipBlank_of_starts h
  | true => exact skipBlank_of_starts h

/-! ## Steps of the reader -/

section
variable {nesting : ℕ} {s rest more ending : List Char} {item value : Json} {items : List Json} {name : String}
  {members : List (String × Json)}

/-- A number is read as far as its characters go. -/
theorem readValue?_numeral {text : List Char} (h : Spells text value) (hrest : Follows rest) :
    readValue? (nesting + 1) (text ++ rest) = some (value, rest) := by
  obtain ⟨htake, hdrop⟩ := Decimal.span_append h.isNumeralChar hrest
  obtain ⟨first, others, htext, hfirst⟩ := h.exists_cons
  have hother : ∀ c more, isNumeralChar c = false → text ++ rest ≠ c :: more := by
    rintro c more hc heq
    rw [htext, List.cons_append, List.cons.injEq] at heq
    exact ne_of_isNumeralChar hfirst hc heq.1
  -- no other value begins with a character of a number
  rw [readValue?]
  · rw [htake, hdrop, h.ofNumeral?_eq, Option.map_some]
  all_goals
    intros
    exact hother _ _ rfl ‹_›

theorem readValue?_array (hstart : Starts (skipBlank s)) (hitems : readItems? nesting (skipBlank s) = some (items, rest)) :
    readValue? (nesting + 1) ('[' :: s) = some (.arr items, rest) := by
  rw [readValue?]
  split
  · rename_i ending heq
    exact absurd rfl (hstart ']' (heq ▸ rfl)).2
  · rw [hitems, Option.map_some]

theorem readValue?_object (hname : skipBlank s = '\x22' :: more)
    (hmembers : readMembers? nesting ('\x22' :: more) = some (members, rest)) :
    readValue? (nesting + 1) ('\x7b' :: s) = some (.obj members, rest) := by
  rw [readValue?, hname]
  split
  · rename_i heq
    exact absurd (List.cons.inj heq).1 (by decide)
  · rw [hmembers, Option.map_some]

theorem readItems?_last (hitem : readValue? nesting s = some (item, rest)) (hclose : skipBlank rest = ']' :: ending) :
    readItems? (nesting + 1) s = some ([item], ending) := by
  rw [readItems?, hitem]
  simp only [hclose]

theorem readItems?_next (hitem : readValue? nesting s = some (item, rest)) (hcomma : skipBlank rest = ',' :: more)
    (hitems : readItems? nesting (skipBlank more) = some (items, ending)) :
    readItems? (nesting + 1) s = some (item :: items, ending) := by
  rw [readItems?, hitem]
  simp only [hcomma, hitems, Option.map_some]

/-- A member has its name in front of its value. -/
theorem readMembers?_last (onLines : Bool) (hstart : Starts s) (hvalue : readValue? nesting s = some (value, rest))
    (hclose : skipBlank rest = '\x7d' :: ending) :
    readMembers? (nesting + 1) (putName onLines name s) = some ([(name, value)], ending) := by
  rw [putName, putString, List.cons_append, readMembers?]
  simp only [readString?_flatMap_escapeChar, List.cons_append, skipBlank_cons (c := ':') (by decide),
    skipBlank_afterColon onLines hstart, hvalue, hclose, String.ofList_toList]

theorem readMembers?_next (onLines : Bool) (hstart : Starts s) (hvalue : readValue? nesting s = some (value, rest))
    (hcomma : skipBlank rest = ',' :: more) (hmembers : readMembers? nesting (skipBlank more) = some (members, ending)) :
    readMembers? (nesting + 1) (putName onLines name s) = some ((name, value) :: members, ending) := by
  rw [putName, putString, List.cons_append, readMembers?]
  simp only [readString?_flatMap_escapeChar, List.cons_append, skipBlank_cons (c := ':') (by decide),
    skipBlank_afterColon onLines hstart, hvalue, hcomma, hmembers, String.ofList_toList, Option.map_some]

end

/-! ## Arrays and objects, from one item or member on -/

section
variable (onLines : Bool) (depth : ℕ) (rest : List Char)

/-- What stands behind an item: the items that follow it, and the end of the array. -/
def behindItem (items : List Json) : List Char :=
  putItems onLines (depth + 1) items (putGap onLines depth (']' :: rest))

/-- An item and what stands behind it. -/
def itemsText (item : Json) (items : List Json) : List Char :=
  item.put onLines (depth + 1) (behindItem onLines depth rest items)

/-- What stands behind the value of a member: the members that follow it, and the end of the object. -/
def behindMember (members : List (String × Json)) : List Char :=
  putMembers onLines (depth + 1) members (putGap onLines depth ('\x7d' :: rest))

/-- A member and what stands behind it. -/
def membersText (name : String) (value : Json) (members : List (String × Json)) : List Char :=
  putName onLines name (value.put onLines (depth + 1) (behindMember onLines depth rest members))

theorem put_array (item : Json) (items : List Json) :
    (arr (item :: items)).put onLines depth rest =
      '[' :: putGap onLines (depth + 1) (itemsText onLines depth rest item items) := by
  rw [put, itemsText, behindItem]

theorem put_object (name : String) (value : Json) (members : List (String × Json)) :
    (obj ((name, value) :: members)).put onLines depth rest =
      '\x7b' :: putGap onLines (depth + 1) (membersText onLines depth rest name value members) := by
  rw [put, membersText, behindMember, putName]

theorem behindItem_cons (item : Json) (items : List Json) :
    behindItem onLines depth rest (item :: items) =
      ',' :: putGap onLines (depth + 1) (itemsText onLines depth rest item items) := by
  rw [behindItem, putItems, itemsText, behindItem]

theorem behindMember_cons (name : String) (value : Json) (members : List (String × Json)) :
    behindMember onLines depth rest ((name, value) :: members) =
      ',' :: putGap onLines (depth + 1) (membersText onLines depth rest name value members) := by
  rw [behindMember, putMembers, membersText, behindMember, putName]

theorem skipBlank_behindItem_nil : skipBlank (behindItem onLines depth rest []) = ']' :: rest := by
  rw [behindItem, putItems, skipBlank_putGap]
  exact skipBlank_cons (by decide) rest

theorem skipBlank_behindMember_nil : skipBlank (behindMember onLines depth rest []) = '\x7d' :: rest := by
  rw [behindMember, putMembers, skipBlank_putGap]
  exact skipBlank_cons (by decide) rest

theorem skipBlank_behindItem_cons (item : Json) (items : List Json) :
    skipBlank (behindItem onLines depth rest (item :: items)) =
      ',' :: putGap onLines (depth + 1) (itemsText onLines depth rest item items) := by
  rw [behindItem_cons]
  exact skipBlank_cons (by decide) _

theorem skipBlank_behindMember_cons (name : String) (value : Json) (members : List (String × Json)) :
    skipBlank (behindMember onLines depth rest ((name, value) :: members)) =
      ',' :: putGap onLines (depth + 1) (membersText onLines depth rest name value members) := by
  rw [behindMember_cons]
  exact skipBlank_cons (by decide) _

theorem skipBlank_itemsText {item : Json} (h : item.IsReadable) (items : List Json) :
    skipBlank (putGap onLines (depth + 1) (itemsText onLines depth rest item items)) =
      itemsText onLines depth rest item items := by
  rw [skipBlank_putGap]
  exact skipBlank_of_starts (starts_put onLines h _ _)

theorem skipBlank_membersText (name : String) (value : Json) (members : List (String × Json)) :
    skipBlank (putGap onLines (depth + 1) (membersText onLines depth rest name value members)) =
      membersText onLines depth rest name value members := by
  rw [skipBlank_putGap]
  exact skipBlank_cons (by decide) _

theorem follows_behindItem (items : List Json) : Follows (behindItem onLines depth rest items) := by
  cases items with
  | nil => exact follows_putGap onLines depth (follows_cons rfl rest)
  | cons item items => exact follows_cons rfl _

theorem follows_behindMember (members : List (String × Json)) : Follows (behindMember onLines depth rest members) := by
  cases members with
  | nil => exact follows_putGap onLines depth (follows_cons rfl rest)
  | cons member members => exact follows_cons rfl _

theorem length_lt_behindItem (items : List Json) : rest.length < (behindItem onLines depth rest items).length :=
  calc rest.length
    _ < (']' :: rest).length := Nat.lt_succ_self _
    _ ≤ _ := length_le_putGap onLines depth _
    _ ≤ _ := length_le_putItems onLines items (depth + 1) _

theorem length_lt_behindMember (members : List (String × Json)) :
    rest.length < (behindMember onLines depth rest members).length :=
  calc rest.length
    _ < ('\x7d' :: rest).length := Nat.lt_succ_self _
    _ ≤ _ := length_le_putGap onLines depth _
    _ ≤ _ := length_le_putMembers onLines members (depth + 1) _

theorem length_behindItem_lt (item : Json) (items : List Json) :
    (behindItem onLines depth rest items).length < (itemsText onLines depth rest item items).length :=
  length_lt_put onLines item _ _

theorem length_behindMember_lt (name : String) (value : Json) (members : List (String × Json)) :
    (value.put onLines (depth + 1) (behindMember onLines depth rest members)).length <
      (membersText onLines depth rest name value members).length :=
  length_lt_putName onLines name _

/-- An item makes the text of the items behind it longer. -/
theorem length_itemsText_lt (item next : Json) (others : List Json) :
    (itemsText onLines depth rest next others).length < (itemsText onLines depth rest item (next :: others)).length :=
  calc (itemsText onLines depth rest next others).length
    _ ≤ _ := length_le_putGap onLines (depth + 1) _
    _ < (behindItem onLines depth rest (next :: others)).length := by
      rw [behindItem_cons]
      exact Nat.lt_succ_self _
    _ < _ := length_lt_put onLines item _ _

/-- A member makes the text of the members behind it longer. -/
theorem length_membersText_lt (name : String) (value : Json) (next : String × Json) (others : List (String × Json)) :
    (membersText onLines depth rest next.1 next.2 others).length <
      (membersText onLines depth rest name value (next :: others)).length :=
  calc (membersText onLines depth rest next.1 next.2 others).length
    _ ≤ _ := length_le_putGap onLines (depth + 1) _
    _ < (behindMember onLines depth rest (next :: others)).length := by
      rw [behindMember_cons]
      exact Nat.lt_succ_self _
    _ < _ := length_lt_put onLines value (depth + 1) _
    _ < _ := length_lt_putName onLines name _

end

/-! ## Values read back -/

section
variable (onLines : Bool)

/-- The reader gives values back and stops where their texts end, if it can count down along them. -/
def Reads (nesting : ℕ) : Prop :=
  ∀ (depth : ℕ) (rest : List Char) (value : Json), value.IsReadable → Follows rest →
    (value.put onLines depth rest).length ≤ nesting + rest.length →
      readValue? nesting (value.put onLines depth rest) = some (value, rest)

/-- The reader gives items back. -/
def ReadsItems (nesting : ℕ) : Prop :=
  ∀ (depth : ℕ) (rest : List Char) (item : Json) (items : List Json), AreReadable (item :: items) →
    (itemsText onLines depth rest item items).length ≤ nesting + rest.length →
      readItems? nesting (itemsText onLines depth rest item items) = some (item :: items, rest)

/-- The reader gives members back. -/
def ReadsMembers (nesting : ℕ) : Prop :=
  ∀ (depth : ℕ) (rest : List Char) (name : String) (value : Json) (members : List (String × Json)),
    HaveReadable ((name, value) :: members) →
    (membersText onLines depth rest name value members).length ≤ nesting + rest.length →
      readMembers? nesting (membersText onLines depth rest name value members) = some ((name, value) :: members, rest)

variable {onLines} {nesting : ℕ}

theorem reads_succ (hitems : ReadsItems onLines nesting) (hmembers : ReadsMembers onLines nesting) :
    Reads onLines (nesting + 1) := by
  intro depth rest value h hrest hlength
  -- only numbers need to know what stands behind them; the text of every other value has an end of its own
  match value with
  | .null => rfl
  | .bool true => rfl
  | .bool false => rfl
  | .int n => exact readValue?_numeral (spells_int h.1 h.2) hrest
  | .float x =>
    have hx : x.isFinite = true := h
    show readValue? (nesting + 1) (putNumber x rest) = _
    rw [putNumber, if_pos hx]
    exact readValue?_numeral (spells_finite hx) hrest
  | .str s =>
    show (readString? (s.toList.flatMap escapeChar ++ '\x22' :: rest)).map _ = _
    rw [readString?_flatMap_escapeChar]
    exact congrArg (fun s => some (Json.str s, rest)) String.ofList_toList
  | .arr [] => rfl
  | .arr (item :: items) =>
    have hgap := length_le_putGap onLines (depth + 1) (itemsText onLines depth rest item items)
    rw [put_array, List.length_cons] at hlength
    have hskip := skipBlank_itemsText onLines depth rest h.1 items
    have hread := hitems depth rest item items h (by omega)
    rw [put_array]
    exact readValue?_array (by rw [hskip]; exact starts_put onLines h.1 _ _) (by rw [hskip, hread])
  | .obj [] => rfl
  | .obj ((name, value) :: members) =>
    have hgap := length_le_putGap onLines (depth + 1) (membersText onLines depth rest name value members)
    rw [put_object, List.length_cons] at hlength
    have hread := hmembers depth rest name value members h (by omega)
    rw [put_object]
    exact readValue?_object (skipBlank_membersText onLines depth rest name value members) hread

/-- Behind an item the array ends, or there is a comma and the next item. -/
theorem readsItems_succ (hvalue : Reads onLines nesting) (hitems : ReadsItems onLines nesting) :
    ReadsItems onLines (nesting + 1) := by
  intro depth rest item items h hlength
  have hbehind := length_lt_behindItem onLines depth rest items
  have hitem : readValue? nesting (itemsText onLines depth rest item items) = some (item, _) :=
    hvalue _ _ item h.1 (follows_behindItem onLines depth rest items) (by unfold itemsText at hlength; omega)
  cases items with
  | nil => exact readItems?_last hitem (skipBlank_behindItem_nil onLines depth rest)
  | cons next others =>
    have hshorter := length_itemsText_lt onLines depth rest item next others
    refine readItems?_next hitem (skipBlank_behindItem_cons onLines depth rest next others) ?_
    rw [skipBlank_itemsText onLines depth rest h.2.1 others]
    exact hitems depth rest next others h.2 (by omega)

/-- Behind a member the object ends, or there is a comma and the next member. -/
theorem readsMembers_succ (hvalue : Reads onLines nesting) (hmembers : ReadsMembers onLines nesting) :
    ReadsMembers onLines (nesting + 1) := by
  intro depth rest name value members h hlength
  have hbehind := length_lt_behindMember onLines depth rest members
  have hname := length_behindMember_lt onLines depth rest name value members
  have hstart := starts_put onLines h.1 (depth + 1) (behindMember onLines depth rest members)
  have hread : readValue? nesting (value.put onLines (depth + 1) _) = some (value, _) :=
    hvalue _ _ value h.1 (follows_behindMember onLines depth rest members) (by omega)
  cases members with
  | nil => exact readMembers?_last onLines hstart hread (skipBlank_behindMember_nil onLines depth rest)
  | cons next others =>
    have hshorter := length_membersText_lt onLines depth rest name value next others
    refine readMembers?_next onLines hstart hread
      (skipBlank_behindMember_cons onLines depth rest next.1 next.2 others) ?_
    rw [skipBlank_membersText onLines depth rest next.1 next.2 others]
    exact hmembers depth rest next.1 next.2 others h.2 (by omega)

/-- **The reader gives back what was written.** -/
theorem reads (onLines : Bool) (nesting : ℕ) :
    Reads onLines nesting ∧ ReadsItems onLines nesting ∧ ReadsMembers onLines nesting := by
  induction nesting with
  | zero =>
    -- no text is as short as what stands behind it
    refine ⟨fun depth rest value _ _ hlength => ?_, fun depth rest item items _ hlength => ?_,
      fun depth rest name value members _ hlength => ?_⟩
    · have htext := length_lt_put onLines value depth rest
      omega
    · have hbehind := length_lt_behindItem onLines depth rest items
      have hitem := length_behindItem_lt onLines depth rest item items
      omega
    · have hbehind := length_lt_behindMember onLines depth rest members
      have hvalue := length_lt_put onLines value (depth + 1) (behindMember onLines depth rest members)
      have hname := length_behindMember_lt onLines depth rest name value members
      omega
  | succ nesting ih =>
    obtain ⟨hvalue, hitems, hmembers⟩ := ih
    exact ⟨reads_succ hitems hmembers, readsItems_succ hvalue hitems, readsMembers_succ hvalue hmembers⟩

end

/-! ## Whole texts -/

theorem parse?_put (onLines : Bool) {value : Json} (h : value.IsReadable) :
    parse? (String.ofList (value.put onLines 0 [])) = some value := by
  have hstart := starts_put onLines h 0 []
  have hread := (reads onLines (2 * (value.put onLines 0 []).length + 1)).1 0 [] value h nofun (by omega)
  unfold parse?
  rw [String.toList_ofList]
  simp only [skipBlank_of_starts hstart, hread]
  rfl

/-- **A readable value is read back from its text on one line.** -/
theorem parse?_compact {value : Json} (h : value.IsReadable) : parse? value.compact = some value :=
  parse?_put false h

/-- **A readable value is read back from its text on many lines.** -/
theorem parse?_pretty {value : Json} (h : value.IsReadable) : parse? value.pretty = some value :=
  parse?_put true h

end LatencyReport.Json
