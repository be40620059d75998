import LatencyReport.Proofs.Config.RoundTrip
import Mathlib.Algebra.Group.Int.Defs
import Mathlib.Data.List.Nodup

/-!
# `Proofs.Config.ThresholdField` — what a plot may say of its threshold

A plot says its threshold as a number of bytes, as a text with a unit, or not at all. **Everything else is refused**
(`option_size_eq_ok_iff`): zero, what is negative or has more than 64 bits, what has a fraction or a power, and what is
no scalar.

A record is filled field by field, and the threshold has no part in any field but its own, nor has another field in it
(`put_withThreshold`). So **the plot that is read is the plot without a threshold, and with the one that its field says**
(`TakesThreshold`) — wherever the field stands, whether the record is an object or a list, and whether or not it was set
aside until the kind of the plot was said (`readTagged_obj_iff`).

## Contents

* `SaysThreshold`, `option_size_eq_ok_iff` — the values that are thresholds;
* `fillFields_append`, `fillFields_commutes`, `put_withThreshold`, `ofFields_threshold` — the fields of a plot;
* `read_obj_iff`, `read_arr_iff`, `readTagged_obj_iff` — the fields of objects and lists;
* `TakesThreshold`, `GivesThreshold`, `takesThreshold` — plots.
-/

namespace LatencyReport

open Document

/-! ## The values that are thresholds -/

/-- **What a value says of a threshold**: that there is none, a number of bytes, or the size that a text is. -/
inductive Json.SaysThreshold : Json → Option UInt64 → Prop where
  | nothing : SaysThreshold .null none
  | number {n : Nat} (hpos : 1 ≤ n) (hfits : n ≤ 2 ^ 64 - 1) : SaysThreshold (.int n) (some (UInt64.ofNat n))
  | text {s : String} {n : UInt64} (h : Size.parse s = .ok n) : SaysThreshold (.str s) (some n)

/-- A text is what its size is, or fails as its size does. -/
theorem option_size_str (s : String) :
    (ofJson (.str s)).option size =
      ((Size.parse s).map some).mapError fun fault => DocumentFault.size (.text fault) := by
  show ((ofJson (.str s)).size).map some = _
  rw [size, setAside_ofJson]
  simp only [ofJson, plain]
  cases Size.parse s <;> rfl

/-- A number is itself, if it is positive and fits. -/
theorem option_size_int (n : ℤ) {t : Option UInt64} :
    (ofJson (.int n)).option size = .ok t ↔ (1 ≤ n ∧ n ≤ 2 ^ 64 - 1) ∧ t = some (UInt64.ofNat n.toNat) := by
  show ((ofJson (.int n)).size).map some = .ok t ↔ _
  rw [map_eq_ok_iff, size, setAside_ofJson]
  simp only [ofJson, plain]
  have hsize : (UInt64.size : ℤ) = 2 ^ 64 := rfl
  have hrefused : ∀ fault : DocumentFault, ¬∃ m, (Except.error fault : Except _ UInt64) = .ok m ∧ some m = t := by
    rintro _ ⟨_, h, _⟩
    cases h
  by_cases hneg : 0 ≤ n
  · simp only [if_pos hneg]
    by_cases hzero : n.toNat = 0
    · rw [if_pos hzero]
      exact iff_of_false (hrefused _) fun h => by omega
    · rw [if_neg hzero]
      by_cases hfits : n.toNat < UInt64.size
      · rw [if_pos hfits]
        constructor
        · rintro ⟨m, hm, rfl⟩
          obtain rfl := Except.ok.inj hm
          exact ⟨by omega, rfl⟩
        · rintro ⟨_, rfl⟩
          exact ⟨_, rfl, rfl⟩
      · rw [if_neg hfits]
        exact iff_of_false (hrefused _) fun h => by omega
  · simp only [if_neg hneg]
    exact iff_of_false (hrefused _) fun h => by omega

/-- **The values that are thresholds, and no others.** -/
theorem option_size_eq_ok_iff {v : Json} {t : Option UInt64} : (ofJson v).option size = .ok t ↔ v.SaysThreshold t := by
  constructor
  · intro h
    cases v with
    | null =>
      obtain rfl := Except.ok.inj h
      exact .nothing
    | bool b => cases h
    | float x => cases h
    | int n =>
      obtain ⟨⟨hpos, hfits⟩, rfl⟩ := (option_size_int n).mp h
      obtain ⟨n, rfl⟩ := Int.eq_ofNat_of_zero_le (Int.le_of_lt hpos)
      exact .number (by omega) (by omega)
    | str s =>
      rw [option_size_str] at h
      cases hsize : Size.parse s with
      | error fault =>
        rw [hsize] at h
        cases h
      | ok n =>
        rw [hsize] at h
        obtain rfl := Except.ok.inj h
        exact .text hsize
    | arr items =>
      obtain ⟨n, hsize, _⟩ := map_eq_ok_iff.mp h
      rw [size, setAside_ofJson] at hsize
      cases hsize
    | obj members =>
      obtain ⟨n, hsize, _⟩ := map_eq_ok_iff.mp h
      rw [size, setAside_ofJson] at hsize
      cases hsize
  · intro h
    cases h with
    | nothing => rfl
    | number hpos hfits => exact (option_size_int _).mpr ⟨⟨by omega, by omega⟩, rfl⟩
    | text hsize =>
      rw [option_size_str, hsize]
      rfl

/-! ## The fields of a plot -/

section
variable {α : Type} {put : α → Nat → Document → Except DocumentFault α}

/-- Fields behind others are put into what these leave. -/
theorem fillFields_append (held : α) (front back : List (Nat × Document)) :
    fillFields put held (front ++ back) = fillFields put held front >>= fun next => fillFields put next back := by
  induction front generalizing held with
  | nil => rfl
  | cons field rest ih =>
    obtain ⟨i, d⟩ := field
    rw [List.cons_append, fillFields, fillFields]
    cases put held i d with
    | error e => rfl
    | ok next => exact ih next

/-- **A change that no field takes part in** can be made before the fields are put or after. -/
theorem fillFields_commutes {change : α → α} {written : List (Nat × Document)}
    (h : ∀ held, ∀ field ∈ written, put (change held) field.1 field.2 = (put held field.1 field.2).map change)
    (held : α) : fillFields put (change held) written = (fillFields put held written).map change := by
  induction written generalizing held with
  | nil => rfl
  | cons field rest ih =>
    obtain ⟨i, d⟩ := field
    have hfirst : put (change held) i d = (put held i d).map change := h held (i, d) List.mem_cons_self
    rw [fillFields, fillFields, hfirst]
    cases put held i d with
    | error e => rfl
    | ok next => exact ih (fun held field hfield => h held field (List.mem_cons_of_mem _ hfield)) next

end

namespace Comparison

/-- The place of the threshold among the names of the fields. -/
def thresholdPlace : Nat := 3

/-- The fields with another threshold. -/
def Fields.withThreshold (t : Option (Option UInt64)) (f : Fields) : Fields :=
  { f with threshold := t }

/-- The plot with another threshold. -/
def withThreshold (t : Option UInt64) (c : Comparison) : Comparison :=
  { c with threshold := t }

variable {dialect : Dialect}

/-- **No other field has a part in the threshold**, nor the threshold in any other field. -/
theorem put_withThreshold (t : Option (Option UInt64)) (f : Fields) {i : Nat} (hi : i ≠ thresholdPlace) (d : Document) :
    (f.withThreshold t).put dialect i d = (f.put dialect i d).map (Fields.withThreshold t) := by
  have hmap : ∀ {β : Type} (x : Except DocumentFault β) (g : Fields → β → Fields)
      (_ : ∀ b, g (f.withThreshold t) b = (g f b).withThreshold t),
      x.map (g (f.withThreshold t)) = (x.map (g f)).map (Fields.withThreshold t) := by
    intro β x g hg
    cases x with
    | error e => rfl
    | ok b => exact congrArg Except.ok (hg b)
  unfold Fields.put
  split
  · exact hmap _ (fun f x => { f with name := some x }) fun _ => rfl
  · exact hmap _ (fun f x => { f with title := some x }) fun _ => rfl
  · exact hmap _ (fun f x => { f with selections := some x }) fun _ => rfl
  · exact absurd rfl hi
  · exact hmap _ (fun f x => { f with dimensions := some x }) fun _ => rfl
  · rfl

theorem finish_withThreshold (t : Option (Option UInt64)) (f : Fields) :
    (f.withThreshold t).finish = f.finish.map (withThreshold (t.getD none)) := by
  obtain ⟨name, title, selections, threshold, dimensions⟩ := f
  cases name with
  | none => rfl
  | some name =>
    cases title with
    | none => rfl
    | some title => cases selections <;> rfl

/-- The plot that fields make up, in the order in which they are written. -/
def ofFields (dialect : Dialect) (written : List (Nat × Document)) : Except DocumentFault Comparison :=
  fillFields (Fields.put dialect) {} written >>= Fields.finish

/-- Fields without a threshold make up a plot without threshold. -/
theorem threshold_of_ofFields {written : List (Nat × Document)} (h : ∀ field ∈ written, field.1 ≠ thresholdPlace)
    {c : Comparison} (hc : ofFields dialect written = .ok c) : c.threshold = none := by
  have hempty : Fields.withThreshold none {} = {} := rfl
  have hfill : fillFields (Fields.put dialect) (Fields.withThreshold none {}) written =
      (fillFields (Fields.put dialect) {} written).map (Fields.withThreshold none) :=
    fillFields_commutes (fun held field hfield => put_withThreshold none held (h field hfield) field.2) {}
  obtain ⟨f, hf, hc⟩ := bind_eq_ok_iff.mp hc
  rw [hempty, hf] at hfill
  have hnone : f = f.withThreshold none := Except.ok.inj hfill
  rw [hnone, finish_withThreshold] at hc
  obtain ⟨c, _, rfl⟩ := map_eq_ok_iff.mp hc
  rfl

/-- **The plot with a threshold among its fields** is the plot without it, and with what the field says. -/
theorem ofFields_threshold {front back : List (Nat × Document)} (h : ∀ field ∈ back, field.1 ≠ thresholdPlace)
    (d : Document) {c : Comparison} :
    ofFields dialect (front ++ (thresholdPlace, d) :: back) = .ok c ↔
      ∃ t rest, d.option size = .ok t ∧ ofFields dialect (front ++ back) = .ok rest ∧ c = rest.withThreshold t := by
  have hput : ∀ f : Fields, f.put dialect thresholdPlace d =
      (d.option size).map fun t => f.withThreshold (some t) := fun _ => rfl
  have hback : ∀ t f, fillFields (Fields.put dialect) (Fields.withThreshold t f) back =
      (fillFields (Fields.put dialect) f back).map (Fields.withThreshold t) := fun t f =>
    fillFields_commutes (fun held field hfield => put_withThreshold t held (h field hfield) field.2) f
  unfold ofFields
  rw [fillFields_append, fillFields_append]
  constructor
  · intro hc
    obtain ⟨g, hg, hfinish⟩ := bind_eq_ok_iff.mp hc
    obtain ⟨f, hf, hg⟩ := bind_eq_ok_iff.mp hg
    rw [fillFields, hput] at hg
    cases ht : d.option size with
    | error e =>
      rw [ht] at hg
      cases hg
    | ok t =>
      rw [ht] at hg
      obtain ⟨others, hothers, rfl⟩ := map_eq_ok_iff.mp ((hback (some t) f).symm.trans hg)
      rw [finish_withThreshold] at hfinish
      obtain ⟨rest, hrest, rfl⟩ := map_eq_ok_iff.mp hfinish
      exact ⟨t, rest, rfl, bind_eq_ok_iff.mpr ⟨others, bind_eq_ok_iff.mpr ⟨f, hf, hothers⟩, hrest⟩, rfl⟩
  · rintro ⟨t, rest, ht, hrest, rfl⟩
    obtain ⟨others, hothers, hfinish⟩ := bind_eq_ok_iff.mp hrest
    obtain ⟨f, hf, hothers⟩ := bind_eq_ok_iff.mp hothers
    refine bind_eq_ok_iff.mpr ⟨others.withThreshold (some t), bind_eq_ok_iff.mpr ⟨f, hf, ?_⟩, ?_⟩
    · rw [fillFields, hput, ht]
      exact (hback (some t) f).trans (by rw [hothers]; rfl)
    · rw [finish_withThreshold, hfinish]
      rfl

/-! ## Plots -/

/-- The members of an object that are fields, each with the place of its name. -/
def placed (members : List (String × Json)) : List (Nat × Document) :=
  members.filterMap fun m => (fieldNames.findIdx? (· == m.1)).map fun i => (i, ofJson m.2)

theorem places_ofJsonMembers (members : List (String × Json)) :
    places fieldNames (ofJsonMembers members) = .ok (placed members) := by
  induction members with
  | nil => rfl
  | cons member rest ih =>
    obtain ⟨name, value⟩ := member
    have hplace : (plain { text := some name }).place fieldNames = .ok (fieldNames.findIdx? (· == name)) := rfl
    rw [ofJsonMembers, places, hplace, ih]
    unfold placed
    cases hfound : fieldNames.findIdx? (· == name) with
    | none => rw [List.filterMap_cons_none (by rw [hfound]; rfl)]
    | some i => rw [List.filterMap_cons_some (by rw [hfound]; rfl)]

/-- An object is read as the plot that its fields make up, if no field is written twice. -/
theorem read_obj_iff {members : List (String × Json)} {c : Comparison} :
    Comparison.read dialect (ofJson (.obj members)) = .ok c ↔
      ((placed members).map (·.1)).Nodup ∧ ofFields dialect (placed members) = .ok c := by
  have hfields : (ofJson (.obj members)).fields dialect fieldNames =
      if ((placed members).map (·.1)).Nodup then .ok (placed members) else .error .form := by
    simp only [ofJson, fields, unmarked, places_ofJsonMembers]
  unfold Comparison.read
  rw [hfields]
  split
  · rename_i hnodup
    exact (and_iff_right hnodup).symm
  · rename_i hdouble
    exact iff_of_false (fun h => by cases h) fun h => hdouble h.1

/-- A list is read as the plot that its items make up, where records can be lists. -/
theorem read_arr_iff {items : List Json} {c : Comparison} :
    Comparison.read dialect (ofJson (.arr items)) = .ok c ↔
      dialect.listIsRecord = true ∧ ofFields dialect ((items.map ofJson).zipIdx.map fun (x, i) => (i, x)) = .ok c := by
  have hfields : (ofJson (.arr items)).fields dialect fieldNames =
      if dialect.listIsRecord then .ok ((items.map ofJson).zipIdx.map fun (x, i) => (i, x)) else .error .form := by
    simp only [ofJson, fields, unmarked, ofJsonItems_eq]
  unfold Comparison.read
  rw [hfields]
  split
  · rename_i hrecord
    exact (and_iff_right hrecord).symm
  · rename_i hnone
    exact iff_of_false (fun h => by cases h) fun h => hnone h.1

/-- Only members of that name are thresholds. -/
theorem ne_thresholdPlace_of_mem_placed {members : List (String × Json)} (h : ∀ m ∈ members, m.1 ≠ "threshold") :
    ∀ field ∈ placed members, field.1 ≠ thresholdPlace := by
  intro field hfield hthreshold
  obtain ⟨m, hm, hplace⟩ := List.mem_filterMap.mp hfield
  obtain ⟨i, hi, rfl⟩ := Option.map_eq_some_iff.mp hplace
  obtain rfl : i = thresholdPlace := hthreshold
  obtain ⟨_, hname, _⟩ := List.findIdx?_eq_some_iff_getElem.mp hi
  exact h m hm (beq_iff_eq.mp hname).symm

theorem placed_threshold (front back : List (String × Json)) (v : Json) :
    placed (front ++ ("threshold", v) :: back) = placed front ++ (thresholdPlace, ofJson v) :: placed back := by
  have hplace : fieldNames.findIdx? (· == "threshold") = some thresholdPlace := by decide
  unfold placed
  rw [List.filterMap_append, List.filterMap_cons_some (by rw [hplace]; rfl)]

/-- **A reader takes the threshold of a plot from the value that is given**: what it reads is the plot without a
    threshold, which has none, and with the threshold that the value says. -/
structure TakesThreshold (read : Document → Except DocumentFault Comparison) (plot : Json → Json) (without : Json) :
    Prop where
  read_iff : ∀ v c, read (ofJson (plot v)) = .ok c ↔
    ∃ t rest, v.SaysThreshold t ∧ read (ofJson without) = .ok rest ∧ c = rest.withThreshold t
  threshold_eq : ∀ c, read (ofJson without) = .ok c → c.threshold = none

/-- What has nothing to do with the threshold is said of the rest of the plot. -/
theorem and_exists_withThreshold_iff {p : Prop} {said : Option UInt64 → Prop} {base : Comparison → Prop}
    {c : Comparison} :
    (p ∧ ∃ t rest, said t ∧ base rest ∧ c = rest.withThreshold t) ↔
      ∃ t rest, said t ∧ (p ∧ base rest) ∧ c = rest.withThreshold t := by
  constructor
  · rintro ⟨hp, t, rest, ht, hrest, hc⟩
    exact ⟨t, rest, ht, ⟨hp, hrest⟩, hc⟩
  · rintro ⟨t, rest, ht, ⟨hp, hrest⟩, hc⟩
    exact ⟨hp, t, rest, ht, hrest, hc⟩

/-- A plot that is given nothing is a plot without a threshold. -/
theorem takesThreshold_of_base {read : Document → Except DocumentFault Comparison} {plot : Json → Json}
    {base : Comparison → Prop} (h : ∀ v c, read (ofJson (plot v)) = .ok c ↔
      ∃ t rest, v.SaysThreshold t ∧ base rest ∧ c = rest.withThreshold t) :
    TakesThreshold read plot (plot .null) := by
  constructor
  · intro v c
    constructor
    · intro hc
      obtain ⟨t, rest, ht, hrest, rfl⟩ := (h v c).mp hc
      exact ⟨t, rest.withThreshold none, ht, (h .null _).mpr ⟨none, rest, .nothing, hrest, rfl⟩, rfl⟩
    · rintro ⟨t, other, ht, hother, rfl⟩
      obtain ⟨_, rest, _, hrest, rfl⟩ := (h .null other).mp hother
      exact (h v _).mpr ⟨t, rest, ht, hrest, rfl⟩
  · intro c hc
    obtain ⟨_, rest, ht, _, rfl⟩ := (h .null c).mp hc
    cases ht
    rfl

/-- **A plot as an object.** The member with the threshold can be taken out. -/
theorem takesThreshold_member {front back : List (String × Json)} (h : ∀ m ∈ front ++ back, m.1 ≠ "threshold") :
    TakesThreshold (Comparison.read dialect) (fun v => .obj (front ++ ("threshold", v) :: back))
      (.obj (front ++ back)) := by
  have hback := (List.forall_mem_append.mp h).2
  have happend : placed (front ++ back) = placed front ++ placed back := List.filterMap_append
  have hplaces : ∀ field ∈ placed (front ++ back), field.1 ≠ thresholdPlace := ne_thresholdPlace_of_mem_placed h
  have hnew : thresholdPlace ∉ (placed (front ++ back)).map (·.1) := by
    intro hmem
    obtain ⟨field, hfield, hplace⟩ := List.mem_map.mp hmem
    exact hplaces field hfield hplace
  have hnodup : ∀ d, ((placed front ++ (thresholdPlace, d) :: placed back).map (·.1)).Nodup ↔
      ((placed (front ++ back)).map (·.1)).Nodup := by
    intro d
    rw [List.map_append, List.map_cons, List.nodup_middle, List.nodup_cons, ← List.map_append, ← happend]
    exact and_iff_right hnew
  refine ⟨fun v c => ?_, fun c hc => threshold_of_ofFields hplaces (read_obj_iff.mp hc).2⟩
  rw [read_obj_iff, placed_threshold, hnodup, ofFields_threshold (ne_thresholdPlace_of_mem_placed hback), ← happend]
  simp only [read_obj_iff, option_size_eq_ok_iff]
  exact and_exists_withThreshold_iff

/-! ### Lists -/

/-- The fields of a list behind the first ones are not the threshold. -/
theorem ne_thresholdPlace_of_mem_zipIdx {items : List Document} :
    ∀ field ∈ (items.zipIdx (thresholdPlace + 1)).map fun (x, i) => (i, x), field.1 ≠ thresholdPlace := by
  intro field hfield
  obtain ⟨⟨x, i⟩, hitem, rfl⟩ := List.mem_map.mp hfield
  exact Nat.ne_of_gt (List.le_snd_of_mem_zipIdx hitem)

/-- The items in front of the threshold are not the threshold. -/
theorem ne_thresholdPlace_of_mem_items (name title series : Document) :
    ∀ field ∈ [(0, name), (1, title), (2, series)], field.1 ≠ thresholdPlace := by
  simp [thresholdPlace]

theorem read_items_iff (name title series v : Json) (others : List Json) {c : Comparison} :
    Comparison.read dialect (ofJson (.arr (name :: title :: series :: v :: others))) = .ok c ↔
      ∃ t rest, v.SaysThreshold t ∧
        (dialect.listIsRecord = true ∧
          ofFields dialect ([(0, ofJson name), (1, ofJson title), (2, ofJson series)] ++
            ((others.map ofJson).zipIdx (thresholdPlace + 1)).map fun (x, i) => (i, x)) = .ok rest) ∧
        c = rest.withThreshold t := by
  have hfields : ((name :: title :: series :: v :: others).map ofJson).zipIdx.map (fun (x, i) => (i, x)) =
      [(0, ofJson name), (1, ofJson title), (2, ofJson series)] ++ (thresholdPlace, ofJson v) ::
        ((others.map ofJson).zipIdx (thresholdPlace + 1)).map fun (x, i) => (i, x) := rfl
  rw [read_arr_iff, hfields, ofFields_threshold ne_thresholdPlace_of_mem_zipIdx]
  simp only [option_size_eq_ok_iff]
  exact and_exists_withThreshold_iff

/-- A list that ends with the threshold can end in front of it. -/
theorem takesThreshold_last (name title series : Json) :
    TakesThreshold (Comparison.read dialect) (fun v => .arr [name, title, series, v]) (.arr [name, title, series]) := by
  refine ⟨fun v c => ?_, fun c hc => ?_⟩
  · rw [read_items_iff]
    simp only [read_arr_iff]
    rfl
  · exact threshold_of_ofFields (ne_thresholdPlace_of_mem_items _ _ _) (read_arr_iff.mp hc).2

/-! ### Plots that say their kind -/

/-- What the members of an object say of the kind of a plot. -/
def kindsSaid (members : List (String × Json)) : List Json :=
  (members.filter (·.1 = "type")).map (·.2)

/-- The members that say something else. -/
def otherMembers (members : List (String × Json)) : List (String × Json) :=
  members.filter (·.1 ≠ "type")

theorem text_ofJson_eq_ok_iff {v : Json} {s : String} : (ofJson v).text = .ok s ↔ v = .str s := by
  constructor
  · intro h
    cases v with
    | str other => rw [Except.ok.inj h]
    | _ => cases h
  · rintro rfl
    rfl

theorem kindsSaid_type (v : Json) (rest : List (String × Json)) :
    kindsSaid (("type", v) :: rest) = v :: kindsSaid rest ∧ otherMembers (("type", v) :: rest) = otherMembers rest := by
  simp [kindsSaid, otherMembers]

theorem kindsSaid_other {name : String} (h : name ≠ "type") (v : Json) (rest : List (String × Json)) :
    kindsSaid ((name, v) :: rest) = kindsSaid rest ∧
      otherMembers ((name, v) :: rest) = (name, v) :: otherMembers rest := by
  simp [kindsSaid, otherMembers, h]

/-- A member that says the kind comes once at most, and says that it is a comparison. -/
theorem setAsideFields_type (seen : Bool) (v : Json) (rest : List (Document × Document))
    {found : Bool × List (Document × Document)} :
    setAsideFields seen ((plain { text := some "type" }, ofJson v) :: rest) = .ok found ↔
      seen = false ∧ v = .str kind ∧ setAsideFields true rest = .ok found := by
  have hkey : isKindKey (plain { text := some "type" }) = true := rfl
  rw [setAsideFields, if_pos hkey]
  cases seen with
  | true => exact iff_of_false (fun h => by cases h) fun h => by cases h.1
  | false =>
    rw [if_neg Bool.false_ne_true, and_iff_right rfl]
    cases htext : (ofJson v).text with
    | error e =>
      refine iff_of_false (fun h => by cases h) fun h => ?_
      rw [text_ofJson_eq_ok_iff.mpr h.1] at htext
      cases htext
    | ok name =>
      obtain rfl := text_ofJson_eq_ok_iff.mp htext
      simp only [Json.str.injEq]
      split
      · rename_i hkind
        exact (and_iff_right hkind).symm
      · rename_i hkind
        exact iff_of_false (fun h => by cases h) fun h => hkind h.1

/-- **Members are set aside**, all but those that say the kind, of which there is one at most. -/
theorem setAsideFields_ofJsonMembers {members : List (String × Json)} {seen said : Bool}
    {others : List (Document × Document)} :
    setAsideFields seen (ofJsonMembers members) = .ok (said, others) ↔
      others = ofJsonMembers (otherMembers members) ∧
        ((kindsSaid members = [] ∧ said = seen) ∨ (kindsSaid members = [.str kind] ∧ seen = false ∧ said = true)) := by
  induction members generalizing seen said others with
  | nil =>
    have hnil : setAsideFields seen (ofJsonMembers []) = .ok (said, others) ↔ seen = said ∧ [] = others := by
      rw [ofJsonMembers, setAsideFields, Except.ok.injEq, Prod.mk.injEq]
    rw [hnil]
    constructor
    · rintro ⟨rfl, rfl⟩
      exact ⟨rfl, Or.inl ⟨rfl, rfl⟩⟩
    · rintro ⟨rfl, ⟨_, rfl⟩ | ⟨hkind, _⟩⟩
      · exact ⟨rfl, rfl⟩
      · cases hkind
  | cons member rest ih =>
    obtain ⟨name, v⟩ := member
    rw [ofJsonMembers]
    by_cases hname : name = "type"
    · subst hname
      obtain ⟨hkinds, hothers⟩ := kindsSaid_type v rest
      rw [setAsideFields_type, ih, hkinds, hothers]
      simp only [List.cons.injEq, reduceCtorEq, false_and, false_or, and_false, or_false]
      constructor
      · rintro ⟨hseen, hv, hrest, hnone, hsaid⟩
        exact ⟨hrest, ⟨hv, hnone⟩, hseen, hsaid⟩
      · rintro ⟨hrest, ⟨hv, hnone⟩, hseen, hsaid⟩
        exact ⟨hseen, hv, hrest, hnone, hsaid⟩
    · obtain ⟨hkinds, hothers⟩ := kindsSaid_other hname v rest
      have happend := @setAsideFields_append [(name, v)] (by simpa using hname) seen (ofJsonMembers rest)
      have hsingle : ofJsonMembers [(name, v)] = [(plain { text := some name }, ofJson v)] := rfl
      rw [hsingle, List.singleton_append] at happend
      rw [happend, map_eq_ok_iff, hkinds, hothers, ofJsonMembers]
      constructor
      · rintro ⟨⟨_, more⟩, hmore, heq⟩
        obtain ⟨rfl, rfl⟩ := Prod.mk.inj heq
        obtain ⟨rfl, hkind⟩ := ih.mp hmore
        exact ⟨rfl, hkind⟩
      · rintro ⟨rfl, hkind⟩
        exact ⟨(said, _), ih.mpr ⟨rfl, hkind⟩, rfl⟩

/-- **A plot that says its kind** is the plot that its other members say, once they were set aside. -/
theorem readTagged_obj_iff {members : List (String × Json)} {c : Comparison} :
    readTagged (ofJson (.obj members)) = .ok c ↔
      kindsSaid members = [.str kind] ∧ Comparison.read .setAside (ofJson (.obj (otherMembers members))) = .ok c := by
  have hread : readTagged (ofJson (.obj members)) =
      setAsideFields false (ofJsonMembers members) >>= fun found =>
        if found.1 then Comparison.read .setAside (.map found.2) else .error .form := rfl
  rw [hread, bind_eq_ok_iff]
  constructor
  · rintro ⟨⟨said, others⟩, hfound, hc⟩
    obtain ⟨rfl, ⟨_, rfl⟩ | ⟨hkind, _, rfl⟩⟩ := setAsideFields_ofJsonMembers.mp hfound
    · cases hc
    · exact ⟨hkind, hc⟩
  · rintro ⟨hkind, hc⟩
    exact ⟨(true, _), setAsideFields_ofJsonMembers.mpr ⟨rfl, Or.inr ⟨hkind, rfl, rfl⟩⟩, hc⟩

theorem takesThreshold_tagged {front back : List (String × Json)} (h : ∀ m ∈ front ++ back, m.1 ≠ "threshold") :
    TakesThreshold readTagged (fun v => .obj (front ++ ("threshold", v) :: back)) (.obj (front ++ back)) := by
  have hothers : ∀ v, otherMembers (front ++ ("threshold", v) :: back) =
      otherMembers front ++ ("threshold", v) :: otherMembers back := by
    intro v
    simp [otherMembers]
  have hkinds : ∀ v, kindsSaid (front ++ ("threshold", v) :: back) = kindsSaid (front ++ back) := by
    intro v
    simp [kindsSaid]
  have happend : otherMembers (front ++ back) = otherMembers front ++ otherMembers back := List.filter_append _ _
  have hplain : TakesThreshold (Comparison.read .setAside)
      (fun v => .obj (otherMembers front ++ ("threshold", v) :: otherMembers back))
      (.obj (otherMembers front ++ otherMembers back)) :=
    takesThreshold_member fun m hm => h m (List.mem_of_mem_filter (happend ▸ hm))
  refine ⟨fun v c => ?_, fun c hc => hplain.threshold_eq c (happend ▸ (readTagged_obj_iff.mp hc).2)⟩
  rw [readTagged_obj_iff, hothers, hkinds, hplain.read_iff]
  simp only [readTagged_obj_iff, happend]
  exact and_exists_withThreshold_iff

/-! ### Everything that reads plots -/

/-- **A plot with a place for a threshold**, and the same plot without one. In an object the member is left out. In a list
    the last item can be, and another one is null. -/
inductive GivesThreshold : (Json → Json) → Json → Prop where
  | member (front back : List (String × Json)) (h : ∀ m ∈ front ++ back, m.1 ≠ "threshold") :
      GivesThreshold (fun v => .obj (front ++ ("threshold", v) :: back)) (.obj (front ++ back))
  | last (name title series : Json) :
      GivesThreshold (fun v => .arr [name, title, series, v]) (.arr [name, title, series])
  | item (name title series : Json) (others : List Json) :
      GivesThreshold (fun v => .arr (name :: title :: series :: v :: others))
        (.arr (name :: title :: series :: .null :: others))

/-- What reads a plot: in any notation on its own, or with its kind. -/
def ReadsPlots (read : Document → Except DocumentFault Comparison) : Prop :=
  read = readTagged ∨ ∃ dialect, read = Comparison.read dialect

/-- No list says a kind. -/
theorem takesThreshold_tagged_items (plot : Json → List Json) (without : List Json) :
    TakesThreshold readTagged (fun v => .arr (plot v)) (.arr without) := by
  have hnone : ∀ items c, readTagged (ofJson (.arr items)) ≠ .ok c := fun items c h => by cases h
  refine ⟨fun v c => ?_, fun c hc => absurd hc (hnone _ _)⟩
  exact iff_of_false (hnone _ _) fun ⟨_, _, _, hc, _⟩ => hnone _ _ hc

/-- **Whatever reads plots takes their thresholds from what is given.** -/
theorem takesThreshold {read : Document → Except DocumentFault Comparison} (hread : ReadsPlots read)
    {plot : Json → Json} {without : Json} (hplot : GivesThreshold plot without) : TakesThreshold read plot without := by
  rcases hread with rfl | ⟨dialect, rfl⟩
  · cases hplot with
    | member front back h => exact takesThreshold_tagged h
    | last name title series => exact takesThreshold_tagged_items (fun v => [name, title, series, v]) _
    | item name title series others =>
      exact takesThreshold_tagged_items (fun v => name :: title :: series :: v :: others) _
  · cases hplot with
    | member front back h => exact takesThreshold_member h
    | last name title series => exact takesThreshold_last name title series
    | item name title series others =>
      exact takesThreshold_of_base fun v c => read_items_iff name title series v others

theorem threshold_ne_zero {read : Document → Except DocumentFault Comparison} (hread : ReadsPlots read) {d : Document}
    {c : Comparison} (hc : read d = .ok c) : c.threshold ≠ some 0 := by
  rcases hread with rfl | ⟨dialect, rfl⟩
  · exact threshold_ne_zero_of_readTagged hc
  · exact threshold_ne_zero_of_read hc

end Comparison

end LatencyReport
