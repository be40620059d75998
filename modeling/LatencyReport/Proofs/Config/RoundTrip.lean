import LatencyReport.CommandLine
import LatencyReport.Proofs.Config.Threshold
import LatencyReport.Proofs.Dataset.File

/-!
# `Proofs.Config.RoundTrip` — a printed configuration loads back

A configuration is written as data by one set of functions and read by another, which knows of defaults, of fields
that may be left out and of numbers that are refused. **They agree on every configuration whose thresholds are sizes**
(`loadsBack_iff`), whether the members of objects come as they are written or in the order of their names; and a
configuration that was read has no other thresholds.

The proof goes record by record: a label, a selection, a comparison, settings and the configuration are each read back
from what is written of them. A plot among plots says its kind, and its fields are set aside until that was read; data
is the same when it was set aside, and the kind may stand anywhere (`readTagged_ofJson`).

## Contents

* `setAside_ofJson`, `listOf_ofJson` — data as documents;
* `Selection.read_toJson`, `read_members`, `readTagged_toTaggedJson`, `Settings.read_toJson` — the records;
* `Config.LoadsBack`, `loadsBack_iff` — configurations;
* `Redirects`, `IsFound`, `loadConfig_eq` — the configuration that a run uses;
* `loadsBack_of_read` — it loads back, and is what is printed.
-/

namespace LatencyReport

/-! ## JSON values as documents -/

namespace Document

mutual

/-- **A JSON value is what it is, set aside or not.** -/
theorem setAside_ofJson (j : Json) : (ofJson j).setAside = some (ofJson j) := by
  cases j with
  | null => rfl
  | bool b => rfl
  | int n => rfl
  | float x => rfl
  | str s => rfl
  | arr items => rw [ofJson, setAside, setAsideItems_ofJson items, Option.map_some]
  | obj members => rw [ofJson, setAside, setAsideEntries_ofJson members, Option.map_some]

theorem setAsideItems_ofJson (items : List Json) : setAsideItems (ofJsonItems items) = some (ofJsonItems items) := by
  cases items with
  | nil => rfl
  | cons item rest => rw [ofJsonItems, setAsideItems, setAside_ofJson item, setAsideItems_ofJson rest]

theorem setAsideEntries_ofJson (members : List (String × Json)) :
    setAsideEntries (ofJsonMembers members) = some (ofJsonMembers members) := by
  cases members with
  | nil => rfl
  | cons member rest =>
    obtain ⟨name, value⟩ := member
    have hkey : (plain { text := some name }).setAside = some (plain { text := some name }) := rfl
    rw [ofJsonMembers, setAsideEntries, hkey, setAside_ofJson value, setAsideEntries_ofJson rest]

end

theorem ofJsonItems_eq (items : List Json) : ofJsonItems items = items.map ofJson := by
  induction items with
  | nil => rfl
  | cons item rest ih => rw [ofJsonItems, ih, List.map_cons]

/-- **A list is read back if every item is.** -/
theorem listOf_ofJson {α : Type} {read : Document → Except DocumentFault α} {write : α → Json} {xs : List α}
    (h : ∀ x ∈ xs, read (ofJson (write x)) = .ok x) (dialect : Dialect) :
    (ofJson (.arr (xs.map write))).listOf dialect read = .ok xs := by
  show (ofJsonItems (xs.map write)).mapM read = .ok xs
  rw [mapM_eq_ok_iff, ofJsonItems_eq, List.forall₂_map_left_iff, List.forall₂_map_left_iff, List.forall₂_same]
  exact h

theorem whole32_ofJson (n : UInt32) : (ofJson (.int n.toNat)).whole32 = .ok n := by
  have hlt : n.toNat < UInt32.size := n.toNat_lt
  have hn : n.toNat.toUInt32 = n := UInt32.ofNat_toNat
  simp [ofJson, plain, whole32, scalar?, unmarked, hlt, hn]

theorem size_ofJson {n : UInt64} (h : n ≠ 0) : (ofJson (.int n.toNat)).size = .ok n := by
  have hlt : n.toNat < UInt64.size := n.toNat_lt
  have hn : n.toNat.toUInt64 = n := UInt64.ofNat_toNat
  have hne : n.toNat ≠ 0 := by rwa [ne_eq, ← UInt64.toNat_zero, UInt64.toNat_inj]
  rw [size, setAside_ofJson]
  simp [ofJson, plain, hlt, hne]

theorem option_size_ofJson {n : UInt64} (h : n ≠ 0) : (ofJson (.int n.toNat)).option size = .ok (some n) := by
  show (size (ofJson (.int n.toNat))).map some = .ok (some n)
  rw [size_ofJson h]
  rfl

theorem ofJsonMembers_append (front back : List (String × Json)) :
    ofJsonMembers (front ++ back) = ofJsonMembers front ++ ofJsonMembers back := by
  induction front with
  | nil => rfl
  | cons member rest ih => rw [List.cons_append, ofJsonMembers, ofJsonMembers, ih, List.cons_append]

end Document

open Document

/-! ## Names -/

theorem Label.read_name (dialect : Dialect) (l : Label) : Label.read dialect (ofJson (.str l.name)) = .ok l := by
  cases l <;> rfl

theorem Phase.read_column (dialect : Dialect) (p : Phase) : Phase.read dialect (ofJson (.str p.column)) = .ok p := by
  cases p <;> rfl

/-! ## Selections -/

/-- A selection is read back. No phases and an empty list of them are told apart. -/
theorem Selection.read_toJson (dialect : Dialect) (s : Selection) :
    Selection.read dialect (ofJson s.toJson) = .ok s := by
  obtain ⟨label, phases⟩ := s
  cases phases with
  | none =>
    show fillFields (Fields.put dialect) {} [(0, ofJson (.str label.name))] >>= Fields.finish = _
    simp only [fillFields, Fields.put, Label.read_name, Except.map]
    rfl
  | some phases =>
    have hphases : (ofJson (.arr (phases.map fun p => .str p.column))).option (listOf dialect (Phase.read dialect)) =
        .ok (some phases) := by
      show (listOf dialect (Phase.read dialect) (ofJson (.arr (phases.map fun p => .str p.column)))).map some = _
      rw [listOf_ofJson fun p _ => Phase.read_column dialect p]
      rfl
    show fillFields (Fields.put dialect) {} [(0, ofJson (.str label.name)),
      (1, ofJson (.arr (phases.map fun p => .str p.column)))] >>= Fields.finish = _
    simp only [fillFields, Fields.put, Label.read_name, hphases, Except.map]
    rfl

/-! ## Comparisons -/

namespace Comparison

theorem readDimensions_ofJson (dialect : Dialect) (width height : UInt32) :
    readDimensions dialect (ofJson (.arr [.int width.toNat, .int height.toNat])) = .ok (width, height) := by
  have hlist : listOf dialect whole32 (ofJson (.arr [.int width.toNat, .int height.toNat])) = .ok [width, height] :=
    @listOf_ofJson _ whole32 (fun n => .int n.toNat) [width, height] (fun n _ => whole32_ofJson n) dialect
  rw [readDimensions, hlist]
  rfl

theorem setAsideFields_append {members : List (String × Json)} (h : ∀ m ∈ members, m.1 ≠ "type") (seen : Bool)
    (rest : List (Document × Document)) :
    setAsideFields seen (ofJsonMembers members ++ rest) =
      (setAsideFields seen rest).map fun (said, others) => (said, ofJsonMembers members ++ others) := by
  induction members with
  | nil =>
    show setAsideFields seen rest = (setAsideFields seen rest).map id
    cases setAsideFields seen rest <;> rfl
  | cons member members ih =>
    obtain ⟨name, value⟩ := member
    have hkey : isKindKey (plain { text := some name }) = false :=
      beq_eq_false_iff_ne.mpr fun heq => h (name, value) List.mem_cons_self (Option.some.inj heq)
    have haside : (plain { text := some name }).setAside = some (plain { text := some name }) := rfl
    rw [ofJsonMembers, List.cons_append, setAsideFields, if_neg (by rw [hkey]; decide), haside, setAside_ofJson value]
    simp only [ih fun m hm => h m (List.mem_cons_of_mem _ hm)]
    cases setAsideFields seen rest <;> rfl

/-- **The kind of a plot may stand anywhere among its fields.** -/
theorem readTagged_ofJson {before after : List (String × Json)} (h : ∀ m ∈ before ++ after, m.1 ≠ "type") :
    readTagged (ofJson (.obj (before ++ ("type", .str kind) :: after))) =
      Comparison.read .setAside (ofJson (.obj (before ++ after))) := by
  have hbefore := setAsideFields_append fun m hm => h m (List.mem_append_left after hm)
  have hafter := setAsideFields_append (fun m hm => h m (List.mem_append_right before hm)) true []
  have hkind : setAsideFields false ((plain { text := some "type" }, ofJson (.str kind)) :: ofJsonMembers after) =
      setAsideFields true (ofJsonMembers after) := rfl
  have hall : setAsideFields false (ofJsonMembers (before ++ ("type", .str kind) :: after)) =
      .ok (true, ofJsonMembers (before ++ after)) := by
    rw [List.append_nil] at hafter
    rw [ofJsonMembers_append, ofJsonMembers, hbefore, hkind, hafter, ofJsonMembers_append]
    simp [setAsideFields, Except.map]
  show (setAsideFields false (ofJsonMembers (before ++ ("type", .str kind) :: after)) >>= fun (said, others) =>
    if said then Comparison.read .setAside (.map others) else .error .form) = _
  rw [hall]
  rfl

/-- The fields of a comparison as data, in the order of their names. -/
def membersByName (c : Comparison) : List (String × Json) :=
  [("dimensions", .arr [.int c.width.toNat, .int c.height.toNat]), ("name", .str c.name),
    ("series", .arr (c.selections.map Selection.toJson))] ++
    (match c.threshold with
      | none => []
      | some n => [("threshold", .int n.toNat)]) ++
    [("title", .str c.title)]

/-- **A comparison is read back from its fields**, in the order in which they are written and in that of their names. -/
theorem read_members {c : Comparison} (h : c.threshold ≠ some 0) (dialect : Dialect) :
    Comparison.read dialect (ofJson (.obj c.members)) = .ok c ∧
      Comparison.read dialect (ofJson (.obj c.membersByName)) = .ok c := by
  obtain ⟨name, title, selections, threshold, width, height⟩ := c
  have hseries := listOf_ofJson (fun s (_ : s ∈ selections) => Selection.read_toJson dialect s) dialect
  have hdimensions := readDimensions_ofJson dialect width height
  let named : Nat × Document := (0, ofJson (.str name))
  let titled : Nat × Document := (1, ofJson (.str title))
  let listed : Nat × Document := (2, ofJson (.arr (selections.map Selection.toJson)))
  let sized : Nat × Document := (4, ofJson (.arr [.int width.toNat, .int height.toNat]))
  cases threshold with
  | none =>
    constructor
    · show fillFields (Fields.put dialect) {} [named, titled, listed, sized] >>= Fields.finish = _
      simp only [named, titled, listed, sized, fillFields, Fields.put, hseries, hdimensions, Except.map]
      rfl
    · show fillFields (Fields.put dialect) {} [sized, named, listed, titled] >>= Fields.finish = _
      simp only [named, titled, listed, sized, fillFields, Fields.put, hseries, hdimensions, Except.map]
      rfl
  | some threshold =>
    have hthreshold : (ofJson (.int threshold.toNat)).option size = .ok (some threshold) :=
      option_size_ofJson fun heq => h (congrArg some heq)
    let limited : Nat × Document := (3, ofJson (.int threshold.toNat))
    constructor
    · show fillFields (Fields.put dialect) {} [named, titled, listed, limited, sized] >>= Fields.finish = _
      simp only [named, titled, listed, limited, sized, fillFields, Fields.put, hseries, hthreshold, hdimensions,
        Except.map]
      rfl
    · show fillFields (Fields.put dialect) {} [sized, named, listed, limited, titled] >>= Fields.finish = _
      simp only [named, titled, listed, limited, sized, fillFields, Fields.put, hseries, hthreshold, hdimensions,
        Except.map]
      rfl

end Comparison

/-! ## The order of names -/

namespace Json

theorem sortedItems_map {α : Type} (write : α → Json) (xs : List α) :
    sortedItems (xs.map write) = xs.map fun x => (write x).sorted := by
  induction xs with
  | nil => rfl
  | cons x rest ih => rw [List.map_cons, sortedItems, ih, List.map_cons]

end Json

/-- The fields of a selection are in the order of their names. -/
theorem Selection.sorted_toJson (s : Selection) : s.toJson.sorted = s.toJson := by
  obtain ⟨label, phases⟩ := s
  cases phases with
  | none => rfl
  | some phases =>
    have hphases : Json.sortedItems (phases.map fun p => .str p.column) = phases.map fun p => .str p.column :=
      Json.sortedItems_map _ phases
    simp only [Selection.toJson, Json.sorted, Json.sortedMembers, Json.insertMember, hphases, String.reduceLT,
      String.reduceEq, if_false]

/-- The kind of a plot comes last in the order of names. -/
theorem Comparison.sorted_toTaggedJson (c : Comparison) :
    c.toTaggedJson.sorted = .obj (c.membersByName ++ [("type", .str kind)]) := by
  obtain ⟨name, title, selections, threshold, width, height⟩ := c
  have hseries : Json.sortedItems (selections.map Selection.toJson) = selections.map Selection.toJson := by
    rw [Json.sortedItems_map]
    exact List.map_congr_left fun s _ => s.sorted_toJson
  cases threshold <;>
    simp only [toTaggedJson, members, membersByName, Json.sorted, Json.sortedMembers, Json.sortedItems,
      Json.insertMember, hseries, String.reduceLT, String.reduceEq, if_false, if_true, List.cons_append,
      List.nil_append]

/-- **A plot is read back**, its fields in either order. -/
theorem Comparison.readTagged_toTaggedJson {c : Comparison} (h : c.threshold ≠ some 0) :
    readTagged (ofJson c.toTaggedJson) = .ok c ∧ readTagged (ofJson c.toTaggedJson.sorted) = .ok c := by
  obtain ⟨hmembers, hbyName⟩ := read_members h .setAside
  have hkey : (∀ m ∈ c.members, m.1 ≠ "type") ∧ ∀ m ∈ c.membersByName, m.1 ≠ "type" := by
    unfold members membersByName
    cases c.threshold <;> simp
  constructor
  · have htagged : readTagged (ofJson c.toTaggedJson) = Comparison.read .setAside (ofJson (.obj c.members)) :=
      @readTagged_ofJson [] c.members hkey.1
    rw [htagged, hmembers]
  · have htagged := @readTagged_ofJson c.membersByName [] (by rw [List.append_nil]; exact hkey.2)
    rw [List.append_nil] at htagged
    rw [sorted_toTaggedJson, htagged, hbyName]

/-! ## Configurations -/

theorem Settings.read_toJson (dialect : Dialect) (s : Settings) :
    Settings.read dialect (ofJson s.toJson) = .ok s ∧ Settings.read dialect (ofJson s.toJson.sorted) = .ok s := by
  have hsorted : s.toJson.sorted = s.toJson := rfl
  rw [hsorted]
  exact ⟨rfl, rfl⟩

namespace Config

/-- A configuration that is read back from what is written of it, in every dialect, whether the members of objects
    stand as they were written or in the order of their names. -/
def LoadsBack (c : Config) : Prop :=
  ∀ dialect, Config.read dialect (ofJson c.toJson) = .ok c ∧ Config.read dialect (ofJson c.toJson.sorted) = .ok c

/-- **A configuration loads back exactly if its thresholds are sizes.** -/
theorem loadsBack_iff {c : Config} : c.LoadsBack ↔ c.HasSizes := by
  constructor
  · intro h
    exact hasSizes_of_read (h .json).1
  intro h dialect
  obtain ⟨name, settings, plots⟩ := c
  have hplots := fun plot (hplot : plot ∈ plots) => Comparison.readTagged_toTaggedJson (h plot hplot)
  constructor
  · have hlist := listOf_ofJson (fun plot hplot => (hplots plot hplot).1) dialect
    show fillFields (Fields.put dialect) {} [(0, ofJson (.str name)), (1, ofJson settings.toJson),
      (2, ofJson (.arr (plots.map Comparison.toTaggedJson)))] >>= Fields.finish = _
    simp only [fillFields, Fields.put, (settings.read_toJson dialect).1, hlist, Except.map]
    rfl
  · have hlist := listOf_ofJson (fun plot hplot => (hplots plot hplot).2) dialect
    have hsorted : (Config.toJson ⟨name, settings, plots⟩).sorted =
        .obj [("name", .str name), ("plots", .arr (plots.map fun plot => plot.toTaggedJson.sorted)),
          ("settings", settings.toJson.sorted)] := by
      simp only [Config.toJson, Json.sorted, Json.sortedMembers, Json.insertMember, Json.sortedItems_map,
        String.reduceLT, String.reduceEq, if_false, if_true]
    rw [hsorted]
    show fillFields (Fields.put dialect) {} [(0, ofJson (.str name)),
      (2, ofJson (.arr (plots.map fun plot => plot.toTaggedJson.sorted))),
      (1, ofJson settings.toJson.sorted)] >>= Fields.finish = _
    simp only [fillFields, Fields.put, (settings.read_toJson dialect).2, hlist, Except.map]
    rfl

theorem hasSizes_builtIn : builtIn.HasSizes := by
  unfold HasSizes
  decide

end Config

/-! ## Runs -/

namespace CommandLine

/-- The directories of a configuration are those that the arguments name, where they name any, and all else is as it
    was. -/
structure Redirects (options : Options) (c effective : Config) : Prop where
  name_eq : effective.name = c.name
  plots_eq : effective.plots = c.plots
  summary_eq : effective.settings.summary = c.settings.summary
  dataDir_eq : effective.settings.dataDir = options.data.getD c.settings.dataDir
  plotDir_eq : effective.settings.plotDir = options.plots.getD c.settings.plotDir

theorem redirects_applyPaths (options : Options) (c : Config) : Redirects options c (applyPaths options c) :=
  ⟨rfl, rfl, rfl, rfl, rfl⟩

/-- What directories are named has no part in what is a size. -/
theorem Redirects.hasSizes {options : Options} {c effective : Config} (h : Redirects options c effective)
    (hc : c.HasSizes) : effective.HasSizes := by
  intro plot hplot
  rw [h.plots_eq] at hplot
  exact hc plot hplot

/-- The configuration that the content of a file says. -/
def configOf? (content : List UInt8) : Option Config := do
  let text ← (Utf8.decode content).toOption
  let document ← Document.ofYaml? (String.ofList text)
  (Config.read .yaml document).toOption

theorem exists_of_configOf? {content : List UInt8} {c : Config} (h : configOf? content = some c) :
    ∃ d, Config.read .yaml d = .ok c := by
  obtain ⟨text, _, h⟩ := Option.bind_eq_some_iff.mp h
  obtain ⟨d, _, h⟩ := Option.bind_eq_some_iff.mp h
  refine ⟨d, ?_⟩
  cases hread : Config.read .yaml d with
  | error fault =>
    rw [hread] at h
    cases h
  | ok found =>
    rw [hread] at h
    rw [Option.some.inj h]

/-- Reading a configuration changes nothing, and what is read was read from a document. -/
theorem readConfig_eq (path : Path) (w : World) :
    ∃ found, (readConfig path : Run _) w = (found, w) ∧ ∀ c, found = .ok c → ∃ d, Config.read .yaml d = .ok c := by
  cases hread : w.storage.read path with
  | error cause =>
    refine ⟨.error ("Read config " ++ path.display ++ ": " ++ cause.message), ?_, fun c h => by cases h⟩
    unfold readConfig
    rw [bind_eq, readFile_eq, hread]
    rfl
  | ok content =>
    have hrun : (readConfig path : Run _) w =
        ((configOf? content).elim (.error ("Parse config " ++ path.display)) .ok, w) := by
      unfold readConfig
      rw [bind_eq, readFile_eq, hread]
      cases hconfig : configOf? content <;>
        (unfold configOf? at hconfig; simp only [hconfig]; rfl)
    rw [hrun]
    cases hconfig : configOf? content with
    | none => exact ⟨_, rfl, fun c h => by cases h⟩
    | some c =>
      refine ⟨.ok c, rfl, fun other h => ?_⟩
      obtain rfl := Except.ok.inj h
      exact exists_of_configOf? hconfig

/-- A configuration that a run finds: the one that is built in, or one that was read. -/
def IsFound (c : Config) : Prop :=
  c = .builtIn ∨ ∃ d, Config.read .yaml d = .ok c

theorem hasSizes_of_isFound {c : Config} (h : IsFound c) : c.HasSizes := by
  rcases h with rfl | ⟨d, hread⟩
  · exact Config.hasSizes_builtIn
  · exact Config.hasSizes_of_read hread

/-- **What a run uses as its configuration** is what it finds, but for the directories that the arguments name. Nothing
    changes. -/
theorem loadConfig_eq (options : Options) (w : World) :
    ∃ loaded, (loadConfig options : Run _) w = (loaded, w) ∧
      ∀ effective, loaded = .ok effective → ∃ c, IsFound c ∧ Redirects options c effective := by
  unfold loadConfig
  cases options.config with
  | none =>
    refine ⟨_, rfl, fun effective h => ⟨.builtIn, Or.inl rfl, ?_⟩⟩
    rw [← Except.ok.inj h]
    exact redirects_applyPaths options _
  | some path =>
    obtain ⟨found, hfound, hread⟩ := readConfig_eq (.ofString path) w
    simp only [bind_eq, hfound]
    cases found with
    | error complaint => exact ⟨_, rfl, fun effective h => by cases h⟩
    | ok c =>
      refine ⟨_, rfl, fun effective h => ⟨c, Or.inr (hread c rfl), ?_⟩⟩
      rw [← Except.ok.inj h]
      exact redirects_applyPaths options _

/-- **A printed configuration loads back.** Whatever document a configuration was read from and whatever directories
    the arguments name, the configuration that is used has these directories, is the same otherwise, and is read back
    from what is written of it. A run that is to print its configuration writes that one and nothing else, and leaves
    the files as they are. -/
theorem loadsBack_of_read (options : Options) :
    (∀ dialect d c, Config.read dialect d = .ok c →
      Redirects options c (applyPaths options c) ∧ (applyPaths options c).LoadsBack) ∧
    ∀ (w after : World) (effective : Config), (loadConfig options : Run _) w = (.ok effective, after) →
      (∃ c, IsFound c ∧ Redirects options c effective) ∧ effective.LoadsBack ∧
        (options.printConfig = true →
          (perform options : Run _) w = ({ code := 0, output := effective.toJson.toYaml }, w)) := by
  constructor
  · intro dialect d c hread
    have hredirects := redirects_applyPaths options c
    exact ⟨hredirects, Config.loadsBack_iff.mpr (hredirects.hasSizes (Config.hasSizes_of_read hread))⟩
  · intro w after effective hload
    obtain ⟨loaded, hloaded, hfound⟩ := loadConfig_eq options w
    obtain ⟨rfl, rfl⟩ := Prod.mk.inj (hloaded.symm.trans hload)
    obtain ⟨c, hc, hredirects⟩ := hfound effective rfl
    refine ⟨⟨c, hc, hredirects⟩, Config.loadsBack_iff.mpr (hredirects.hasSizes (hasSizes_of_isFound hc)), ?_⟩
    intro hprint
    unfold perform
    rw [bind_eq, hload]
    simp only [hprint, if_true]
    rfl

/-- A configuration with its fields in another order, a threshold that is a text, a list without phases beside none. -/
theorem loadsBack_of_read_text :
    let text (s : String) : Json := .str s
    let plot : Json := .obj [("threshold", text " 4k "), ("title", text "5"),
      ("series", .arr [.obj [("phases", .arr []), ("label", text "mmap_io")], .obj [("label", text "sync_io")]]),
      ("type", text "PhaseCompare"), ("name", text "")]
    let document := Document.ofJson (.obj [("plots", .arr [plot]), ("note", .null), ("name", text "a: b")])
    let options : Options := { data := some "null", printConfig := true }
    let effective : Config :=
      { name := "a: b"
        settings := { dataDir := "null" }
        plots := [{ name := "", title := "5", threshold := some 4096
                    selections := [⟨.mmapIo, some []⟩, ⟨.syncIo, none⟩] }] }
    let w : World := { storage := ⟨.dir [], []⟩ }
    (∃ c, Config.read .yaml document = .ok c ∧ applyPaths options c = effective) ∧ effective.LoadsBack ∧
      ∃ printed : Config, (perform options : Run _) w = ({ code := 0, output := printed.toJson.toYaml }, w) ∧
        printed.LoadsBack := by
  intro text plot document options effective w
  obtain ⟨hread, hrun⟩ := loadsBack_of_read options
  let c : Config := { effective with settings := {} }
  have hc : Config.read .yaml document = .ok c := rfl
  obtain ⟨_, hloads, hprints⟩ := hrun w w (applyPaths options .builtIn) rfl
  exact ⟨⟨c, hc, rfl⟩, (hread .yaml document c hc).2, _, hprints rfl, hloads⟩

end CommandLine

end LatencyReport
