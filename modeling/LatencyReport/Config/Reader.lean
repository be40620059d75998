import LatencyReport.Config
import LatencyReport.Document

/-!
# `Config.Reader` — configurations out of documents

A record is read field by field **in the order in which its fields are written**, and the first field that is not
what it should be decides; only then it is asked whether a field is missing. Fields of another name are passed over.

A plot says which kind it is in a field of its own, which may stand anywhere. So the other fields are set aside until
that one was seen, and read afterwards.

## Contents

* `Label.read`, `Phase.read`, `Selection.read`, `Comparison.read`, `Settings.read`;
* `Comparison.readTagged` — a plot with its kind;
* `Config.read`.
-/

namespace LatencyReport

open Document

/-- What a record holds after fields were put into it, in order, or the first refusal. -/
def fillFields {α : Type} (put : α → Nat → Document → Except DocumentFault α) (held : α) :
    List (Nat × Document) → Except DocumentFault α
  | [] => .ok held
  | (i, value) :: rest =>
    match put held i value with
    | .error e => .error e
    | .ok next => fillFields put next rest

/-- A field that a record cannot do without. -/
def needed {α : Type} : Option α → Except DocumentFault α
  | some x => .ok x
  | none => .error .form

/-- A mechanism by its name. -/
def Label.read (dialect : Dialect) (d : Document) : Except DocumentFault Label :=
  match d.variant dialect (Label.all.map Label.name) with
  | .error e => .error e
  | .ok i => needed Label.all[i]?

/-- A phase by its name. -/
def Phase.read (dialect : Dialect) (d : Document) : Except DocumentFault Phase :=
  match d.variant dialect (Phase.all.map Phase.column) with
  | .error e => .error e
  | .ok i => needed Phase.all[i]?

/-! ## Selections -/

/-- The fields of a selection that were seen. -/
structure Selection.Fields where
  label : Option Label := none
  phases : Option (Option (List Phase)) := none

namespace Selection

/-- The names of the fields. -/
def fieldNames : List String := ["label", "phases"]

/-- The fields after one more. -/
def Fields.put (dialect : Dialect) (f : Fields) (i : Nat) (d : Document) : Except DocumentFault Fields :=
  match i with
  | 0 => (Label.read dialect d).map fun x => { f with label := some x }
  | 1 => (d.option (Document.listOf dialect (Phase.read dialect))).map fun x => { f with phases := some x }
  | _ => .error .form

/-- The selection that the fields make up. -/
def Fields.finish (f : Fields) : Except DocumentFault Selection :=
  (needed f.label).map fun label => ⟨label, f.phases.getD none⟩

/-- A selection. -/
def read (dialect : Dialect) (d : Document) : Except DocumentFault Selection := do
  let written ← d.fields dialect fieldNames
  let f ← fillFields (Fields.put dialect) {} written
  f.finish

end Selection

/-! ## Comparisons -/

/-- The fields of a comparison that were seen. -/
structure Comparison.Fields where
  name : Option String := none
  title : Option String := none
  selections : Option (List Selection) := none
  threshold : Option (Option UInt64) := none
  dimensions : Option (UInt32 × UInt32) := none

namespace Comparison

/-- The names of the fields. -/
def fieldNames : List String := ["name", "title", "series", "threshold", "dimensions"]

/-- The width and the height of a picture. -/
def readDimensions (dialect : Dialect) (d : Document) : Except DocumentFault (UInt32 × UInt32) := do
  match ← d.listOf dialect Document.whole32 with
  | [width, height] => .ok (width, height)
  | _ => .error .form

/-- The fields after one more. -/
def Fields.put (dialect : Dialect) (f : Fields) (i : Nat) (d : Document) : Except DocumentFault Fields :=
  match i with
  | 0 => d.text.map fun x => { f with name := some x }
  | 1 => d.text.map fun x => { f with title := some x }
  | 2 => (d.listOf dialect (Selection.read dialect)).map fun x => { f with selections := some x }
  | 3 => (d.option Document.size).map fun x => { f with threshold := some x }
  | 4 => (readDimensions dialect d).map fun x => { f with dimensions := some x }
  | _ => .error .form

/-- The comparison that the fields make up. -/
def Fields.finish (f : Fields) : Except DocumentFault Comparison := do
  let name ← needed f.name
  let title ← needed f.title
  let selections ← needed f.selections
  let (width, height) := f.dimensions.getD (1500, 1000)
  return { name, title, selections, threshold := f.threshold.getD none, width, height }

/-- A comparison. -/
def read (dialect : Dialect) (d : Document) : Except DocumentFault Comparison := do
  let written ← d.fields dialect fieldNames
  let f ← fillFields (Fields.put dialect) {} written
  f.finish

/-- Whether a key is the one that says which kind of plot it is. -/
def isKindKey (key : Document) : Bool :=
  match key with
  | .scalar _ (some later) => later.text == some "type"
  | _ => false

/-- The entries of a plot once they were set aside, and whether its kind was said. -/
def setAsideFields : (seen : Bool) → List (Document × Document) → Except DocumentFault (Bool × List (Document × Document))
  | seen, [] => .ok (seen, [])
  | seen, (key, value) :: rest =>
    if isKindKey key then
      if seen then .error .form
      else
        match value.text with
        | .error e => .error e
        | .ok name => if name = kind then setAsideFields true rest else .error .form
    else
      match key.setAside, value.setAside with
      | some k, some v => (setAsideFields seen rest).map fun (said, others) => (said, (k, v) :: others)
      | _, _ => .error .form

/-- A comparison among plots of many kinds. -/
def readTagged (d : Document) : Except DocumentFault Comparison := do
  match d.unmarked with
  | .map entries =>
    let (said, others) ← setAsideFields false entries
    if said then read .setAside (.map others) else .error .form
  | _ => .error .form

end Comparison

/-! ## Settings and configurations -/

/-- The fields of settings that were seen. -/
structure Settings.Fields where
  dataDir : Option String := none
  plotDir : Option String := none
  summary : Option Bool := none

namespace Settings

/-- The names of the fields. -/
def fieldNames : List String := ["data_dir", "plot_dir", "summary"]

/-- The fields after one more. -/
def Fields.put (f : Fields) (i : Nat) (d : Document) : Except DocumentFault Fields :=
  match i with
  | 0 => d.text.map fun x => { f with dataDir := some x }
  | 1 => d.text.map fun x => { f with plotDir := some x }
  | 2 => d.flag.map fun x => { f with summary := some x }
  | _ => .error .form

/-- The settings that the fields make up. What is not set is as it is without settings. -/
def Fields.finish (f : Fields) : Settings where
  dataDir := f.dataDir.getD "results"
  plotDir := f.plotDir.getD "plots"
  summary := f.summary.getD true

/-- Settings. -/
def read (dialect : Dialect) (d : Document) : Except DocumentFault Settings := do
  let written ← d.fields dialect fieldNames
  let f ← fillFields Fields.put {} written
  return f.finish

end Settings

/-- The fields of a configuration that were seen. -/
structure Config.Fields where
  name : Option String := none
  settings : Option Settings := none
  plots : Option (List Comparison) := none

namespace Config

/-- The names of the fields. -/
def fieldNames : List String := ["name", "settings", "plots"]

/-- The fields after one more. -/
def Fields.put (dialect : Dialect) (f : Fields) (i : Nat) (d : Document) : Except DocumentFault Fields :=
  match i with
  | 0 => d.text.map fun x => { f with name := some x }
  | 1 => (Settings.read dialect d).map fun x => { f with settings := some x }
  | 2 => (d.listOf dialect Comparison.readTagged).map fun x => { f with plots := some x }
  | _ => .error .form

/-- The configuration that the fields make up. -/
def Fields.finish (f : Fields) : Except DocumentFault Config := do
  let name ← needed f.name
  let plots ← needed f.plots
  return { name, settings := f.settings.getD {}, plots }

/-- A configuration. -/
def read (dialect : Dialect) (d : Document) : Except DocumentFault Config := do
  let written ← d.fields dialect fieldNames
  let f ← fillFields (Fields.put dialect) {} written
  f.finish

end Config

end LatencyReport
