import LatencyReport.Json
import LatencyReport.Size

/-!
# `Document` — what a configuration text says, before anyone asks

A configuration can be written in more than one notation, and the notations disagree about what a scalar is: in
one of them `5` is a number and nothing else, in another it is a number *or* the text of that digit, whichever is
asked for. So a scalar is kept as **all that it can be read as**, and the asking decides.

A value may also be *set aside* before anyone asks for it. Then the notation has to make up its mind: of everything
that a scalar could be read as one thing is kept.

## Contents

* `Scalar`, `Document` — the values; `Document.setAside` — the value once its notation has made up its mind;
* `Document.ofJson` — a JSON value as a document;
* `Dialect` — what the notations disagree about apart from scalars;
* `Document.text`, `flag`, `whole32`, `items`, `listOf`, `option`, `variant`, `fields`, `size` — asking.
-/

namespace LatencyReport

/-! ## Values -/

/-- All that a scalar can be read as. -/
structure Scalar where
  text : Option String := none
  whole : Option Nat := none
  flag : Option Bool := none
  /-- It says that there is no value. -/
  isNull : Bool := false
  /-- Nothing was written at all. -/
  isBlank : Bool := false
deriving DecidableEq, Repr

/-- A value in a configuration. -/
inductive Document where
  /-- What a scalar can be read as now, and once it was set aside, if it can be. -/
  | scalar (now : Scalar) (later : Option Scalar)
  | list (items : List Document)
  | map (entries : List (Document × Document))
  /-- A value with a mark of its own, which may name a choice. -/
  | tagged (tag : String) (value : Document)

/-- What the notations disagree about. -/
inductive Dialect where
  | json
  | yaml
  /-- Values that were set aside. -/
  | setAside
deriving DecidableEq, Repr

namespace Dialect

/-- Whether a record can be written as the list of its fields. -/
def listIsRecord : Dialect → Bool
  | json | setAside => true
  | yaml => false

/-- Whether a list or a record without content can be left blank. -/
def blankIsEmpty : Dialect → Bool
  | yaml => true
  | json | setAside => false

/-- Whether a record without content says that there is no value. -/
def emptyIsNull : Dialect → Bool
  | setAside => true
  | json | yaml => false

/-- Whether a choice can be written as a record with the choice as its only name. -/
def choiceIsEntry : Dialect → Bool
  | json | setAside => true
  | yaml => false

end Dialect

namespace Document

mutual

/-- The value once it was set aside. A value with a mark cannot be, nor can a scalar that no one could read. -/
def setAside : Document → Option Document
  | .scalar _ later => later.map fun s => .scalar s (some s)
  | .list items => (setAsideItems items).map .list
  | .map entries => (setAsideEntries entries).map .map
  | .tagged .. => none

/-- Items once they were set aside. -/
def setAsideItems : List Document → Option (List Document)
  | [] => some []
  | item :: rest =>
    match setAside item, setAsideItems rest with
    | some a, some others => some (a :: others)
    | _, _ => none

/-- Entries once they were set aside. -/
def setAsideEntries : List (Document × Document) → Option (List (Document × Document))
  | [] => some []
  | (key, value) :: rest =>
    match setAside key, setAside value, setAsideEntries rest with
    | some k, some v, some others => some ((k, v) :: others)
    | _, _, _ => none

end

/-- A scalar that is read in one way only, now and later. -/
def plain (s : Scalar) : Document :=
  .scalar s (some s)

mutual

/-- A JSON value. -/
def ofJson : Json → Document
  | .null => plain { isNull := true }
  | .bool b => plain { flag := some b }
  | .int n => plain { whole := if 0 ≤ n then some n.toNat else none }
  | .float _ => plain {}
  | .str s => plain { text := some s }
  | .arr items => .list (ofJsonItems items)
  | .obj members => .map (ofJsonMembers members)

/-- The items of an array. -/
def ofJsonItems : List Json → List Document
  | [] => []
  | item :: rest => ofJson item :: ofJsonItems rest

/-- The members of an object. -/
def ofJsonMembers : List (String × Json) → List (Document × Document)
  | [] => []
  | (name, value) :: rest => (plain { text := some name }, ofJson value) :: ofJsonMembers rest

end

end Document

/-! ## Asking -/

/-- Why a size in a configuration is refused. -/
inductive ThresholdFault where
  | zero
  | text (fault : SizeFault)
deriving DecidableEq, Repr

/-- What is said of the fault. -/
def ThresholdFault.message : ThresholdFault → String
  | .zero => "message size must be positive"
  | .text fault => fault.message

/-- Why a document is not what was asked for. -/
inductive DocumentFault where
  /-- It has another form. -/
  | form
  /-- It is no size. -/
  | size (fault : ThresholdFault)
deriving DecidableEq, Repr

namespace Document

/-- The value that a mark stands before. -/
def unmarked : Document → Document
  | .tagged _ value => value
  | value => value

/-- What can be read of a scalar. -/
def scalar? (d : Document) : Option Scalar :=
  match d.unmarked with
  | .scalar now _ => some now
  | _ => none

/-- A text. -/
def text (d : Document) : Except DocumentFault String :=
  match d.scalar?.bind (·.text) with
  | some s => .ok s
  | none => .error .form

/-- A truth value. -/
def flag (d : Document) : Except DocumentFault Bool :=
  match d.scalar?.bind (·.flag) with
  | some b => .ok b
  | none => .error .form

/-- A number without sign of 32 bits. -/
def whole32 (d : Document) : Except DocumentFault UInt32 :=
  match d.scalar?.bind (·.whole) with
  | some n => if n < UInt32.size then .ok n.toUInt32 else .error .form
  | none => .error .form

/-- The items of a list. -/
def items (dialect : Dialect) (d : Document) : Except DocumentFault (List Document) :=
  match d.unmarked with
  | .list xs => .ok xs
  | .scalar now _ => if dialect.blankIsEmpty && now.isBlank then .ok [] else .error .form
  | _ => .error .form

/-- What `read` makes of each item of a list, or of the first that it refuses. -/
def listOf {α : Type} (dialect : Dialect) (read : Document → Except DocumentFault α) (d : Document) :
    Except DocumentFault (List α) :=
  match d.items dialect with
  | .error e => .error e
  | .ok xs => xs.mapM read

/-- A value that may be left out. -/
def option {α : Type} (read : Document → Except DocumentFault α) (d : Document) : Except DocumentFault (Option α) :=
  match d with
  | .scalar now _ => if now.isNull then .ok none else (read d).map some
  | _ => (read d).map some

/-- Whether the value says that there is no value. -/
def saysNothing (dialect : Dialect) : Document → Bool
  | .scalar now _ => now.isNull || (dialect.blankIsEmpty && now.isBlank)
  | .map [] => dialect.emptyIsNull
  | _ => false

/-- The place of a name among names. A number that was set aside names its place. -/
def place (names : List String) (d : Document) : Except DocumentFault (Option Nat) :=
  match d.scalar? with
  | none => .error .form
  | some s =>
    match s.text, s.whole with
    | some name, _ => .ok (names.findIdx? (· == name))
    | none, some n => .ok (if n < names.length then some n else none)
    | none, none => .error .form

/-- One of several choices, by its place among their names. -/
def variant (dialect : Dialect) (names : List String) (d : Document) : Except DocumentFault Nat :=
  let chosen : Except DocumentFault (Option Nat) :=
    match d with
    | .tagged tag value => if value.saysNothing dialect then .ok (names.findIdx? (· == tag)) else .error .form
    | .scalar now _ => if now.text.isSome then d.place names else .error .form
    | .map [(key, value)] =>
      if dialect.choiceIsEntry && value.saysNothing dialect then key.place names else .error .form
    | _ => .error .form
  match chosen with
  | .ok (some i) => .ok i
  | _ => .error .form

/-- The keys of entries as places among names, entries with another name left out. -/
def places (names : List String) : List (Document × Document) → Except DocumentFault (List (Nat × Document))
  | [] => .ok []
  | (key, value) :: rest =>
    match key.place names, places names rest with
    | .ok (some i), .ok others => .ok ((i, value) :: others)
    | .ok none, .ok others => .ok others
    | .error e, _ => .error e
    | _, .error e => .error e

/-- The fields of a record in the order in which they are written, each with the place of its name. No field is
written twice. A place beyond the names stands for an item too many. -/
def fields (dialect : Dialect) (names : List String) (d : Document) : Except DocumentFault (List (Nat × Document)) :=
  match d.unmarked with
  | .map entries =>
    match places names entries with
    | .error e => .error e
    | .ok found => if (found.map (·.1)).Nodup then .ok found else .error .form
  | .list xs => if dialect.listIsRecord then .ok (xs.zipIdx.map fun (x, i) => (i, x)) else .error .form
  | .scalar now _ => if dialect.blankIsEmpty && now.isBlank then .ok [] else .error .form
  | _ => .error .form

/-- A size: a number of bytes, or a text with a unit. -/
def size (d : Document) : Except DocumentFault UInt64 :=
  match d.setAside with
  | some (.scalar now _) =>
    match now.whole, now.text with
    | some n, _ =>
      if n = 0 then .error (.size .zero) else if n < UInt64.size then .ok n.toUInt64 else .error .form
    | none, some s =>
      match Size.parse s with
      | .ok n => .ok n
      | .error fault => .error (.size (.text fault))
    | none, none => .error .form
  | _ => .error .form

end Document

end LatencyReport
