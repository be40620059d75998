import LatencyReport.Journal
import LatencyReport.Text.Alphanumeric
import LatencyReport.Text.Blank

/-!
# `CommandLine.Filter` — which events are shown

A **directive** names a part of the program and the level up to which its events are shown. Of the directives that
speak of an event the most specific one decides: the one with the longest target. A later directive takes the place of
an earlier one for the same target.

A directive can also be bound to a span or to fields. No event of this program stands in a span, and every event has
one field, its message; so such a directive speaks of all events or of none.

## Contents

* `Verbosity`, `Verbosity.ofText?` — a level, or nothing at all;
* `Directive`, `Directive.parse?` — the grammar;
* `Filter`, `Filter.add`, `Filter.shows` — many directives;
* `Filter.ofOptions?` — the filter of a run.
-/

namespace LatencyReport

/-- The level up to which events are shown; without a level none are. -/
abbrev Verbosity := Option Level

/-- The value of a count that is written with digits and perhaps a plus sign. -/
def Verbosity.ofCount? (s : List Char) : Option (Option Verbosity) :=
  match Text.readUInt64 s with
  | .error _ => none
  | .ok n =>
    some <| match n.toNat with
      | 0 => some none
      | 1 => some (some .error)
      | 2 => some (some .warn)
      | 3 => some (some .info)
      | 4 => some (some .debug)
      | 5 => some (some .trace)
      | _ => none

/-- The verbosity with a name, in either case. -/
def Verbosity.ofName? (s : List Char) : Option Verbosity :=
  match String.ofList (s.map Char.toLower) with
  | "off" => some none
  | "" | "error" => some (some .error)
  | "warn" => some (some .warn)
  | "info" => some (some .info)
  | "debug" => some (some .debug)
  | "trace" => some (some .trace)
  | _ => none

/-- The verbosity that a text says by its count or its name. -/
def Verbosity.ofText? (s : List Char) : Option Verbosity :=
  match ofCount? s with
  | some (some v) => some v
  | _ => ofName? s

/-- The verbosity after an equals sign. Where nothing follows it, everything is shown. -/
def Verbosity.afterSign? (s : List Char) : Option Verbosity :=
  if s.isEmpty then some (some .trace) else ofText? s

/-- Which events are shown, of those that a directive speaks of. -/
structure Directive where
  target : Option String := none
  /-- The fields that an event has to have. -/
  fields : List String := []
  /-- It is bound to a span or to the value of a field, so no event is meant. -/
  isBound : Bool := false
  verbosity : Verbosity := some .trace
deriving DecidableEq, Repr

namespace Directive

/-- What was read of a directive, with the place where the part that is being read starts. -/
inductive Stage where
  | start
  | levelOrTarget (first : Nat)
  | span (first : Nat)
  | field (first : Nat)
  | fields
  | target
  | level (first : Nat)
  | complete
deriving DecidableEq, Repr

/-- The directive that is a level or a target alone. -/
def ofLevelOrTarget (s : List Char) : Directive :=
  match Verbosity.ofText? s with
  | some v => { verbosity := v }
  | none => { target := some (String.ofList s) }

/-- The directive with one more field, which may be followed by a value. -/
def withField? (d : Directive) (s : List Char) : Option Directive :=
  if s.isEmpty then none
  else some {
    d with
    fields := d.fields ++ [String.ofList (s.takeWhile (· != '='))]
    isBound := d.isBound || s.contains '=' }

/-- Whether a directive can start with a character. -/
def canStart (c : Char) : Bool :=
  c = '-' || c = ':' || c = '_' || Text.isAlphanumeric c

/-- The part of the whole text from a place on, up to another. -/
def slice (whole : List Char) (first last : Nat) : List Char :=
  (whole.take last).drop first

/-- What is read after one more character, which stands at the place `i`. -/
def next? (whole : List Char) (d : Directive) (i : Nat) (c : Char) : Stage → Option (Directive × Stage)
  | .start =>
    if c = '[' then some (d, .span (i + 1)) else if canStart c then some (d, .levelOrTarget i) else none
  | .levelOrTarget first =>
    if c = '=' then some ({ d with target := some (String.ofList (slice whole first i)) }, .level (i + 1))
    else if c = '[' then some ({ d with target := some (String.ofList (slice whole first i)) }, .span (i + 1))
    else if c = ',' then some (ofLevelOrTarget (whole.drop first), .complete)
    else some (d, .levelOrTarget first)
  | .span first =>
    if c = ']' then some ({ d with isBound := true }, .target)
    else if c = '\x7b' then some ({ d with isBound := d.isBound || first < i }, .field (i + 1))
    else some (d, .span first)
  | .field first =>
    if c = '\x7d' then (d.withField? (slice whole first i)).map (·, .fields)
    else if c = ',' then (d.withField? (slice whole first i)).map (·, .field (i + 1))
    else some (d, .field first)
  | .fields => if c = ']' then some (d, .target) else none
  | .target => if c = '=' then some (d, .level (i + 1)) else none
  | .level first =>
    if c = ',' then
      (Verbosity.afterSign? (slice whole first i)).map fun v => ({ d with verbosity := v }, .complete)
    else some (d, .level first)
  | .complete => none

/-- What is read after more characters, the first of which stands at the place `i`. -/
def readFrom? (whole : List Char) (d : Directive) (stage : Stage) (i : Nat) : List Char → Option (Directive × Stage)
  | [] => some (d, stage)
  | c :: rest =>
    match next? whole d i c stage with
    | none => none
    | some (d, stage) => readFrom? whole d stage (i + 1) rest

/-- The directive that a text says. White space around it ends nothing, but counts for the places in it. -/
def parse? (text : String) : Option Directive :=
  let whole := text.toList
  match readFrom? whole {} .start 0 (Text.trim whole) with
  | none => none
  | some (d, .levelOrTarget first) => some { ofLevelOrTarget (whole.drop first) with fields := d.fields }
  | some (d, .level first) => (Verbosity.afterSign? (whole.drop first)).map fun v => { d with verbosity := v }
  | some (d, .target) | some (d, .complete) => some d
  | some _ => none

/-- Whether the directive speaks of an event. -/
def speaksOf (d : Directive) (e : Event) : Bool :=
  d.fields.all (· == "message") &&
    match d.target with
    | none => true
    | some t => t.toList.isPrefixOf e.source.target.toList

/-- Whether two directives speak of the same events. -/
def sameScope (d other : Directive) : Bool :=
  d.target == other.target && d.fields == other.fields

/-- How specific a directive is: the length of its target, if it has one, and the number of its fields. -/
def specificity (d : Directive) : Nat × Nat :=
  ((d.target.map fun t => t.utf8ByteSize + 1).getD 0, d.fields.length)

/-- Whether a directive decides before another one. -/
def isMoreSpecific (d other : Directive) : Bool :=
  other.specificity.1 < d.specificity.1 ||
    (other.specificity.1 == d.specificity.1 && other.specificity.2 < d.specificity.2)

end Directive

/-- Directives, no two of them for the same events, the more specific ones first. -/
structure Filter where
  directives : List Directive := []
deriving DecidableEq, Repr

namespace Filter

/-- A directive put into its place, or into that of one for the same events. -/
def insert (d : Directive) : List Directive → List Directive
  | [] => [d]
  | other :: rest =>
    if d.sameScope other then d :: rest
    else if d.isMoreSpecific other then d :: other :: rest
    else other :: insert d rest

/-- The filter with one more directive. One that no event is meant by changes nothing. -/
def add (f : Filter) (d : Directive) : Filter :=
  if d.isBound then f else ⟨insert d f.directives⟩

/-- Whether an event is shown. -/
def shows (f : Filter) (e : Event) : Bool :=
  match f.directives.find? (·.speaksOf e) with
  | none => false
  | some d =>
    match d.verbosity with
    | none => false
    | some level => e.level.rank ≤ level.rank

/-- The parts of the program that have a directive unless the arguments name them. -/
def modules : List String :=
  ["io_latency_report", "common", "phase_compare"]

/-- The texts of all directives of a run: those of the arguments, then one for every part of the program that none of
them starts with. -/
def directiveTexts (log : List String) (fallback : String) : List String :=
  log ++ (modules.filter fun name => !log.any fun text => name.toList.isPrefixOf text.toList).map
    fun name => name ++ "=" ++ fallback

/-- The filter of a run, if all its directives are well formed. Nothing is shown that no directive speaks of. -/
def ofOptions? (log : List String) (fallback : String) : Option Filter :=
  ((directiveTexts log fallback).mapM Directive.parse?).map fun directives =>
    directives.foldl add ⟨[{ verbosity := none }]⟩

end Filter

end LatencyReport
