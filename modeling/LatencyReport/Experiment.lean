import LatencyReport.Label
import LatencyReport.Text.Numeral

/-!
# `Experiment` — what a results file measures, told by its name

A benchmark run measures one mechanism at one message size, and **the file's name says which**: the label's
stem, an underscore, the size in bytes, and the ending `.txt`. The stem may hold underscores itself, so it ends
at the last one.

## Contents

* `Experiment` — a label and a message size;
* `Experiment.fileName` — the name of its file;
* `NameFault`, `Experiment.NameError` — the ways in which a name is no results file's, in the order in which they
  are looked for;
* `Experiment.ofFileName` — the experiment that a name tells.
-/

namespace LatencyReport

/-- One mechanism at one message size. -/
structure Experiment where
  label : Label
  messageSize : UInt64
deriving DecidableEq, Repr

/-- What is wrong with the form of a file name. -/
inductive NameFault where
  | notUtf8
  | noTxtEnding
  | noSizeSuffix
  | sizeNotInteger
  | sizeNotPositive
deriving DecidableEq, Repr

/-- What is said of the fault. -/
def NameFault.message : NameFault → String
  | .notUtf8 => "file name is not valid UTF-8"
  | .noTxtEnding => "expected a .txt extension"
  | .noSizeSuffix => "missing _<message size> suffix"
  | .sizeNotInteger => "message size is not an integer"
  | .sizeNotPositive => "message size must be positive"

namespace Experiment

/-- Why a file name tells no experiment. -/
inductive NameError where
  | malformed (fault : NameFault)
  | unknownLabel (stem : String)
deriving DecidableEq, Repr

/-- The name of the label's file for a message size. -/
def fileNameFor (label : Label) (messageSize : UInt64) : String :=
  label.stem ++ "_" ++ toString messageSize ++ ".txt"

/-- The name of the experiment's file. -/
def fileName (e : Experiment) : String :=
  fileNameFor e.label e.messageSize

/-- The text before an ending, if the text has that ending. -/
def beforeEnding? (ending s : List Char) : Option (List Char) :=
  if ending.isSuffixOf s then some (s.take (s.length - ending.length)) else none

/-- The parts of a text before and after its last underscore. -/
def splitAtLastUnderscore? (s : List Char) : Option (List Char × List Char) :=
  let after := (s.reverse.takeWhile (· ≠ '_')).reverse
  match s.reverse.dropWhile (· ≠ '_') with
  | [] => none
  | _ :: before => some (before.reverse, after)

/-- The experiment that a file name tells, or the first thing that is wrong with the name. -/
def ofFileName (name : String) : Except NameError Experiment :=
  match beforeEnding? ['.', 't', 'x', 't'] name.toList with
  | none => .error (.malformed .noTxtEnding)
  | some text =>
    match splitAtLastUnderscore? text with
    | none => .error (.malformed .noSizeSuffix)
    | some (stem, digits) =>
      match Text.readUInt64 digits with
      | .error _ => .error (.malformed .sizeNotInteger)
      | .ok size =>
        if size = 0 then
          .error (.malformed .sizeNotPositive)
        else
          match Label.ofStem? (String.ofList stem) with
          | none => .error (.unknownLabel (String.ofList stem))
          | some label => .ok ⟨label, size⟩

end Experiment

end LatencyReport
