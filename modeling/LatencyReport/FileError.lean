import LatencyReport.Experiment
import LatencyReport.Storage.OsError
import LatencyReport.Storage.Path

/-!
# `FileError` — why one file is of no use

A results file can be refused for its name, its content or by the operating system; a table can fail to be
written. One bad file never stops a run: only a directory that cannot be listed does.

## Contents

* `FileError` — the causes, and their wording;
* `Experiment.classify` — the experiment that a file name tells, or the cause why it tells none.
-/

namespace LatencyReport

/-- Why a file is of no use. -/
inductive FileError where
  | badName (name : String) (fault : NameFault)
  | unknownLabel (name stem : String)
  | noHeader (path : Path)
  | io (path : Path) (cause : OsError)
  | table (path : Path) (cause : OsError)
deriving DecidableEq, Repr

namespace FileError

/-- What is said of the error. -/
def message : FileError → String
  | .badName name fault => name ++ ": " ++ fault.message
  | .unknownLabel name stem => name ++ ": unknown experiment label \x60" ++ stem ++ "\x60"
  | .noHeader path => path.display ++ ": missing header line"
  | .io path cause | .table path cause => path.display ++ ": " ++ cause.message

/-- The error and, after it, what caused it, each in its own words. -/
def texts (e : FileError) : List String :=
  match e with
  | .io _ cause | .table _ cause => [e.message, cause.message]
  | _ => [e.message]

end FileError

namespace Experiment

/-- The experiment that a file name tells. -/
def classify (name : String) : Except FileError Experiment :=
  match ofFileName name with
  | .ok experiment => .ok experiment
  | .error (.malformed fault) => .error (.badName name fault)
  | .error (.unknownLabel stem) => .error (.unknownLabel name stem)

end Experiment

end LatencyReport
