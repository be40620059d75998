/-!
# `Storage.OsError` — why the operating system refuses

What can go wrong with a path, in the words of the operating system.
-/

namespace LatencyReport

/-- Why an operation on files fails. -/
inductive OsError where
  | notFound
  | alreadyExists
  | notADirectory
  | isADirectory
  | nameTooLong
  | nulInPath
  | other (text : String)
deriving DecidableEq, Repr

/-- What is said of the error. -/
def OsError.message : OsError → String
  | .notFound => "No such file or directory (os error 2)"
  | .alreadyExists => "File exists (os error 17)"
  | .notADirectory => "Not a directory (os error 20)"
  | .isADirectory => "Is a directory (os error 21)"
  | .nameTooLong => "File name too long (os error 36)"
  | .nulInPath => "file name contained an unexpected NUL byte"
  | .other text => text

end LatencyReport
