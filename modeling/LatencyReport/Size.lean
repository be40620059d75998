import LatencyReport.Text.Lowercase
import LatencyReport.Text.Numeral

/-!
# `Size` — counts of bytes, read and written with binary units

Message sizes and thresholds are counts of bytes below 2^64. A size is **written** with the largest unit that
divides it, so nothing is lost: `4KiB`, `1MiB`, `1000B`. It is **read** from a count with an optional unit
letter, in either case and with white space around it; zero is no size, and neither is a product that does not
fit.

## Contents

* `Size.format` — the written form;
* `SizeFault` — the three ways in which a text is no size, and their wording;
* `Size.parse` — the value of a text.
-/

namespace LatencyReport

/-- Why a text is not a size. Each cause keeps the text without its white space, in lower case. -/
inductive SizeFault where
  | notANumber (text : String) (fault : NumeralFault)
  | notPositive (text : String)
  | tooLarge (text : String)
deriving DecidableEq, Repr

/-- What is said of the fault. -/
def SizeFault.message : SizeFault → String
  | .notANumber text fault => "Parse message size: " ++ text ++ ": " ++ fault.message
  | .notPositive text => "Message size must be positive: " ++ text
  | .tooLarge text => "Message size overflows: " ++ text

namespace Size

/-- The bytes of one `KiB`. -/
def kibi : UInt64 := 1024

/-- The bytes of one `MiB`. -/
def mebi : UInt64 := 1024 * 1024

/-- A size with the largest unit that divides it. -/
def format (size : UInt64) : String :=
  if mebi ≤ size ∧ size % mebi = 0 then toString (size / mebi) ++ "MiB"
  else if kibi ≤ size ∧ size % kibi = 0 then toString (size / kibi) ++ "KiB"
  else toString size ++ "B"

/-- The digits of a size in lower case, and the factor of its unit letter. -/
def splitUnit (s : List Char) : List Char × UInt64 :=
  match s.getLast? with
  | some 'k' => (s.dropLast, kibi)
  | some 'm' => (s.dropLast, mebi)
  | _ => (s, 1)

/-- The size that a text stands for. -/
def parse (text : String) : Except SizeFault UInt64 :=
  let s := Text.lowercase (Text.trim text.toList)
  let (digits, factor) := splitUnit s
  match Text.readUInt64 digits with
  | .error fault => .error (.notANumber (String.ofList s) fault)
  | .ok value =>
    if value = 0 then
      .error (.notPositive (String.ofList s))
    else if value.toNat * factor.toNat < UInt64.size then
      .ok (value * factor)
    else
      .error (.tooLarge (String.ofList s))

end Size

end LatencyReport
