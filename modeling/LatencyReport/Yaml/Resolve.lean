import LatencyReport.Document
import LatencyReport.Decimal.Reader
import LatencyReport.Yaml.Node

/-!
# `Yaml.Resolve` — what the scalars of a text can be read as

A plain scalar is whatever its letters look like: `12` is a number, `true` a truth value, `~` nothing at all; and it
is always the text of its letters, too. A scalar between quotation marks or in a block is a text and nothing else,
unless a tag says what it is.

Once a scalar is set aside, the first of these that fits is kept: nothing, a truth value, a number, a text.

## Contents

* `readWhole?`, `readFlag?`, `isNullText` — what letters look like;
* `Number` — the numbers that a plain scalar can be; `Number.ofText?`;
* `Node.toDocument`, `Document.ofYaml?` — a text as a document.
-/

namespace LatencyReport.Yaml

/-! ## What letters look like -/

/-- Whether the letters say that there is no value. -/
def isNullText (s : String) : Bool :=
  s == "null" || s == "Null" || s == "NULL" || s == "~"

/-- The truth value that the letters say. -/
def readFlag? (s : String) : Option Bool :=
  if s == "true" || s == "True" || s == "TRUE" then some true
  else if s == "false" || s == "False" || s == "FALSE" then some false
  else none

/-- The value of a digit of a base. -/
def digitOf? (base : Nat) (c : Char) : Option Nat :=
  match Json.hexValue? c with
  | some d => if d < base then some d else none
  | none => none

/-- The value of a numeral without sign in a base. -/
def readBase? (base : Nat) (s : List Char) : Option Nat :=
  if s.isEmpty then none
  else (s.mapM (digitOf? base)).map fun digits => digits.foldl (fun n d => base * n + d) 0

/-- Whether a text is a zero with more digits after it, which is no number. -/
def isPaddedZero (s : List Char) : Bool :=
  let digits := match s with
    | '+' :: rest | '-' :: rest => rest
    | _ => s
  1 < digits.length && digits.head? == some '0' && digits.all fun c => '0' ≤ c && c ≤ '9'

/-- The base that the start of a numeral names, and the digits after it. -/
def splitBase : List Char → Nat × List Char
  | '0' :: 'x' :: rest => (16, rest)
  | '0' :: 'o' :: rest => (8, rest)
  | '0' :: 'b' :: rest => (2, rest)
  | s => (10, s)

/-- The value of a numeral that is not negative, of any length. -/
def readWhole? (s : List Char) : Option Nat :=
  let unsigned := match s with
    | '+' :: rest => rest
    | _ => s
  if isPaddedZero s then none
  else
    let (base, digits) := splitBase unsigned
    readBase? base digits

/-- The magnitude of a negative numeral, of any length. -/
def readNegative? (s : List Char) : Option Nat :=
  match s with
  | '-' :: rest =>
    if isPaddedZero s then none
    else
      let (base, digits) := splitBase rest
      readBase? base digits
  | _ => none

/-- Whether the letters are a number with a fraction or a power, or no finite number. -/
def isReal (s : List Char) : Bool :=
  let unsigned := match s with
    | '+' :: rest => rest
    | _ => s
  let twoSigns := match s with
    | '+' :: c :: _ => c = '+' || c = '-'
    | _ => false
  let text := String.ofList unsigned
  !twoSigns &&
    ([".inf", ".Inf", ".INF"].contains text ||
      ["-.inf", "-.Inf", "-.INF", ".nan", ".NaN", ".NAN"].contains (String.ofList s) ||
      match Decimal.readNumeral? unsigned with
      | some numeral => numeral.toFloat.isFinite
      | none => false)

/-- The number that a plain scalar is. -/
inductive Number where
  | whole (n : Nat)
  /-- A number that nothing in a configuration can be. -/
  | other
  /-- A number too long to be kept. -/
  | tooLong
deriving DecidableEq, Repr

/-- The integer that letters look like. -/
def Number.ofInteger? (s : List Char) : Option Number :=
  match readWhole? s, readNegative? s with
  | some n, _ => if n < UInt64.size then some (.whole n) else if n < Nat.pow 2 128 then some .tooLong else none
  | none, some 0 => some (.whole 0)
  | none, some n => if n ≤ Nat.pow 2 63 then some .other else if n ≤ Nat.pow 2 127 then some .tooLong else none
  | none, none => none

/-- The number that letters look like. -/
def Number.ofText? (s : List Char) : Option Number :=
  match ofInteger? s with
  | some number => some number
  | none => if !isPaddedZero s && isReal s then some .other else none

/-- What is kept of a number. -/
def Number.kept? : Number → Option Scalar
  | .whole n => some { whole := some n }
  | .other => some {}
  | .tooLong => none

/-! ## Scalars and nodes -/

/-- The tags of the core types. -/
def coreTag (name : String) : String :=
  "tag:yaml.org,2002:" ++ name

/-- What is kept of a plain scalar without tag. -/
def keptPlain? (s : String) : Option Scalar :=
  if s.isEmpty || isNullText s then some { isNull := true }
  else
    match readFlag? s with
    | some b => some { flag := some b }
    | none =>
      match Number.ofText? s.toList with
      | some number => number.kept?
      | none => some { text := some s }

/-- What is kept of a scalar. -/
def kept? (tag : Option String) (style : Style) (s : String) : Option Scalar :=
  match tag with
  | none => if style = .plain then keptPlain? s else some { text := some s }
  | some t =>
    if t = coreTag "bool" then (readFlag? s).map fun b => { flag := some b }
    else if t = coreTag "int" then (Number.ofInteger? s.toList).bind Number.kept?
    else if t = coreTag "float" then (if isReal s.toList then some {} else none)
    else if t = coreTag "null" then (if isNullText s then some { isNull := true } else none)
    else some { text := some s }

/-- Whether a scalar is read by its letters when a type is asked for: plain ones are, and blocks with the tag of that
type. -/
def goesByLetters (name : String) (tag : Option String) (style : Style) : Bool :=
  style = .plain || (style = .literal && tag = some (coreTag name))

/-- What a scalar can be read as now. -/
def readNow (tag : Option String) (style : Style) (s : String) : Scalar where
  text := some s
  whole :=
    if goesByLetters "int" tag style then
      match readWhole? s.toList with
      | some n => if n < UInt64.size then some n else none
      | none => none
    else none
  flag := if goesByLetters "bool" tag style then readFlag? s else none
  isNull := style = .plain &&
    match tag with
    | none => s.isEmpty || isNullText s
    | some t => t = coreTag "null" && isNullText s
  isBlank := style = .plain && s.isEmpty

/-- The name of a choice in a tag: what follows its exclamation mark. -/
def choice? (tag : Option String) : Option String :=
  match tag with
  | none => none
  | some t =>
    match t.toList with
    | '!' :: rest => some (String.ofList rest)
    | _ => none

/-- A value behind the mark that a tag makes, if it makes one. -/
def mark (tag : Option String) (d : Document) : Document :=
  match choice? tag with
  | none => d
  | some name => .tagged name d

namespace Node

mutual

/-- A node as a document. A node that holds itself cannot be read. -/
def toDocument : Node → Document
  | .scalar tag style text =>
    match choice? tag with
    | none => .scalar (readNow tag style text) (kept? tag style text)
    | some name => .tagged name (.scalar (readNow none style text) none)
  | .sequence tag items => mark tag (.list (toDocuments items))
  | .mapping tag entries => mark tag (.map (toEntries entries))
  | .endless => .scalar {} none

/-- Nodes as documents. -/
def toDocuments : List Node → List Document
  | [] => []
  | node :: rest => toDocument node :: toDocuments rest

/-- Entries as documents. -/
def toEntries : List (Node × Node) → List (Document × Document)
  | [] => []
  | (key, value) :: rest => (toDocument key, toDocument value) :: toEntries rest

end

end Node

end LatencyReport.Yaml

namespace LatencyReport

/-- The document that a YAML text is. -/
def Document.ofYaml? (text : String) : Option Document :=
  (Yaml.Node.ofText? text).map Yaml.Node.toDocument

end LatencyReport
