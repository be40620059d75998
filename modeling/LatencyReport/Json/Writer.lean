import LatencyReport.Json

/-!
# `Json.Writer` — JSON values as text

A value has two texts. The **compact** one has no white space at all. The **pretty** one puts every item and
every member on a line of its own, two spaces further in than the bracket that holds it, and a space after
every colon; an empty array and an empty object stay closed up in both.

Writing puts the text of a value in front of what follows it, so a reader that stops at the value's end gives
back what followed.

## Contents

* `escapeChar`, `putString` — strings;
* `put` — a value in front of what follows;
* `compact`, `pretty` — the two texts.
-/

namespace LatencyReport.Json

/-- One character of a string. The quotation mark, the backslash and the controls are escaped, five controls by
a letter and the others by their code; every other character stands for itself. -/
def escapeChar (c : Char) : List Char :=
  match c with
  | '\x22' => ['\\', '\x22']
  | '\\' => ['\\', '\\']
  | '\n' => ['\\', 'n']
  | '\r' => ['\\', 'r']
  | '\t' => ['\\', 't']
  | '\x08' => ['\\', 'b']
  | '\x0c' => ['\\', 'f']
  | c =>
    if c.toNat < 0x20 then
      ['\\', 'u', '0', '0', Nat.digitChar (c.toNat / 16), Nat.digitChar (c.toNat % 16)]
    else
      [c]

/-- A string in front of what follows. -/
def putString (s : String) (rest : List Char) : List Char :=
  '\x22' :: s.toList.flatMap escapeChar ++ '\x22' :: rest

/-- What stands before an item at a depth: nothing, or the start of its line. -/
def putGap (onLines : Bool) (depth : Nat) (rest : List Char) : List Char :=
  if onLines then '\n' :: List.replicate (2 * depth) ' ' ++ rest else rest

/-- A number in front of what follows. JSON has no text for what is not finite. -/
def putNumber (x : Float) (rest : List Char) : List Char :=
  if x.isFinite then Decimal.Layout.json.finite x ++ rest else "null".toList ++ rest

mutual

/-- A value in front of what follows. -/
def put (onLines : Bool) (depth : Nat) : Json → List Char → List Char
  | .null, rest => "null".toList ++ rest
  | .bool true, rest => "true".toList ++ rest
  | .bool false, rest => "false".toList ++ rest
  | .int n, rest => (toString n).toList ++ rest
  | .float x, rest => putNumber x rest
  | .str s, rest => putString s rest
  | .arr [], rest => '[' :: ']' :: rest
  | .arr (item :: items), rest =>
    '[' :: putGap onLines (depth + 1) (put onLines (depth + 1) item
      (putItems onLines (depth + 1) items (putGap onLines depth (']' :: rest))))
  | .obj [], rest => '\x7b' :: '\x7d' :: rest
  | .obj ((name, value) :: members), rest =>
    '\x7b' :: putGap onLines (depth + 1) (putString name
      (':' :: (if onLines then [' '] else []) ++ put onLines (depth + 1) value
        (putMembers onLines (depth + 1) members (putGap onLines depth ('\x7d' :: rest)))))

/-- The items after the first, each after a comma. -/
def putItems (onLines : Bool) (depth : Nat) : List Json → List Char → List Char
  | [], rest => rest
  | item :: items, rest =>
    ',' :: putGap onLines depth (put onLines depth item (putItems onLines depth items rest))

/-- The members after the first, each after a comma. -/
def putMembers (onLines : Bool) (depth : Nat) : List (String × Json) → List Char → List Char
  | [], rest => rest
  | (name, value) :: members, rest =>
    ',' :: putGap onLines depth (putString name
      (':' :: (if onLines then [' '] else []) ++ put onLines depth value
        (putMembers onLines depth members rest)))

end

/-- The text without white space. -/
def compact (value : Json) : String :=
  String.ofList (value.put false 0 [])

/-- The text with a line for every item and every member. -/
def pretty (value : Json) : String :=
  String.ofList (value.put true 0 [])

end LatencyReport.Json
