import LatencyReport.Decimal.Layout

/-!
# `Json` — JSON values

A JSON value keeps **the difference between an integer and a number with a fraction or a power**: a message size
is the one and never the other. Integers are those of 64 bits, with or without a sign; a longer literal is a
number like any other. An object is the list of its members in the order in which they were written.

## Contents

* `Json` — the values;
* `Json.sorted` — the same value with the members of every object in the order of their names.
-/

namespace LatencyReport

/-- A JSON value. -/
inductive Json where
  | null
  | bool (b : Bool)
  | int (n : Int)
  | float (x : Float)
  | str (s : String)
  | arr (items : List Json)
  | obj (members : List (String × Json))

namespace Json

/-- A member among members in the order of names, in place of one of that name. -/
def insertMember (name : String) (value : Json) : List (String × Json) → List (String × Json)
  | [] => [(name, value)]
  | (other, old) :: rest =>
    if name < other then (name, value) :: (other, old) :: rest
    else if name = other then (name, value) :: rest
    else (other, old) :: insertMember name value rest

mutual

/-- The value with the members of every object in the order of their names; of two members of one name, the
last counts. -/
def sorted : Json → Json
  | .arr items => .arr (sortedItems items)
  | .obj members => .obj (sortedMembers [] members)
  | value => value

/-- The items of an array, each one sorted. -/
def sortedItems : List Json → List Json
  | [] => []
  | item :: rest => sorted item :: sortedItems rest

/-- The members, each value sorted, put into place among those that are in order already. -/
def sortedMembers (placed : List (String × Json)) : List (String × Json) → List (String × Json)
  | [] => placed
  | (name, value) :: rest => sortedMembers (insertMember name (sorted value) placed) rest

end

end Json

end LatencyReport
