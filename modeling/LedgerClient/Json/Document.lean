import LedgerClient.Json.Literal

/-!
# JSON documents

The tree of a JSON text before its leaves are looked at. Two kinds of leaves can be bad without a
fault in the grammar: a number too large for a double, and a string with half of a surrogate pair.
A value that nobody asks for may hold such leaves and may be nested to any depth. A value that is
asked for has none, and is nested no deeper than a limit.
-/

set_option autoImplicit false

namespace LedgerClient.Json

/-- The tree of a JSON text. A string is missing where its escapes make no text. -/
inductive Document where
  | null
  | bool (value : Bool)
  | number (literal : Literal)
  | string (value : Option String)
  | array (items : List Document)
  | object (members : List (Option String × Document))
  deriving Repr, BEq

/-- How many arrays and objects may stand in each other where they are looked at. -/
def maxNesting : Nat := 127

/-- Keeps the last of the members of one name. -/
def lastOfEach : List (String × Json) → List (String × Json)
  | [] => []
  | (name, value) :: rest =>
    let kept := lastOfEach rest
    if kept.any fun member => member.1 == name then kept else (name, value) :: kept

namespace Document

mutual

/-- The value of the tree, nested at most `levels` deep. -/
def value? (levels : Nat) : Document → Option Json
  | null => some .null
  | bool value => some (.bool value)
  | number literal => literal.value?.map .number
  | string value => value.map .string
  | array items =>
    if levels = 0 then none else (values? (levels - 1) items).map .array
  | object members =>
    if levels = 0 then none
    else (memberValues? (levels - 1) members).map fun found => .object (lastOfEach found)

/-- The values of the items of an array. -/
def values? (levels : Nat) : List Document → Option (List Json)
  | [] => some []
  | item :: rest =>
    match value? levels item, values? levels rest with
    | some value, some values => some (value :: values)
    | _, _ => none

/-- The values of the members of an object. -/
def memberValues? (levels : Nat) :
    List (Option String × Document) → Option (List (String × Json))
  | [] => some []
  | (name, item) :: rest =>
    match name, value? levels item, memberValues? levels rest with
    | some name, some value, some values => some ((name, value) :: values)
    | _, _, _ => none

end

end Document

end LedgerClient.Json
