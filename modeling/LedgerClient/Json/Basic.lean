import LedgerClient.Json.Double

/-!
# JSON values

The value that a JSON text stands for. A number is an integer where it is written as one and fits
in 64 bits, with or without a sign, and a double otherwise. The members of an object stand in
order, and reading gives each name once.
-/

set_option autoImplicit false

namespace LedgerClient

/-- A JSON number. -/
inductive Json.Number where
  | integer (value : Int)
  | double (value : Double)
  deriving DecidableEq, Repr

/-- A JSON value. -/
inductive Json where
  | null
  | bool (value : Bool)
  | number (value : Json.Number)
  | string (value : String)
  | array (items : List Json)
  | object (members : List (String × Json))
  deriving Repr, BEq

namespace Json

/-- An integer as a JSON value. -/
def int (n : Int) : Json := .number (.integer n)

/-- A number of items as a JSON value. -/
def nat (n : Nat) : Json := .int n

/-- The member of an object for a field that is left out where there is no value. -/
def present {α : Type} (name : String) (write : α → Json) : Option α →
    List (String × Json)
  | none => []
  | some a => [(name, write a)]

mutual

/-- How many arrays and objects stand in each other. -/
def depth : Json → Nat
  | .array items => depths items + 1
  | .object members => memberDepths members + 1
  | _ => 0

/-- The greatest depth among the items. -/
def depths : List Json → Nat
  | [] => 0
  | item :: rest => max item.depth (depths rest)

/-- The greatest depth among the members. -/
def memberDepths : List (String × Json) → Nat
  | [] => 0
  | (_, value) :: rest => max value.depth (memberDepths rest)

end

end Json

end LedgerClient
