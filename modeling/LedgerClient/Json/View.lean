import LedgerClient.Json.Grammar

/-!
# Reading records from JSON

A record is read in the same way from a value and from the tree of a text. What the reading asks
of either is a `View`. A record is an object whose members have the names of the fields, where
unknown names are passed over and no known name stands twice, or an array of the fields in order,
where fields at the end may be missing.
-/

set_option autoImplicit false

namespace LedgerClient.Json

/-- What the reading of records asks of a piece of JSON. -/
structure View (D : Type) where
  isNull : D → Bool
  string? : D → Option String
  integer? : D → Option Int
  /-- The items of an array. -/
  items? : D → Option (List D)
  /-- The members of an object. -/
  members? : D → Option (List (String × D))
  /-- The value as a whole. -/
  value? : D → Option Json

/-- Values are looked at as they are. -/
def view : View Json where
  isNull := fun | null => true | _ => false
  string? := fun | string s => some s | _ => none
  integer? := fun | number (.integer n) => some n | _ => none
  items? := fun | array items => some items | _ => none
  members? := fun | object members => some members | _ => none
  value? := some

/-- A tree with the number of levels that may still be entered. -/
structure Within where
  levels : Nat
  tree : Document

namespace Within

/-- The names of the members, if all of them are texts. -/
def named? (levels : Nat) : List (Option String × Document) → Option (List (String × Within))
  | [] => some []
  | (some name, tree) :: rest => (named? levels rest).map ((name, ⟨levels, tree⟩) :: ·)
  | (none, _) :: _ => none

/-- Entering an array or an object takes a level. -/
def view : View Within where
  isNull := fun | ⟨_, .null⟩ => true | _ => false
  string? := fun | ⟨_, .string s⟩ => s | _ => none
  integer?
    | ⟨_, .number literal⟩ =>
      match literal.value? with
      | some (.integer n) => some n
      | _ => none
    | _ => none
  items?
    | ⟨levels + 1, .array items⟩ => some (items.map fun tree => ⟨levels, tree⟩)
    | _ => none
  members?
    | ⟨levels + 1, .object members⟩ => named? levels members
    | _ => none
  value? d := d.tree.value? d.levels

/-- The tree of a text, if it is one. -/
def ofText? (text : String) : Option Within :=
  (Grammar.document? text.toList).map fun tree => ⟨maxNesting, tree⟩

end Within

namespace View

variable {D α : Type} (v : View D)

/-- The member of this name, if there is one; two are refused. -/
def member? (members : List (String × D)) (name : String) : Option (Option D) :=
  match members.filter fun member => member.1 == name with
  | [] => some none
  | [member] => some (some member.2)
  | _ => none

/-- The fields of a record by their names, in order. -/
def fields? (names : List String) (d : D) : Option (List (Option D)) :=
  match v.items? d with
  | some items =>
    if items.length ≤ names.length then some (names.mapIdx fun i _ => items[i]?) else none
  | none =>
    match v.members? d with
    | some members => names.mapM (member? members)
    | none => none

/-- A field that must be there. -/
def required (read : D → Option α) : Option D → Option α
  | none => none
  | some d => read d

/-- A field that may be missing or null. -/
def optional (read : D → Option α) : Option D → Option (Option α)
  | none => some none
  | some d => if v.isNull d then some none else (read d).map some

/-- A field that has a value of its own where it is missing. -/
def defaulted (value : α) (read : D → Option α) : Option D → Option α
  | none => some value
  | some d => read d

/-- An integer below `bound` that is not negative. -/
def below? (bound : Nat) (d : D) : Option Nat :=
  match v.integer? d with
  | some n => if 0 ≤ n ∧ n < bound then some n.toNat else none
  | none => none

def u8? (d : D) : Option UInt8 := (v.below? UInt8.size d).map UInt8.ofNat

def u16? (d : D) : Option UInt16 := (v.below? UInt16.size d).map UInt16.ofNat

def u64? (d : D) : Option UInt64 := (v.below? UInt64.size d).map UInt64.ofNat

/-- An integer of 64 bits with a sign. -/
def i64? (d : D) : Option Int64 :=
  match v.integer? d with
  | some n =>
    if -9223372036854775808 ≤ n ∧ n ≤ 9223372036854775807 then some (Int64.ofInt n) else none
  | none => none

/-- An array whose items all read. -/
def list? (read : D → Option α) (d : D) : Option (List α) :=
  match v.items? d with
  | some items => items.mapM read
  | none => none

end View

end LedgerClient.Json
