import LedgerClient.Identifier
import LedgerClient.Json.Basic

/-!
# JSON forms

A form shows the values of a type as JSON and reads them back. Bytes are shown in hexadecimal,
numbers that may exceed 32 bits as decimal text, a record as an object of its fields, and an
alternative as an object with its name alone, or as its name where it has no content. Reading takes
the fields in order, so that the first that is refused gives the error.
-/

set_option autoImplicit false

namespace LedgerClient

/-- Why JSON is not the form of a value. -/
inductive FormError where
  | data (cause : DataError)
  | schema (cause : SchemaError)
  /-- The JSON has another shape than the form. -/
  | shape (expected : String)
  deriving DecidableEq, Repr

/-- How the values of a type are shown as JSON and read from it. -/
structure Form (α : Type) where
  render : α → Json
  read : Json → Except FormError α

namespace Form

variable {α β : Type}

/-- A value is shown as `forget` of it, and what is read must pass `check`. -/
def checked (f : Form α) (check : α → Except FormError β) (forget : β → α) : Form β where
  render b := f.render (forget b)
  read j := do check (← f.read j)

/-- A value is shown as `forget` of it and read as `build` of what is read. -/
def via (f : Form α) (build : α → β) (forget : β → α) : Form β where
  render b := f.render (forget b)
  read j := do return build (← f.read j)

def text : Form String where
  render s := .string s
  read
    | .string s => .ok s
    | _ => .error (.shape "text")

def bool : Form Bool where
  render b := .bool b
  read
    | .bool b => .ok b
    | _ => .error (.shape "true or false")

/-- A number as a JSON number. -/
def number : Form Nat where
  render n := .nat n
  read
    | .number (.integer n) => if 0 ≤ n then .ok n.toNat else .error (.shape "a number")
    | _ => .error (.shape "a number")

/-- A number as decimal text. -/
def decimal : Form Nat :=
  text.checked
    (fun s => match s.toNat? with
      | some n => .ok n
      | none => .error (.shape "a decimal number"))
    toString

def u8 : Form UInt8 := number.via UInt8.ofNat UInt8.toNat

def u16 : Form UInt16 := number.via UInt16.ofNat UInt16.toNat

def u32 : Form UInt32 := number.via UInt32.ofNat UInt32.toNat

def u64 : Form UInt64 := decimal.via UInt64.ofNat UInt64.toNat

def u128 : Form (BitVec 128) := decimal.via (BitVec.ofNat 128) BitVec.toNat

/-- Bytes in hexadecimal. -/
def bytes : Form Bytes :=
  text.checked (fun s => (Hex.decode s).mapError fun fault => .data (.notHex fault)) Hex.encode

/-- Octets in hexadecimal. -/
def octets (kind : Octets.Kind) : Form (Octets kind) :=
  text.checked (fun s => (Octets.ofHex kind s).mapError .data) Octets.hex

def identifier : Form Identifier :=
  text.checked (fun s => (Identifier.ofString s).mapError .schema) Identifier.text

def list (f : Form α) : Form (List α) where
  render as := .array (as.map f.render)
  read
    | .array items => items.mapM f.read
    | _ => .error (.shape "a list")

/-- Two values as a list of two. -/
def pair (f : Form α) (g : Form β) : Form (α × β) where
  render v := .array [f.render v.1, g.render v.2]
  read
    | .array [a, b] => do return (← f.read a, ← g.read b)
    | _ => .error (.shape "a pair")

/-- Null, or a value. -/
def nullable (f : Form α) : Form (Option α) where
  render
    | none => .null
    | some a => f.render a
  read
    | .null => .ok none
    | j => do return some (← f.read j)

/-- Null, or an object that holds the value under the name `some`. -/
def option (f : Form α) : Form (Option α) where
  render
    | none => .null
    | some a => .object [("some", f.render a)]
  read
    | .null => .ok none
    | .object [("some", j)] => do return some (← f.read j)
    | _ => .error (.shape "an optional value")

/-- How a part of a record is shown among the members of an object. -/
structure Fields (α : Type) where
  render : α → List (String × Json)
  read : List (String × Json) → Except FormError α

/-- A field under its name. -/
def field (name : String) (f : Form α) : Fields α where
  render a := [(name, f.render a)]
  read members :=
    match members.find? fun member => member.1 == name with
    | some (_, j) => f.read j
    | none => .error (.shape name)

/-- The fields of one part before those of another. -/
def Fields.and (f : Fields α) (g : Fields β) : Fields (α × β) where
  render v := f.render v.1 ++ g.render v.2
  read members := do
    let a ← f.read members
    return (a, ← g.read members)

/-- An object of the fields. -/
def object (fs : Fields α) : Form α where
  render a := .object (fs.render a)
  read
    | .object members => fs.read members
    | _ => .error (.shape "an object")

/-- One alternative of a type under its name. -/
inductive Case (α : Type) where
  /-- An alternative without content: the value itself, and how to know it. -/
  | bare (name : String) (value : α) (is : α → Bool)
  /-- An alternative with content, and the way in and out. -/
  | full {Content : Type} (name : String) (content : Form Content) (build : Content → α)
      (open? : α → Option Content)

/-- Shows a value by the first alternative that it belongs to. -/
def renderCase : List (Case α) → α → Json
  | [], _ => .null
  | .bare name _ is :: rest, a => if is a then .string name else renderCase rest a
  | .full name content _ open? :: rest, a =>
    match open? a with
    | some c => .object [(name, content.render c)]
    | none => renderCase rest a

/-- Reads the alternative without content of the given name. -/
def readBare (name : String) : List (Case α) → Except FormError α
  | [] => .error (.shape name)
  | .bare known value _ :: rest => if known == name then .ok value else readBare name rest
  | .full .. :: rest => readBare name rest

/-- Reads the alternative of the given name by its content. -/
def readFull (name : String) (j : Json) : List (Case α) → Except FormError α
  | [] => .error (.shape name)
  | .bare .. :: rest => readFull name j rest
  | .full known content build _ :: rest =>
    if known == name then do return build (← content.read j) else readFull name j rest

/-- The alternatives of a type. -/
def union (cases : List (Case α)) : Form α where
  render := renderCase cases
  read
    | .object [(name, j)] => readFull name j cases
    | .string name => readBare name cases
    | _ => .error (.shape "an alternative")

end Form

end LedgerClient
