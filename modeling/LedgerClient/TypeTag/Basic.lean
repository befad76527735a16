import LedgerClient.Identifier

/-!
# Type tags

The types that a transaction names: the primitive ones, vectors, and structs with their address,
module, name and type parameters. The text form writes a struct as `0x` address `::` module `::`
name, with its parameters in angle brackets.
-/

set_option autoImplicit false

namespace LedgerClient

/-- A type. -/
inductive TypeTag where
  | bool
  | u8
  | u64
  | u128
  | address
  | signer
  | vector (element : TypeTag)
  | struct (address : Address) (moduleName name : Identifier) (typeParams : List TypeTag)
  deriving Repr, BEq

/-- The type of a struct. -/
structure StructTag where
  address : Address
  moduleName : Identifier
  name : Identifier
  typeParams : List TypeTag
  deriving Repr, BEq

/-- A struct type as a type. -/
def TypeTag.ofStruct (s : StructTag) : TypeTag :=
  .struct s.address s.moduleName s.name s.typeParams

/-- The text of a struct type whose parameters have the given texts. -/
def StructTag.assemble (address : Address) (moduleName name : Identifier)
    (params : List String) : String :=
  "0x" ++ address.hex ++ "::" ++ moduleName.text ++ "::" ++ name.text ++
    if params.isEmpty then "" else "<" ++ ", ".intercalate params ++ ">"

mutual

/-- The text form of a type. -/
def TypeTag.text : TypeTag → String
  | .bool => "bool"
  | .u8 => "u8"
  | .u64 => "u64"
  | .u128 => "u128"
  | .address => "address"
  | .signer => "signer"
  | .vector element => "vector<" ++ element.text ++ ">"
  | .struct addr moduleName name params =>
    StructTag.assemble addr moduleName name (TypeTag.texts params)

/-- The text forms of several types. -/
def TypeTag.texts : List TypeTag → List String
  | [] => []
  | tag :: rest => tag.text :: TypeTag.texts rest

end

/-- The text form of a struct type. -/
def StructTag.text (s : StructTag) : String :=
  StructTag.assemble s.address s.moduleName s.name (TypeTag.texts s.typeParams)

mutual

/-- How deep a type is nested: a vector adds one level to its element, a struct adds two to its
parameters, one for itself and one for the list of them. -/
def TypeTag.depth : TypeTag → Nat
  | .vector element => element.depth + 1
  | .struct _ _ _ (param :: rest) => TypeTag.depths (param :: rest) + 2
  | _ => 0

/-- The greatest depth among several types, zero for none. -/
def TypeTag.depths : List TypeTag → Nat
  | [] => 0
  | tag :: rest => max tag.depth (TypeTag.depths rest)

end

/-- `n` vectors around a type. -/
def TypeTag.nest : (n : Nat) → TypeTag → TypeTag
  | 0, tag => tag
  | n + 1, tag => .vector (TypeTag.nest n tag)

/-- The type of the currency with the given code: the struct that its own module declares at the
address one. -/
def TypeTag.currency (code : String) : Except SchemaError TypeTag :=
  match Identifier.ofString code with
  | .error e => .error e
  | .ok name => .ok (.struct Address.one name name [])

end LedgerClient
