import LedgerClient.TypeTag.Basic

/-!
# The wire form of type tags

The index of the alternative, then its content. The reader follows at most `maxTagDepth` levels
of nesting. It is defined by the number of levels that are still allowed: an element of a vector
has one less, a parameter of a struct two less.
-/

set_option autoImplicit false

namespace LedgerClient

/-- Writes the four parts of a struct type, with `params` for its parameters. -/
def StructTag.pushWith (address : Address) (moduleName name : Identifier) (count : Nat)
    (params : Buffer → Buffer) (buffer : Buffer) : Buffer :=
  params <| Codec.number.push count <| Identifier.codec.push name <|
    Identifier.codec.push moduleName <| (Codec.bare .address).push address buffer

mutual

/-- Writes a type: the index of its alternative, and its content. -/
def TypeTag.push : TypeTag → Buffer → Buffer
  | .bool, buffer => Codec.number.push 0 buffer
  | .u8, buffer => Codec.number.push 1 buffer
  | .u64, buffer => Codec.number.push 2 buffer
  | .u128, buffer => Codec.number.push 3 buffer
  | .address, buffer => Codec.number.push 4 buffer
  | .signer, buffer => Codec.number.push 5 buffer
  | .vector element, buffer => element.push (Codec.number.push 6 buffer)
  | .struct addr moduleName name params, buffer =>
    StructTag.pushWith addr moduleName name params.length (TypeTag.pushAll params)
      (Codec.number.push 7 buffer)

/-- Writes several types, one after the other. -/
def TypeTag.pushAll : List TypeTag → Buffer → Buffer
  | [], buffer => buffer
  | tag :: rest, buffer => TypeTag.pushAll rest (tag.push buffer)

end

/-- Writes a struct type. -/
def StructTag.push (s : StructTag) : Buffer → Buffer :=
  StructTag.pushWith s.address s.moduleName s.name s.typeParams.length
    (TypeTag.pushAll s.typeParams)

/-- Reads a struct type, with `param` for each of its parameters. -/
def StructTag.readWith (param : Reader TypeTag) : Reader StructTag :=
  .andThen (Codec.bare .address).read fun address =>
  .andThen Identifier.codec.read fun moduleName =>
  .andThen Identifier.codec.read fun name =>
  .andThen Uleb128.read fun count =>
  .andThen (.times count param) fun typeParams =>
  .ok { address, moduleName, name, typeParams }

/-- Reads a type, with `element` for the element of a vector and `param` for the parameters of a
struct. -/
def TypeTag.readWith (element param : Reader TypeTag) : Reader TypeTag :=
  .andThen Uleb128.read fun
    | 0 => .ok .bool
    | 1 => .ok .u8
    | 2 => .ok .u64
    | 3 => .ok .u128
    | 4 => .ok .address
    | 5 => .ok .signer
    | 6 => .andThen element fun tag => .ok (.vector tag)
    | 7 => .andThen (StructTag.readWith param) fun s => .ok (.ofStruct s)
    | index => .fail (.unknownVariant "TypeTag" index)

/-- Reads a type where so many levels are still allowed. -/
def TypeTag.readWithin : (levels : Nat) → Reader TypeTag
  | 0 => .fail .tagTooDeep
  | 1 => TypeTag.readWith (TypeTag.readWithin 0) (TypeTag.readWithin 0)
  | levels + 2 => TypeTag.readWith (TypeTag.readWithin (levels + 1)) (TypeTag.readWithin levels)

/-- A type, with at most `maxTagDepth` levels below the outermost. -/
def TypeTag.codec : Codec TypeTag where
  push := TypeTag.push
  read := TypeTag.readWithin (maxTagDepth + 1)

/-- A struct type. It takes the place of the outermost level, so that its parameters are read one
level down. -/
def StructTag.codec : Codec StructTag where
  push := StructTag.push
  read := StructTag.readWith (TypeTag.readWithin maxTagDepth)

end LedgerClient
