import LedgerClient.TypeTag.Codec

/-!
# Scripts and modules

What a transaction runs: a script with its type arguments and its value arguments, or the code of
a module to publish.
-/

set_option autoImplicit false

namespace LedgerClient

/-- A value argument of a script. -/
inductive Argument where
  | u8 (value : UInt8)
  | u64 (value : UInt64)
  | u128 (value : BitVec 128)
  | address (value : Address)
  | u8vector (value : Bytes)
  | bool (value : Bool)
  deriving DecidableEq, Repr

namespace Argument

/-- The alternatives in the order of their indices. -/
def cases : List (Codec.Case Argument) :=
  [{ content := Codec.u8, build := u8, open? := fun | u8 v => some v | _ => none },
   { content := Codec.u64, build := u64, open? := fun | u64 v => some v | _ => none },
   { content := Codec.u128, build := u128, open? := fun | u128 v => some v | _ => none },
   { content := Codec.bare .address, build := address,
     open? := fun | address v => some v | _ => none },
   { content := Codec.bytes, build := u8vector, open? := fun | u8vector v => some v | _ => none },
   { content := Codec.bool, build := bool, open? := fun | bool v => some v | _ => none }]

def codec : Codec Argument := .union "TransactionArgument" cases

end Argument

/-- Code with its type arguments and its value arguments, in the order of the call. -/
structure Script where
  code : Bytes
  typeArgs : List TypeTag
  args : List Argument
  deriving Repr, BEq

def Script.codec : Codec Script :=
  (Codec.bytes.pair (TypeTag.codec.list.pair Argument.codec.list)).via
    (fun (code, typeArgs, args) => { code, typeArgs, args })
    (fun s => (s.code, s.typeArgs, s.args))

/-- The code of a module. -/
structure Module where
  code : Bytes
  deriving DecidableEq, Repr

def Module.codec : Codec Module := Codec.bytes.via Module.mk Module.code

end LedgerClient
