import LedgerClient.Octets.Basic

/-!
# Why data is refused

One cause for each way in which bytes or text fail to be a value: faults of the wire format,
faults of the text forms, and key material that no key can have. `DataError.message` gives the
wording of each.
-/

set_option autoImplicit false

namespace LedgerClient

/-- The most member keys that a threshold key may have. -/
def maxMembers : Nat := 32

/-- The deepest nesting of a type tag that is read. -/
def maxTagDepth : Nat := 64

/-- Why bytes or text are not a value. -/
inductive DataError where
  /-- The input ends inside a value. -/
  | endOfInput
  /-- The type has no alternative of this index. -/
  | unknownVariant (typeName : String) (index : Nat)
  /-- Bytes are left after the value. -/
  | trailing (count : Nat)
  /-- A variable-length number has a last group of zero. -/
  | numberNotMinimal
  /-- A variable-length number does not fit in 32 bits. -/
  | numberTooLarge
  | notBool (byte : UInt8)
  | notOptionTag (byte : UInt8)
  | notUtf8 (fault : Utf8.Fault)
  /-- A value of a fixed size has another number of bytes. -/
  | wrongLength (kind : Octets.Kind) (got : Nat)
  | notIdentifier (text : String)
  | tagTooDeep
  | notHex (fault : Hex.Fault)
  /-- A secret key has another number of bytes than 32. -/
  | secretLength (got : Nat)
  | secretEmpty
  /-- The bytes of a public key name no point of the curve. -/
  | notPoint
  /-- The bytes of a threshold key are not whole member keys and one byte more. -/
  | keySetLength (got : Nat)
  /-- The bytes of a threshold signature are not whole signatures and a bitmap. -/
  | signatureSetLength (got : Nat)
  | noKeys
  | tooManyKeys (got : Nat)
  | badThreshold (threshold : UInt8) (keyCount : Nat)
  | noSignatures
  | signerOutOfRange (index : UInt8)
  | duplicateSigner (index : UInt8)
  /-- The bitmap names another number of signers than there are signatures. -/
  | bitmapMismatch (bits signatures : Nat)
  deriving DecidableEq, Repr

/-- The wording of the cause. -/
def DataError.message : DataError → String
  | endOfInput => "unexpected end of input"
  | unknownVariant typeName index => s!"unknown variant index {index} for {typeName}"
  | trailing count => s!"{count} trailing bytes after value"
  | numberNotMinimal => "non-canonical ULEB128 encoding"
  | numberTooLarge => "ULEB128 value does not fit in u32"
  | notBool byte => s!"invalid bool byte: {byte.toNat}"
  | notOptionTag byte => s!"invalid option tag: {byte.toNat}"
  | notUtf8 fault => s!"invalid utf-8: {fault.message}"
  | wrongLength kind got =>
    s!"invalid {kind.label} length: expected {kind.size}, got {got}"
  | notIdentifier text => s!"invalid identifier: {Quoted.text text}"
  | tagTooDeep => s!"invalid type tag: nesting deeper than {maxTagDepth}"
  | notHex fault => s!"invalid hex: {fault.message}"
  | secretLength got => s!"invalid private key: expected 32 bytes, got {got}"
  | secretEmpty => "invalid private key: private key hex is empty"
  | notPoint => "invalid public key: signature error: Cannot decompress Edwards point"
  | keySetLength got =>
    s!"invalid public key: multi-ed25519 key length {got} is not a multiple of 32 plus one"
  | signatureSetLength got =>
    s!"invalid signature: invalid multi-ed25519 signature length {got}"
  | noKeys => "empty key set"
  | tooManyKeys got => s!"too many keys: max {maxMembers}, got {got}"
  | badThreshold threshold keyCount =>
    s!"invalid threshold {threshold.toNat} for {keyCount} keys"
  | noSignatures => "invalid bitmap: no signatures"
  | signerOutOfRange index =>
    s!"invalid bitmap: signer index {index.toNat} out of range"
  | duplicateSigner index => s!"invalid bitmap: duplicate signer index {index.toNat}"
  | bitmapMismatch bits signatures =>
    s!"invalid bitmap: bitmap has {bits} bits set for {signatures} signatures"

end LedgerClient
