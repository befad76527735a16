import LedgerClient.Text.Hex

/-!
# Octets

Addresses, digests, keys and signatures are byte strings of a fixed size that differ in what they
stand for. `Octets kind` is such a value: its bytes and the proof that their number is the size of
the kind. Two kinds of one size stay different types.
-/

set_option autoImplicit false

namespace LedgerClient

/-- What a byte string of fixed size stands for. -/
inductive Octets.Kind where
  /-- An account address. -/
  | address
  /-- A SHA3-256 digest. -/
  | digest
  /-- The digest of an account's public key. -/
  | authKey
  /-- A part of a custodial account. -/
  | subaddress
  /-- The name of an event stream. -/
  | eventKey
  /-- The encoding of a curve point. -/
  | publicKey
  /-- An Ed25519 signature. -/
  | signature
  /-- Bytes of a given number and no further meaning. -/
  | plain (count : Nat)
  deriving DecidableEq, Repr

namespace Octets.Kind

/-- The number of bytes. -/
def size : Kind → Nat
  | address => 16
  | digest => 32
  | authKey => 32
  | subaddress => 8
  | eventKey => 24
  | publicKey => 32
  | signature => 64
  | plain count => count

/-- The name in error messages. -/
def label : Kind → String
  | address => "account address"
  | digest => "hash"
  | authKey => "authentication key"
  | subaddress => "sub-address"
  | eventKey => "event key"
  | publicKey => "ed25519 public key"
  | signature => "ed25519 signature"
  | plain _ => "bytes"

/-- The name in front of a value that is shown for inspection. -/
def title : Kind → String
  | address => "AccountAddress"
  | digest => "HashValue"
  | authKey => "AuthenticationKey"
  | subaddress => "SubAddress"
  | eventKey => "EventKey"
  | publicKey => "Ed25519PublicKey"
  | signature => "Ed25519Signature"
  | plain _ => "Bytes"

/-- Whether a value is inspected as one hexadecimal text; otherwise byte by byte. -/
def inspectedAsHex : Kind → Bool
  | publicKey => true
  | signature => true
  | _ => false

/-- Whether the text form may begin with the mark `0x`. -/
def marked : Kind → Bool
  | address => true
  | _ => false

end Octets.Kind

/-- Bytes whose number is the size of the kind. -/
structure Octets (kind : Octets.Kind) where
  toList : Bytes
  length_toList : toList.length = kind.size
  deriving DecidableEq, Repr

/-- An account address. -/
abbrev Address := Octets .address

/-- A SHA3-256 digest. -/
abbrev Digest := Octets .digest

/-- An authentication key, the digest of an account's public key. -/
abbrev AuthKey := Octets .authKey

/-- A sub-address, which names a customer of a custodial account. -/
abbrev Subaddress := Octets .subaddress

/-- An event key, the name of an event stream. -/
abbrev EventKey := Octets .eventKey

/-- An Ed25519 signature. -/
abbrev Signature := Octets .signature

namespace Octets

variable {kind : Octets.Kind}

/-- The bytes as a value of the kind, if their number is right. -/
def ofList? (kind : Octets.Kind) (bytes : Bytes) : Option (Octets kind) :=
  if h : bytes.length = kind.size then some ⟨bytes, h⟩ else none

/-- All bytes zero. -/
def zero (kind : Octets.Kind) : Octets kind := ⟨List.replicate kind.size 0, by simp⟩

/-- The text form: two lower-case digits a byte. -/
def hex (x : Octets kind) : String := Hex.encode x.toList

@[simp] theorem toList_hex (x : Octets kind) : x.hex.toList = Hex.encodeChars x.toList :=
  Hex.toList_encode x.toList

/-- The form for inspection: the title of the kind, then the bytes. -/
def inspect (x : Octets kind) : String :=
  let body :=
    if kind.inspectedAsHex then x.hex
    else "[" ++ ", ".intercalate (x.toList.map fun b => toString b.toNat) ++ "]"
  kind.title ++ "(" ++ body ++ ")"

/-- Values of one kind are ordered by their bytes. -/
def order (x y : Octets kind) : Ordering := x.toList.order y.toList

attribute [simp] length_toList

theorem ext {x y : Octets kind} (h : x.toList = y.toList) : x = y := by
  cases x; cases y; simp_all

@[simp] theorem toList_inj {x y : Octets kind} : x.toList = y.toList ↔ x = y :=
  ⟨ext, congrArg toList⟩

@[simp] theorem ofList?_toList (x : Octets kind) : ofList? kind x.toList = some x := by
  simp [ofList?]

end Octets

/-- The address zero. -/
def Address.zero : Address := Octets.zero .address

/-- The address one, at which the framework's own modules stand. -/
def Address.one : Address := ⟨List.replicate 15 0 ++ [1], rfl⟩

end LedgerClient
