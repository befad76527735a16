import LedgerClient.Threshold.Bitmap

/-!
# Threshold keys

Several Ed25519 keys together, of which a threshold has to sign. A key set has between one and
`maxMembers` members, and the threshold is between one and their number. The bytes of a public key
are the members in order and then the threshold.
-/

set_option autoImplicit false

namespace LedgerClient

/-- Whether so many members and this threshold make a key set. -/
def checkKeySet (count : Nat) (threshold : UInt8) : Except DataError Unit :=
  if count = 0 then .error .noKeys
  else if maxMembers < count then .error (.tooManyKeys count)
  else if threshold = 0 ∨ count < threshold.toNat then .error (.badThreshold threshold count)
  else .ok ()

/-- The public half of a key set. -/
structure ThresholdKey where
  members : List PublicKey
  threshold : UInt8
  deriving DecidableEq, Repr

namespace ThresholdKey

/-- What every key set satisfies. -/
def WellFormed (key : ThresholdKey) : Prop :=
  1 ≤ key.threshold.toNat ∧ key.threshold.toNat ≤ key.members.length
    ∧ key.members.length ≤ maxMembers

/-- The key set of the given members. -/
def make (members : List PublicKey) (threshold : UInt8) : Except DataError ThresholdKey :=
  match checkKeySet members.length threshold with
  | .error e => .error e
  | .ok () => .ok { members, threshold }

/-- The members' bytes, one after the other, and the threshold. -/
def toBytes (key : ThresholdKey) : Bytes :=
  key.members.flatMap PublicKey.toList ++ [key.threshold]

/-- The text form: two lower-case digits a byte. -/
def hex (key : ThresholdKey) : String := Hex.encode key.toBytes

/-- The form for inspection. -/
def inspect (key : ThresholdKey) : String := "MultiEd25519PublicKey(" ++ key.hex ++ ")"

/-- The key set that the bytes are. The number of members and the threshold are looked at before
any member. -/
def ofBytes (bytes : Bytes) : Except DataError ThresholdKey :=
  match bytes.getLast? with
  | none => .error .noKeys
  | some threshold =>
    let parts := bytes.dropLast
    if parts.length % 32 ≠ 0 then .error (.keySetLength bytes.length)
    else
      match checkKeySet (parts.length / 32) threshold with
      | .error e => .error e
      | .ok () =>
        match Octets.readEach PublicKey.ofBytes (Bytes.chunks 32 (parts.length / 32) parts) with
        | .error e => .error e
        | .ok members => .ok { members, threshold }

/-- A key set is written with its length in front. -/
def codec : Codec ThresholdKey := Codec.bytes.checked ofBytes toBytes

end ThresholdKey

/-- The secret half of a key set. -/
structure ThresholdSecret where
  members : List SecretKey
  threshold : UInt8

namespace ThresholdSecret

/-- What every key set satisfies. -/
def WellFormed (key : ThresholdSecret) : Prop :=
  1 ≤ key.threshold.toNat ∧ key.threshold.toNat ≤ key.members.length
    ∧ key.members.length ≤ maxMembers

/-- The key set of the given members. -/
def make (members : List SecretKey) (threshold : UInt8) : Except DataError ThresholdSecret :=
  match checkKeySet members.length threshold with
  | .error e => .error e
  | .ok () => .ok { members, threshold }

/-- The public half. -/
def publicKey (key : ThresholdSecret) : ThresholdKey :=
  { members := key.members.map SecretKey.publicKey, threshold := key.threshold }

/-- The form for inspection, which leaves the seeds out. -/
def inspect (key : ThresholdSecret) : String :=
  "MultiEd25519PrivateKey \x7b public_key: " ++ key.publicKey.inspect ++ ", .. \x7d"

end ThresholdSecret

end LedgerClient
