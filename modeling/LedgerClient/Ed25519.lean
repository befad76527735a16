import LedgerClient.Curve.Point
import LedgerClient.Digest.Sha512
import LedgerClient.Wire.Codec

/-!
# Ed25519

Secret keys, public keys and signatures. Signing is deterministic. Verification is strict: the
second half of a signature must be reduced, its first half must encode a point, neither that point
nor the key may have small order, and the first half must be the very encoding of the point that
the equation asks for.
-/

set_option autoImplicit false

namespace LedgerClient

/-- The encoding of a public key, kept as it was given. -/
structure PublicKey where
  encoding : Octets .publicKey
  deriving DecidableEq, Repr

namespace PublicKey

/-- The 32 bytes of the key. -/
def toList (key : PublicKey) : Bytes := key.encoding.toList

/-- The text form: two lower-case digits a byte. -/
def hex (key : PublicKey) : String := key.encoding.hex

/-- The form for inspection. -/
def inspect (key : PublicKey) : String := key.encoding.inspect

/-- The point of the curve that the key encodes. -/
def point? (key : PublicKey) : Option Curve.Point := Curve.Point.decompress? key.toList

/-- Whether the key encodes a point. Reading a key from bytes admits no other. -/
def IsPoint (key : PublicKey) : Prop := key.point?.isSome

instance (key : PublicKey) : Decidable key.IsPoint :=
  inferInstanceAs (Decidable (key.point?.isSome = true))

/-- The key that the bytes are: 32 of them, which encode a point. -/
def ofBytes (bytes : Bytes) : Except DataError PublicKey :=
  match Octets.ofBytes .publicKey bytes with
  | .error e => .error e
  | .ok encoding => if IsPoint ⟨encoding⟩ then .ok ⟨encoding⟩ else .error .notPoint

/-- The key whose hexadecimal form the text is. -/
def ofHex (text : String) : Except DataError PublicKey :=
  match Hex.decode text with
  | .error fault => .error (.notHex fault)
  | .ok bytes => ofBytes bytes

/-- A key is written with its length in front. -/
def codec : Codec PublicKey := Codec.bytes.checked ofBytes toList

end PublicKey

/-- The number that a hash of the parts stands for, modulo the order of the base point. -/
def hashToScalar (parts : List Bytes) : Nat :=
  Bytes.ofLittleEndian (Sha512.hash parts.flatten) % Curve.groupOrder

/-- A secret key: the 32 bytes that it grows from. -/
structure SecretKey where
  seed : Octets (.plain 32)

namespace SecretKey

/-- The key that grows from the bytes. -/
def ofBytes (bytes : Bytes) : Except DataError SecretKey :=
  match Octets.ofList? (.plain 32) bytes with
  | some seed => .ok ⟨seed⟩
  | none => .error (.secretLength bytes.length)

/-- The key that grows from the bytes whose hexadecimal form the text is. -/
def ofHex (text : String) : Except DataError SecretKey :=
  if text.isEmpty then .error .secretEmpty
  else
    match Hex.decode text with
    | .error fault => .error (.notHex fault)
    | .ok bytes => ofBytes bytes

/-- The text form of the seed. -/
def hex (key : SecretKey) : String := key.seed.hex

/-- The hash of the seed: its first half gives the scalar, its second half the nonces. -/
def expand (key : SecretKey) : Bytes := Sha512.hash key.seed.toList

/-- The least secret scalar, 2^254. -/
def leastScalar : Nat := Nat.pow 2 254

/-- The secret scalar: a multiple of eight between 2^254 and 2^255. -/
def scalar (key : SecretKey) : Nat :=
  Bytes.ofLittleEndian (key.expand.take 32) % leastScalar / 8 * 8 + leastScalar

/-- The public key: the scalar times the base point. -/
def publicKey (key : SecretKey) : PublicKey :=
  ⟨⟨(Curve.Point.base.scale key.scalar).compress, Curve.Point.length_compress _⟩⟩

/-- The signature of a message. -/
def sign (key : SecretKey) (message : Bytes) : Signature :=
  let nonce := hashToScalar [key.expand.drop 32, message]
  let first := (Curve.Point.base.scale nonce).compress
  let challenge := hashToScalar [first, key.publicKey.toList, message]
  ⟨first ++ Bytes.littleEndian 32 ((challenge * key.scalar + nonce) % Curve.groupOrder),
    by simp [first, Curve.Point.length_compress, Bytes.length_littleEndian, Octets.Kind.size]⟩

/-- The form for inspection, which leaves the seed out. -/
def inspect (key : SecretKey) : String :=
  "Ed25519PrivateKey \x7b public_key: " ++ key.publicKey.inspect ++ ", .. \x7d"

end SecretKey

/-- Whether the signature of the message is good under the key. -/
def PublicKey.verify (key : PublicKey) (message : Bytes) (signature : Signature) : Bool :=
  let first := signature.toList.take 32
  let second := Bytes.ofLittleEndian (signature.toList.drop 32)
  match key.point?, Curve.Point.decompress? first with
  | some keyPoint, some firstPoint =>
    let challenge := hashToScalar [first, key.toList, message]
    let expected :=
      (Curve.Point.base.scale second).add (keyPoint.neg.scale challenge)
    second < Curve.groupOrder && !firstPoint.hasSmallOrder && !keyPoint.hasSmallOrder
      && expected.compress == first
  | _, _ => false

end LedgerClient
