import LedgerClient.Threshold.Key

/-!
# Threshold signatures

The signatures of some members of a key set, in the order of their positions, and the bitmap of
these positions. The bytes are the signatures and then the four bytes of the bitmap.
-/

set_option autoImplicit false

namespace LedgerClient

/-- Signatures of members of a key set. -/
structure ThresholdSignature where
  signatures : List Signature
  bitmap : Bitmap
  deriving DecidableEq, Repr

namespace ThresholdSignature

/-- What every threshold signature satisfies: there is one at least, and there is one for each
position of the bitmap. -/
def WellFormed (s : ThresholdSignature) : Prop :=
  1 ≤ s.signatures.length ∧ s.signatures.length = s.bitmap.count

/-- The positions of the signers, in increasing order. -/
def signers (s : ThresholdSignature) : List Bitmap.Position := s.bitmap.toList

/-- Enters the positions into the bitmap, up to the first that is out of range or there already. -/
def collect (m : Bitmap) : List UInt8 → Except DataError Bitmap
  | [] => .ok m
  | index :: rest =>
    if h : index.toNat < 32 then
      if m.contains ⟨index.toNat, h⟩ then .error (.duplicateSigner index)
      else collect (m.insert ⟨index.toNat, h⟩) rest
    else .error (.signerOutOfRange index)

/-- The signature that consists of the given ones, each with the position of its signer, in any
order. -/
def ofIndexed (entries : List (Signature × UInt8)) : Except DataError ThresholdSignature :=
  if entries.isEmpty then .error .noSignatures
  else
    let sorted := entries.mergeSort fun a b => a.2 ≤ b.2
    match collect .empty (sorted.map Prod.snd) with
    | .error e => .error e
    | .ok bitmap => .ok { signatures := sorted.map Prod.fst, bitmap }

/-- The signatures, one after the other, and the bitmap. -/
def toBytes (s : ThresholdSignature) : Bytes :=
  s.signatures.flatMap Octets.toList ++ s.bitmap.toBytes

/-- The text form: two lower-case digits a byte. -/
def hex (s : ThresholdSignature) : String := Hex.encode s.toBytes

/-- The form for inspection. -/
def inspect (s : ThresholdSignature) : String := "MultiEd25519Signature(" ++ s.hex ++ ")"

/-- The signature that the bytes are. -/
def ofBytes (bytes : Bytes) : Except DataError ThresholdSignature :=
  if bytes.length < 68 ∨ (bytes.length - 4) % 64 ≠ 0 then
    .error (.signatureSetLength bytes.length)
  else
    let parts := bytes.take (bytes.length - 4)
    let bitmap := Bitmap.ofBytes (bytes.drop (bytes.length - 4))
    let count := parts.length / 64
    if maxMembers < count then .error (.tooManyKeys count)
    else if bitmap.count ≠ count then .error (.bitmapMismatch bitmap.count count)
    else
      match Octets.readEach (Octets.ofBytes .signature) (Bytes.chunks 64 count parts) with
      | .error e => .error e
      | .ok signatures => .ok { signatures, bitmap }

/-- A signature is written with its length in front. -/
def codec : Codec ThresholdSignature := Codec.bytes.checked ofBytes toBytes

/-- Whether enough members have signed and each of their signatures is good under the key at the
position of its signer. -/
def verify (s : ThresholdSignature) (message : Bytes) (key : ThresholdKey) : Bool :=
  !(s.signers.length < key.threshold.toNat : Bool)
    && (s.signers.zip s.signatures).all fun (i, signature) =>
      match key.members[i.val]? with
      | some member => member.verify message signature
      | none => false

end ThresholdSignature

/-- The signature of the first members, as many as the threshold asks for. -/
def ThresholdSecret.sign (key : ThresholdSecret) (message : Bytes) : ThresholdSignature :=
  let signatures := (key.members.take key.threshold.toNat).map fun member => member.sign message
  { signatures, bitmap := .ofList ((List.finRange 32).take signatures.length) }

end LedgerClient
