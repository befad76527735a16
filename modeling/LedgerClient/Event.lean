import LedgerClient.TypeTag.Codec

/-!
# Events

An event stream is named by the number of its creation and the address of its owner. An event
stands in a stream at a sequence number and carries data of a type.
-/

set_option autoImplicit false

namespace LedgerClient

namespace EventKey

/-- The key of the stream that the owner created as the one of this number. -/
def ofParts (creationNumber : UInt64) (owner : Address) : EventKey :=
  ⟨Bytes.littleEndian 8 creationNumber.toNat ++ owner.toList, by
    simp [Bytes.length_littleEndian, owner.length_toList, Octets.Kind.size]⟩

/-- The number of the stream among those of its owner. -/
def creationNumber (key : EventKey) : UInt64 :=
  UInt64.ofNat (Bytes.ofLittleEndian (key.toList.take 8))

/-- The owner of the stream. -/
def owner (key : EventKey) : Address :=
  ⟨key.toList.drop 8, by simp [key.length_toList, Octets.Kind.size]⟩

end EventKey

/-- An event of a stream. -/
structure Event where
  key : EventKey
  sequenceNumber : UInt64
  typeTag : TypeTag
  data : Bytes
  deriving Repr, BEq

namespace Event

/-- The parts of an event, one after the other. -/
def body : Codec Event :=
  ((Codec.framed .eventKey).pair (Codec.u64.pair (TypeTag.codec.pair Codec.bytes))).via
    (fun (key, sequenceNumber, typeTag, data) => { key, sequenceNumber, typeTag, data })
    (fun e => (e.key, e.sequenceNumber, e.typeTag, e.data))

/-- There is one form of events so far, with the index zero. -/
def codec : Codec Event :=
  .union "ContractEvent" [{ content := body, build := id, open? := some }]

end Event

end LedgerClient
