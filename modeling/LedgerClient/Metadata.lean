import LedgerClient.TypeTag.Codec

/-!
# Payment metadata

What travels with a payment: the sub-addresses between which it goes, the event that a refund
answers, the reference under which two institutions know it, or bytes of any kind. This module
also holds the message that the receiving institution signs to attest a payment.
-/

set_option autoImplicit false

namespace LedgerClient

/-- The end customers of a payment, where an account is custodial, and the event that it refers
to. -/
structure Routing where
  toSubaddress : Option Subaddress
  fromSubaddress : Option Subaddress
  referencedEvent : Option UInt64
  deriving DecidableEq, Repr

/-- The reference of a payment. -/
structure TravelRule where
  reference : Option String
  deriving DecidableEq, Repr

/-- Bytes of any kind. -/
structure Unstructured where
  content : Option Bytes
  deriving DecidableEq, Repr

/-- What travels with a payment. -/
inductive Metadata where
  | undefined
  | general (routing : Routing)
  | travelRule (rule : TravelRule)
  | unstructured (body : Unstructured)
  deriving DecidableEq, Repr

/-- The parts of a routing, one after the other. -/
def Routing.body : Codec Routing :=
  ((Codec.framed .subaddress).option.pair
      ((Codec.framed .subaddress).option.pair Codec.u64.option)).via
    (fun (toSubaddress, fromSubaddress, referencedEvent) =>
      { toSubaddress, fromSubaddress, referencedEvent })
    (fun r => (r.toSubaddress, r.fromSubaddress, r.referencedEvent))

/-- There is one form of routing so far, with the index zero. -/
def Routing.codec : Codec Routing :=
  .union "GeneralMetadata" [{ content := Routing.body, build := id, open? := some }]

/-- There is one form of references so far, with the index zero. -/
def TravelRule.codec : Codec TravelRule :=
  .union "TravelRuleMetadata"
    [{ content := Codec.text.option, build := TravelRule.mk, open? := fun r => some r.reference }]

/-- The content is written as a list of bytes. -/
def Unstructured.codec : Codec Unstructured :=
  Codec.u8.list.option.via Unstructured.mk Unstructured.content

namespace Metadata

/-- The alternatives in the order of their indices. -/
def cases : List (Codec.Case Metadata) :=
  [{ content := Codec.unit, build := fun () => undefined,
     open? := fun | undefined => some () | _ => none },
   { content := Routing.codec, build := general, open? := fun | general r => some r | _ => none },
   { content := TravelRule.codec, build := travelRule,
     open? := fun | travelRule r => some r | _ => none },
   { content := Unstructured.codec, build := unstructured,
     open? := fun | unstructured b => some b | _ => none }]

def codec : Codec Metadata := .union "Metadata" cases

/-- The metadata whose written form the bytes are. -/
def ofBytes (bytes : Bytes) : Except SchemaError Metadata :=
  (codec.decode bytes).mapError .data

/-- The metadata whose written form the text is in hexadecimal. -/
def ofHex (text : String) : Except SchemaError Metadata :=
  match Hex.decode text with
  | .error fault => .error (.data (.notHex fault))
  | .ok bytes => ofBytes bytes

/-- A payment to a customer of a custodial account. -/
def toCustodial (receiver : Subaddress) : Metadata := general ⟨some receiver, none, none⟩

/-- A payment from a customer of a custodial account. -/
def fromCustodial (sender : Subaddress) : Metadata := general ⟨none, some sender, none⟩

/-- A payment between customers of two custodial accounts. -/
def betweenCustodial (sender receiver : Subaddress) : Metadata :=
  general ⟨some receiver, some sender, none⟩

/-- The routing, of metadata that has one. -/
def routing? : Metadata → Option Routing
  | general r => some r
  | _ => none

/-- What goes with the refund of a payment: its customers change places, and the refund refers to
the event by which the payment was received. -/
def refund (received : Metadata) (event : UInt64) : Metadata :=
  match received with
  | general r => general ⟨r.fromSubaddress, r.toSubaddress, some event⟩
  | _ => general ⟨none, none, some event⟩

/-- Bytes of any kind as metadata. -/
def ofContent (content : Bytes) : Metadata := unstructured ⟨some content⟩

end Metadata

namespace TravelRule

/-- The metadata of a payment that goes by a reference. -/
def metadata (reference : String) : Metadata := .travelRule ⟨some reference⟩

/-- The end of every message of attestation. -/
def suffix : Bytes := Utf8.encode "@@$$DIEM_ATTEST$$@@".toList

/-- The message that the receiver of a payment signs: the metadata, the sender, the amount and
the suffix. -/
def message (reference : String) (sender : Address) (amount : UInt64) : Bytes :=
  Buffer.contents fun buffer =>
    (Codec.raw suffix.length).push suffix <| Codec.u64.push amount <|
      (Codec.bare .address).push sender <| Metadata.codec.push (metadata reference) buffer

end TravelRule

end LedgerClient
