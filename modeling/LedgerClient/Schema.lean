import LedgerClient.Transaction
import LedgerClient.Metadata

/-!
# The types that have a wire form

A `Schema` is the description of a type: a number, a text, one of the types of the ledger, or a
list, an option or a pair of such. Each description has its type of values and its codec, so that
what holds of all wire forms is said once, for every schema.
-/

set_option autoImplicit false

namespace LedgerClient

/-- The description of a type that has a wire form. -/
inductive Schema where
  | u8
  | u16
  | u32
  | u64
  | u128
  | bool
  | text
  /-- So many bytes. -/
  | plain (count : Nat)
  | address
  | digest
  | subaddress
  | eventKey
  | publicKey
  | signature
  | thresholdKey
  | thresholdSignature
  | identifier
  | structTag
  | typeTag
  | argument
  | script
  | module
  | accessPath
  | writeOp
  | writeSet
  | changeSet
  | writeSetPayload
  | event
  /-- A routing without the index of its form. -/
  | routingBody
  | routing
  | travelRule
  | unstructured
  | metadata
  | authenticator
  | payload
  | rawTransaction
  | signedTransaction
  | blockMetadata
  | transaction
  | list (element : Schema)
  | option (element : Schema)
  /-- A value that is kept apart from what holds it, and is written like any other. -/
  | boxed (content : Schema)
  | pair (first second : Schema)
  deriving DecidableEq, Repr

namespace Schema

/-- The values of the described type. -/
def Value : Schema → Type
  | u8 => UInt8
  | u16 => UInt16
  | u32 => UInt32
  | u64 => UInt64
  | u128 => BitVec 128
  | bool => Bool
  | text => String
  | plain count => Octets (.plain count)
  | address => Address
  | digest => Digest
  | subaddress => Subaddress
  | eventKey => EventKey
  | publicKey => PublicKey
  | signature => Signature
  | thresholdKey => ThresholdKey
  | thresholdSignature => ThresholdSignature
  | identifier => Identifier
  | structTag => StructTag
  | typeTag => TypeTag
  | argument => Argument
  | script => Script
  | module => Module
  | accessPath => AccessPath
  | writeOp => WriteOp
  | writeSet => WriteSet
  | changeSet => ChangeSet
  | writeSetPayload => WriteSetPayload
  | event => Event
  | routingBody => Routing
  | routing => Routing
  | travelRule => TravelRule
  | unstructured => Unstructured
  | metadata => Metadata
  | authenticator => Authenticator
  | payload => Payload
  | rawTransaction => RawTransaction
  | signedTransaction => SignedTransaction
  | blockMetadata => BlockMetadata
  | transaction => Transaction
  | list element => List element.Value
  | option element => Option element.Value
  | boxed content => content.Value
  | pair first second => first.Value × second.Value

/-- How values of the described type are written and read. -/
def codec : (s : Schema) → Codec s.Value
  | u8 => Codec.u8
  | u16 => Codec.u16
  | u32 => Codec.u32
  | u64 => Codec.u64
  | u128 => Codec.u128
  | bool => Codec.bool
  | text => Codec.text
  | plain count => Codec.bare (.plain count)
  | address => Codec.bare .address
  | digest => Codec.framed .digest
  | subaddress => Codec.framed .subaddress
  | eventKey => Codec.framed .eventKey
  | publicKey => PublicKey.codec
  | signature => Codec.framed .signature
  | thresholdKey => ThresholdKey.codec
  | thresholdSignature => ThresholdSignature.codec
  | identifier => Identifier.codec
  | structTag => StructTag.codec
  | typeTag => TypeTag.codec
  | argument => Argument.codec
  | script => Script.codec
  | module => Module.codec
  | accessPath => AccessPath.codec
  | writeOp => WriteOp.codec
  | writeSet => WriteSet.codec
  | changeSet => ChangeSet.codec
  | writeSetPayload => WriteSetPayload.codec
  | event => Event.codec
  | routingBody => Routing.body
  | routing => Routing.codec
  | travelRule => TravelRule.codec
  | unstructured => Unstructured.codec
  | metadata => Metadata.codec
  | authenticator => Authenticator.codec
  | payload => Payload.codec
  | rawTransaction => RawTransaction.codec
  | signedTransaction => SignedTransaction.codec
  | blockMetadata => BlockMetadata.codec
  | transaction => Transaction.codec
  | list element => element.codec.list
  | option element => element.codec.option
  | boxed content => content.codec
  | pair first second => first.codec.pair second.codec

/-- The written form of a value. -/
def write (s : Schema) (value : s.Value) : Bytes := s.codec.write value

/-- The value whose written form the bytes are. -/
def decode (s : Schema) (bytes : Bytes) : Except DataError s.Value := s.codec.decode bytes

end Schema

end LedgerClient
