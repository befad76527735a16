import LedgerClient.Authenticator
import LedgerClient.WriteSet

/-!
# Transactions

A transaction as its sender writes it, with the authenticator that allows it, and in the envelope
in which every committed transaction is hashed.
-/

set_option autoImplicit false

namespace LedgerClient

/-- What a transaction does. -/
inductive Payload where
  | writeSet (payload : WriteSetPayload)
  | script (script : Script)
  | publish (code : Module)
  deriving Repr, BEq

namespace Payload

/-- The alternatives in the order of their indices. -/
def cases : List (Codec.Case Payload) :=
  [{ content := WriteSetPayload.codec, build := writeSet,
     open? := fun | writeSet p => some p | _ => none },
   { content := Script.codec, build := script, open? := fun | script s => some s | _ => none },
   { content := Module.codec, build := publish, open? := fun | publish m => some m | _ => none }]

def codec : Codec Payload := .union "TransactionPayload" cases

end Payload

/-- A transaction that nobody has signed yet. -/
structure RawTransaction where
  sender : Address
  sequenceNumber : UInt64
  payload : Payload
  maxGasAmount : UInt64
  gasUnitPrice : UInt64
  gasCurrency : String
  /-- The time after which the transaction is dropped, in seconds since 1970. -/
  expiration : UInt64
  chainId : UInt8
  deriving Repr, BEq

def RawTransaction.codec : Codec RawTransaction :=
  ((Codec.bare .address).pair <| Codec.u64.pair <| Payload.codec.pair <| Codec.u64.pair <|
      Codec.u64.pair <| Codec.text.pair <| Codec.u64.pair Codec.u8).via
    (fun (sender, sequenceNumber, payload, maxGasAmount, gasUnitPrice, gasCurrency, expiration,
        chainId) =>
      { sender, sequenceNumber, payload, maxGasAmount, gasUnitPrice, gasCurrency, expiration,
        chainId })
    (fun t => (t.sender, t.sequenceNumber, t.payload, t.maxGasAmount, t.gasUnitPrice,
      t.gasCurrency, t.expiration, t.chainId))

/-- A transaction with its authenticator. -/
structure SignedTransaction where
  raw : RawTransaction
  authenticator : Authenticator
  deriving Repr, BEq

namespace SignedTransaction

def codec : Codec SignedTransaction :=
  (RawTransaction.codec.pair Authenticator.codec).via
    (fun (raw, authenticator) => { raw, authenticator })
    (fun t => (t.raw, t.authenticator))

/-- The transaction whose written form the bytes are. -/
def ofBytes (bytes : Bytes) : Except SchemaError SignedTransaction :=
  (codec.decode bytes).mapError .data

/-- The transaction whose written form the text is in hexadecimal. -/
def ofHex (text : String) : Except SchemaError SignedTransaction :=
  match Hex.decode text with
  | .error fault => .error (.data (.notHex fault))
  | .ok bytes => ofBytes bytes

/-- The written form. -/
def toBytes (t : SignedTransaction) : Bytes := codec.write t

/-- The written form in hexadecimal. -/
def hex (t : SignedTransaction) : String := Hex.encode t.toBytes

end SignedTransaction

/-- The transaction that opens a block. -/
structure BlockMetadata where
  id : Digest
  round : UInt64
  /-- The time of the block, in microseconds since 1970. -/
  timestamp : UInt64
  previousVotes : List Address
  proposer : Address
  deriving DecidableEq, Repr

def BlockMetadata.codec : Codec BlockMetadata :=
  ((Codec.framed .digest).pair <| Codec.u64.pair <| Codec.u64.pair <|
      (Codec.bare .address).list.pair (Codec.bare .address)).via
    (fun (id, round, timestamp, previousVotes, proposer) =>
      { id, round, timestamp, previousVotes, proposer })
    (fun b => (b.id, b.round, b.timestamp, b.previousVotes, b.proposer))

/-- A transaction of any origin. -/
inductive Transaction where
  | user (signed : SignedTransaction)
  | genesis (payload : WriteSetPayload)
  | blockMetadata (block : BlockMetadata)
  deriving Repr, BEq

namespace Transaction

/-- The alternatives in the order of their indices. -/
def cases : List (Codec.Case Transaction) :=
  [{ content := SignedTransaction.codec, build := user,
     open? := fun | user t => some t | _ => none },
   { content := WriteSetPayload.codec, build := genesis,
     open? := fun | genesis p => some p | _ => none },
   { content := BlockMetadata.codec, build := blockMetadata,
     open? := fun | blockMetadata b => some b | _ => none }]

def codec : Codec Transaction := .union "Transaction" cases

/-- The digest under which the transaction is committed. -/
def hash (t : Transaction) : Digest := prefixedHash "Transaction" (codec.write t)

end Transaction

end LedgerClient
