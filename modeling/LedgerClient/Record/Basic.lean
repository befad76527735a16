import LedgerClient.Record.Status

/-!
# Transaction records

A committed transaction as a node reports it: where it stands in the ledger, how it ended, what
its sender wrote, and the events that came of it.
-/

set_option autoImplicit false

namespace LedgerClient

/-- What the sender of a transaction wrote. Only the kind is there for every transaction. -/
structure Record.Body where
  kind : String
  sender : Option String
  sequenceNumber : Option UInt64
  signature : Option String
  publicKey : Option String
  expiration : Option UInt64
  deriving DecidableEq, Repr

/-- An event of a transaction. -/
structure Record.Entry where
  key : String
  sequenceNumber : UInt64
  version : UInt64
  data : Json
  deriving Repr, BEq

/-- A committed transaction. -/
structure Record where
  version : UInt64
  hash : String
  gasUsed : UInt64
  status : Status
  body : Record.Body
  events : List Record.Entry
  deriving Repr, BEq

namespace Record

/-- The signature of the sender, if the record shows one. -/
def signature (r : Record) : Option String := r.body.signature

namespace Body

/-- What stands for a body that is left out. -/
def empty : Body := ⟨"", none, none, none, none, none⟩

/-- The names of the fields in JSON. -/
def fieldNames : List String :=
  ["type", "sender", "sequence_number", "signature", "public_key", "expiration_timestamp_secs"]

/-- Reads a body. -/
def read {D : Type} (v : Json.View D) (d : D) : Option Body :=
  match v.fields? fieldNames d with
  | some [kind, sender, sequenceNumber, signature, publicKey, expiration] => do
    let kind ← Json.View.required v.string? kind
    let sender ← v.optional v.string? sender
    let sequenceNumber ← v.optional v.u64? sequenceNumber
    let signature ← v.optional v.string? signature
    let publicKey ← v.optional v.string? publicKey
    let expiration ← v.optional v.u64? expiration
    return { kind, sender, sequenceNumber, signature, publicKey, expiration }
  | _ => none

/-- The body as a JSON value. -/
def toJson (b : Body) : Json :=
  .object <|
    [("type", .string b.kind)]
      ++ Json.present "sender" .string b.sender
      ++ Json.present "sequence_number" (fun n => .nat n.toNat) b.sequenceNumber
      ++ Json.present "signature" .string b.signature
      ++ Json.present "public_key" .string b.publicKey
      ++ Json.present "expiration_timestamp_secs" (fun n => .nat n.toNat) b.expiration

end Body

namespace Entry

/-- The names of the fields in JSON. -/
def fieldNames : List String := ["key", "sequence_number", "transaction_version", "data"]

/-- Reads an event. Data that is missing is null. -/
def read {D : Type} (v : Json.View D) (d : D) : Option Entry :=
  match v.fields? fieldNames d with
  | some [key, sequenceNumber, version, data] => do
    let key ← Json.View.required v.string? key
    let sequenceNumber ← Json.View.required v.u64? sequenceNumber
    let version ← Json.View.required v.u64? version
    let data ← Json.View.defaulted .null v.value? data
    return { key, sequenceNumber, version, data }
  | _ => none

/-- The event as a JSON value. -/
def toJson (e : Entry) : Json :=
  .object
    [("key", .string e.key), ("sequence_number", .nat e.sequenceNumber.toNat),
     ("transaction_version", .nat e.version.toNat), ("data", e.data)]

end Entry

/-- The names of the fields in JSON. -/
def fieldNames : List String :=
  ["version", "hash", "gas_used", "vm_status", "transaction", "events"]

/-- Reads a record. A body that is missing is empty, and events that are missing are none. -/
def read {D : Type} (v : Json.View D) (d : D) : Option Record :=
  match v.fields? fieldNames d with
  | some [version, hash, gasUsed, status, body, events] => do
    let version ← Json.View.required v.u64? version
    let hash ← Json.View.required v.string? hash
    let gasUsed ← Json.View.required v.u64? gasUsed
    let status ← Json.View.required (Status.read v) status
    let body ← Json.View.defaulted .empty (Body.read v) body
    let events ← Json.View.defaulted [] (v.list? (Entry.read v)) events
    return { version, hash, gasUsed, status, body, events }
  | _ => none

/-- The record as a JSON value. -/
def toJson (r : Record) : Json :=
  .object
    [("version", .nat r.version.toNat), ("hash", .string r.hash),
     ("gas_used", .nat r.gasUsed.toNat), ("vm_status", r.status.toJson),
     ("transaction", r.body.toJson), ("events", .array (r.events.map Entry.toJson))]

/-- The record that a JSON value stands for. -/
def ofJson? (j : Json) : Option Record := read Json.view j

/-- The record that a JSON text stands for. -/
def ofText? (text : String) : Option Record :=
  (Json.Within.ofText? text).bind (read Json.Within.view)

end Record

end LedgerClient
