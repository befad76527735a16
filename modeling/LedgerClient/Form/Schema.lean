import LedgerClient.Form.Basic
import LedgerClient.Schema

/-!
# The JSON forms of the types of the ledger

For every schema the form of its values. A type tag is shown level by level.
-/

set_option autoImplicit false

namespace LedgerClient

/-- A struct type, with the form of its parameters. -/
def StructTag.formWith (param : Form TypeTag) : Form StructTag :=
  (Form.object <| (Form.field "address" (.octets .address)).and <|
      (Form.field "module" .identifier).and <|
      (Form.field "name" .identifier).and (Form.field "type_params" param.list)).via
    (fun (address, moduleName, name, typeParams) => { address, moduleName, name, typeParams })
    (fun s => (s.address, s.moduleName, s.name, s.typeParams))

namespace TypeTag

mutual

/-- The JSON of a type. -/
def toJson : TypeTag → Json
  | .bool => .string "bool"
  | .u8 => .string "u8"
  | .u64 => .string "u64"
  | .u128 => .string "u128"
  | .address => .string "address"
  | .signer => .string "signer"
  | .vector element => .object [("vector", element.toJson)]
  | .struct addr moduleName name params =>
    .object
      [("struct", .object
        [("address", .string addr.hex), ("module", .string moduleName.text),
         ("name", .string name.text), ("type_params", .array (toJsons params))])]

/-- The JSON of several types. -/
def toJsons : List TypeTag → List Json
  | [] => []
  | tag :: rest => tag.toJson :: toJsons rest

end

/-- Reads a type whose JSON is at most so deep. -/
def ofJsonWithin : (levels : Nat) → Json → Except FormError TypeTag
  | _, .string "bool" => .ok .bool
  | _, .string "u8" => .ok .u8
  | _, .string "u64" => .ok .u64
  | _, .string "u128" => .ok .u128
  | _, .string "address" => .ok .address
  | _, .string "signer" => .ok .signer
  | levels + 1, .object [("vector", j)] => do return .vector (← ofJsonWithin levels j)
  | levels + 1, .object [("struct", j)] => do
    return .ofStruct (← (StructTag.formWith ⟨toJson, ofJsonWithin levels⟩).read j)
  | _, _ => .error (.shape "a type")

def form : Form TypeTag where
  render := toJson
  read j := ofJsonWithin j.depth j

end TypeTag

def StructTag.form : Form StructTag := StructTag.formWith TypeTag.form

def PublicKey.form : Form PublicKey :=
  Form.text.checked (fun s => (PublicKey.ofHex s).mapError .data) PublicKey.hex

def ThresholdKey.form : Form ThresholdKey :=
  (Form.object <| (Form.field "keys" PublicKey.form.list).and (Form.field "threshold" .u8)).checked
    (fun (members, threshold) => (ThresholdKey.make members threshold).mapError .data)
    (fun key => (key.members, key.threshold))

/-- The bitmap is shown besides the positions of the signers, and is not read. -/
def ThresholdSignature.form : Form ThresholdSignature where
  render s :=
    .object
      [("signatures", (Form.octets .signature).list.render s.signatures),
       ("signers", .array (s.signers.map fun i => .nat i.val)),
       ("bitmap", Form.bytes.render s.bitmap.toBytes)]
  read :=
    let parts := Form.object <|
      (Form.field "signatures" (Form.octets .signature).list).and
        (Form.field "signers" Form.u8.list)
    fun j => do
      let (signatures, signers) ← parts.read j
      (ThresholdSignature.ofIndexed (signatures.zip signers)).mapError .data

def Argument.form : Form Argument :=
  .union
    [.full "u8" Form.u8 .u8 fun | .u8 v => some v | _ => none,
     .full "u64" Form.u64 .u64 fun | .u64 v => some v | _ => none,
     .full "u128" Form.u128 .u128 fun | .u128 v => some v | _ => none,
     .full "address" (Form.octets .address) .address fun | .address v => some v | _ => none,
     .full "u8vector" Form.bytes .u8vector fun | .u8vector v => some v | _ => none,
     .full "bool" Form.bool .bool fun | .bool v => some v | _ => none]

def Script.form : Form Script :=
  (Form.object <| (Form.field "code" .bytes).and <|
      (Form.field "ty_args" TypeTag.form.list).and (Form.field "args" Argument.form.list)).via
    (fun (code, typeArgs, args) => { code, typeArgs, args })
    (fun s => (s.code, s.typeArgs, s.args))

def Module.form : Form Module := (Form.object (Form.field "code" .bytes)).via .mk Module.code

def AccessPath.form : Form AccessPath :=
  (Form.object <| (Form.field "address" (.octets .address)).and (Form.field "path" .bytes)).via
    (fun (address, path) => { address, path })
    (fun p => (p.address, p.path))

def WriteOp.form : Form WriteOp :=
  .union
    [.bare "deletion" .deletion fun | .deletion => true | _ => false,
     .full "value" Form.bytes .value fun | .value v => some v | _ => none]

def WriteSet.form : Form WriteSet :=
  (AccessPath.form.pair WriteOp.form).list.via .mk WriteSet.writes

def EventKey.form : Form EventKey :=
  (Form.object <| (Form.field "creation_number" .u64).and
      (Form.field "address" (.octets .address))).via
    (fun (number, owner) => EventKey.ofParts number owner)
    (fun key => (key.creationNumber, key.owner))

def Event.form : Form Event :=
  (Form.object <| (Form.field "key" EventKey.form).and <|
      (Form.field "sequence_number" .u64).and <|
      (Form.field "type_tag" TypeTag.form).and (Form.field "event_data" .bytes)).via
    (fun (key, sequenceNumber, typeTag, data) => { key, sequenceNumber, typeTag, data })
    (fun e => (e.key, e.sequenceNumber, e.typeTag, e.data))

def ChangeSet.form : Form ChangeSet :=
  (Form.object <| (Form.field "write_set" WriteSet.form).and
      (Form.field "events" Event.form.list)).via
    (fun (writeSet, events) => { writeSet, events })
    (fun c => (c.writeSet, c.events))

def WriteSetPayload.form : Form WriteSetPayload :=
  .union
    [.full "direct" ChangeSet.form .direct fun | .direct c => some c | _ => none,
     .full "script"
      (Form.object <| (Form.field "execute_as" (.octets .address)).and
        (Form.field "script" Script.form))
      (fun (executeAs, s) => .script executeAs s)
      fun | .script executeAs s => some (executeAs, s) | _ => none]

def Routing.form : Form Routing :=
  (Form.object <| (Form.field "to_subaddress" (Form.octets .subaddress).option).and <|
      (Form.field "from_subaddress" (Form.octets .subaddress).option).and
      (Form.field "referenced_event" Form.u64.option)).via
    (fun (toSubaddress, fromSubaddress, referencedEvent) =>
      { toSubaddress, fromSubaddress, referencedEvent })
    (fun r => (r.toSubaddress, r.fromSubaddress, r.referencedEvent))

def TravelRule.form : Form TravelRule :=
  (Form.object (Form.field "off_chain_reference_id" Form.text.option)).via .mk TravelRule.reference

def Unstructured.form : Form Unstructured :=
  (Form.object (Form.field "metadata" Form.bytes.nullable)).via .mk Unstructured.content

def Metadata.form : Form Metadata :=
  .union
    [.bare "undefined" .undefined fun | .undefined => true | _ => false,
     .full "general" Routing.form .general fun | .general r => some r | _ => none,
     .full "travel_rule" TravelRule.form .travelRule fun | .travelRule r => some r | _ => none,
     .full "unstructured" Unstructured.form .unstructured
      fun | .unstructured b => some b | _ => none]

def Authenticator.form : Form Authenticator :=
  .union
    [.full "ed25519"
      (Form.object <| (Form.field "public_key" PublicKey.form).and
        (Form.field "signature" (.octets .signature)))
      (fun (key, signature) => .single key signature)
      fun | .single key signature => some (key, signature) | _ => none,
     .full "multi_ed25519"
      (Form.object <| (Form.field "public_key" ThresholdKey.form).and
        (Form.field "signature" ThresholdSignature.form))
      (fun (key, signature) => .threshold key signature)
      fun | .threshold key signature => some (key, signature) | _ => none]

def Payload.form : Form Payload :=
  .union
    [.full "write_set" WriteSetPayload.form .writeSet fun | .writeSet p => some p | _ => none,
     .full "script" Script.form .script fun | .script s => some s | _ => none,
     .full "module" Module.form .publish fun | .publish m => some m | _ => none]

def RawTransaction.form : Form RawTransaction :=
  (Form.object <| (Form.field "sender" (.octets .address)).and <|
      (Form.field "sequence_number" .u64).and <| (Form.field "payload" Payload.form).and <|
      (Form.field "max_gas_amount" .u64).and <| (Form.field "gas_unit_price" .u64).and <|
      (Form.field "gas_currency_code" .text).and <|
      (Form.field "expiration_timestamp_secs" .u64).and (Form.field "chain_id" .u8)).via
    (fun (sender, sequenceNumber, payload, maxGasAmount, gasUnitPrice, gasCurrency, expiration,
        chainId) =>
      { sender, sequenceNumber, payload, maxGasAmount, gasUnitPrice, gasCurrency, expiration,
        chainId })
    (fun t => (t.sender, t.sequenceNumber, t.payload, t.maxGasAmount, t.gasUnitPrice,
      t.gasCurrency, t.expiration, t.chainId))

def SignedTransaction.form : Form SignedTransaction :=
  (Form.object <| (Form.field "raw_txn" RawTransaction.form).and
      (Form.field "authenticator" Authenticator.form)).via
    (fun (raw, authenticator) => { raw, authenticator })
    (fun t => (t.raw, t.authenticator))

def BlockMetadata.form : Form BlockMetadata :=
  (Form.object <| (Form.field "id" (.octets .digest)).and <| (Form.field "round" .u64).and <|
      (Form.field "timestamp_usecs" .u64).and <|
      (Form.field "previous_block_votes" (Form.octets .address).list).and
      (Form.field "proposer" (.octets .address))).via
    (fun (id, round, timestamp, previousVotes, proposer) =>
      { id, round, timestamp, previousVotes, proposer })
    (fun b => (b.id, b.round, b.timestamp, b.previousVotes, b.proposer))

def Transaction.form : Form Transaction :=
  .union
    [.full "user" SignedTransaction.form .user fun | .user t => some t | _ => none,
     .full "genesis" WriteSetPayload.form .genesis fun | .genesis p => some p | _ => none,
     .full "block_metadata" BlockMetadata.form .blockMetadata
      fun | .blockMetadata b => some b | _ => none]

namespace Schema

/-- The form of the values of the described type. -/
def form : (s : Schema) → Form s.Value
  | u8 => Form.u8
  | u16 => Form.u16
  | u32 => Form.u32
  | u64 => Form.u64
  | u128 => Form.u128
  | bool => Form.bool
  | text => Form.text
  | plain count => Form.octets (.plain count)
  | address => Form.octets .address
  | digest => Form.octets .digest
  | subaddress => Form.octets .subaddress
  | eventKey => EventKey.form
  | publicKey => PublicKey.form
  | signature => Form.octets .signature
  | thresholdKey => ThresholdKey.form
  | thresholdSignature => ThresholdSignature.form
  | identifier => Form.identifier
  | structTag => StructTag.form
  | typeTag => TypeTag.form
  | argument => Argument.form
  | script => Script.form
  | module => Module.form
  | accessPath => AccessPath.form
  | writeOp => WriteOp.form
  | writeSet => WriteSet.form
  | changeSet => ChangeSet.form
  | writeSetPayload => WriteSetPayload.form
  | event => Event.form
  | routingBody => Routing.form
  | routing => Routing.form
  | travelRule => TravelRule.form
  | unstructured => Unstructured.form
  | metadata => Metadata.form
  | authenticator => Authenticator.form
  | payload => Payload.form
  | rawTransaction => RawTransaction.form
  | signedTransaction => SignedTransaction.form
  | blockMetadata => BlockMetadata.form
  | transaction => Transaction.form
  | list element => element.form.list
  | option element => element.form.option
  | boxed content => content.form
  | pair first second => first.form.pair second.form

/-- The text form of a value, of the types that have one. -/
def text? : (s : Schema) → s.Value → Option String
  | address, (v : Address) => some v.hex
  | digest, (v : Digest) => some v.hex
  | subaddress, (v : Subaddress) => some v.hex
  | eventKey, (v : EventKey) => some v.hex
  | publicKey, (v : PublicKey) => some v.hex
  | signature, (v : Signature) => some v.hex
  | identifier, (v : Identifier) => some v.text
  | structTag, (v : StructTag) => some v.text
  | typeTag, (v : TypeTag) => some v.text
  | _, _ => none

end Schema

end LedgerClient
