import LedgerClient.Proofs.Wire.Plan
import LedgerClient.Session

/-!
# Every step of a session has a plan

The plan of a codec is put together from those of its parts, just as the codec is. The readers of type
tags have theirs by the recursion of the readers, and schemas by induction.
-/

set_option autoImplicit false

namespace LedgerClient

open Codec (Plan)

/-! ## Types -/

def Identifier.plan : Identifier.codec.Plan := .checked .text

/-- The address, the names and the number of the parameters, and then the parameters. -/
def StructTag.planWith {param : Reader TypeTag} (p : param.Plan) : (readWith param).Plan :=
  .andThen (Plan.bare .address) fun _ =>
  .andThen Identifier.plan fun _ =>
  .andThen Identifier.plan fun _ =>
  .andThen .number fun count =>
  .andThen (.withRoom (p.times count)) fun _ =>
  .ok _

namespace TypeTag

def planWith {element param : Reader TypeTag} (p : element.Plan) (q : param.Plan) :
    (readWith element param).Plan :=
  .andThen .number fun
    | 0 => .ok bool
    | 1 => .ok u8
    | 2 => .ok u64
    | 3 => .ok u128
    | 4 => .ok address
    | 5 => .ok signer
    | 6 => .andThen p fun tag => .ok (vector tag)
    | 7 => .andThen (StructTag.planWith q) fun s => .ok (ofStruct s)
    | index + 8 => .fail (.unknownVariant "TypeTag" (index + 8))

def planWithin : (levels : Nat) → (readWithin levels).Plan
  | 0 => .fail .tagTooDeep
  | 1 => planWith (planWithin 0) (planWithin 0)
  | levels + 2 => planWith (planWithin (levels + 1)) (planWithin levels)

def plan : codec.Plan := planWithin (maxTagDepth + 1)

end TypeTag

def StructTag.plan : StructTag.codec.Plan := planWith (TypeTag.planWithin maxTagDepth)

/-! ## Keys and signatures -/

def PublicKey.plan : PublicKey.codec.Plan := .checked .bytes

def ThresholdKey.plan : ThresholdKey.codec.Plan := .checked .bytes

def ThresholdSignature.plan : ThresholdSignature.codec.Plan := .checked .bytes

def Authenticator.plan : Authenticator.codec.Plan :=
  .union (.pair PublicKey.plan (.framed .signature),
    .pair ThresholdKey.plan ThresholdSignature.plan, ())

/-! ## Scripts, events and write sets -/

def Argument.plan : Argument.codec.Plan :=
  .union (.u8, .u64, .u128, .bare .address, .bytes, .bool, ())

def Script.plan : Script.codec.Plan :=
  .via (.pair .bytes (.pair (.list TypeTag.plan) (.list Argument.plan)))

def Module.plan : Module.codec.Plan := .via .bytes

def Event.planBody : Event.body.Plan :=
  .via (.pair (.framed .eventKey) (.pair .u64 (.pair TypeTag.plan .bytes)))

def Event.plan : Event.codec.Plan := .union (planBody, ())

def AccessPath.plan : AccessPath.codec.Plan := .via (.pair (.bare .address) .bytes)

def WriteOp.plan : WriteOp.codec.Plan := .union (.unit, .bytes, ())

def WriteSet.plan : WriteSet.codec.Plan := .via (.list (.pair AccessPath.plan WriteOp.plan))

def ChangeSet.plan : ChangeSet.codec.Plan := .via (.pair WriteSet.plan (.list Event.plan))

def WriteSetPayload.plan : WriteSetPayload.codec.Plan :=
  .union (ChangeSet.plan, .pair (.bare .address) Script.plan, ())

/-! ## Metadata -/

def Routing.planBody : Routing.body.Plan :=
  .via (.pair (.option (.framed .subaddress)) (.pair (.option (.framed .subaddress)) (.option .u64)))

def Routing.plan : Routing.codec.Plan := .union (planBody, ())

def TravelRule.plan : TravelRule.codec.Plan := .union (.option .text, ())

def Unstructured.plan : Unstructured.codec.Plan := .via (.option (.list .u8))

def Metadata.plan : Metadata.codec.Plan :=
  .union (.unit, Routing.plan, TravelRule.plan, Unstructured.plan, ())

/-! ## Transactions -/

def Payload.plan : Payload.codec.Plan :=
  .union (WriteSetPayload.plan, Script.plan, Module.plan, ())

def RawTransaction.plan : RawTransaction.codec.Plan :=
  .via <| .pair (.bare .address) <| .pair .u64 <| .pair Payload.plan <| .pair .u64 <| .pair .u64 <|
    .pair .text <| .pair .u64 .u8

def SignedTransaction.plan : SignedTransaction.codec.Plan :=
  .via (.pair RawTransaction.plan Authenticator.plan)

def BlockMetadata.plan : BlockMetadata.codec.Plan :=
  .via <| .pair (.framed .digest) <| .pair .u64 <| .pair .u64 <|
    .pair (.list (.bare .address)) (.bare .address)

def Transaction.plan : Transaction.codec.Plan :=
  .union (SignedTransaction.plan, WriteSetPayload.plan, BlockMetadata.plan, ())

/-! ## Sessions -/

def Schema.plan : (s : Schema) → s.codec.Plan
  | u8 => .u8
  | u16 => .u16
  | u32 => .u32
  | u64 => .u64
  | u128 => .u128
  | bool => .bool
  | text => .text
  | plain count => .bare (.plain count)
  | address => .bare .address
  | digest => .framed .digest
  | subaddress => .framed .subaddress
  | eventKey => .framed .eventKey
  | publicKey => PublicKey.plan
  | signature => .framed .signature
  | thresholdKey => ThresholdKey.plan
  | thresholdSignature => ThresholdSignature.plan
  | identifier => Identifier.plan
  | structTag => StructTag.plan
  | typeTag => TypeTag.plan
  | argument => Argument.plan
  | script => Script.plan
  | module => Module.plan
  | accessPath => AccessPath.plan
  | writeOp => WriteOp.plan
  | writeSet => WriteSet.plan
  | changeSet => ChangeSet.plan
  | writeSetPayload => WriteSetPayload.plan
  | event => Event.plan
  | routingBody => Routing.planBody
  | routing => Routing.plan
  | travelRule => TravelRule.plan
  | unstructured => Unstructured.plan
  | metadata => Metadata.plan
  | authenticator => Authenticator.plan
  | payload => Payload.plan
  | rawTransaction => RawTransaction.plan
  | signedTransaction => SignedTransaction.plan
  | blockMetadata => BlockMetadata.plan
  | transaction => Transaction.plan
  | list element => .list element.plan
  | option element => .option element.plan
  | boxed content => content.plan
  | pair first second => .pair first.plan second.plan

namespace Step

def plan : (step : Step) → step.read.Plan
  | number => .number
  | raw count => .take count
  | bytes => Codec.Plan.bytes
  | value s => s.plan
  | finish => .finish

/-- The step carried out on a cursor. -/
def onCursor (step : Step) : Cursor → Except Cursor.Fault (Except DataError step.Answer × Cursor) :=
  step.plan.reading.onCursor

end Step

/-- Where the cursor is after each step of a session, unless a step goes wrong. -/
def Session.onCursor : List Step → Cursor → Except Cursor.Fault (List Cursor)
  | [], _ => .ok []
  | step :: rest, c =>
    match step.onCursor c with
    | .error fault => .error fault
    | .ok (_, after) => (Session.onCursor rest after).map (after :: ·)

end LedgerClient
