import LedgerClient.Proofs.Threshold.Signature
import LedgerClient.Proofs.TypeTag.Wire
import LedgerClient.Schema

/-!
# Values that can be read

Writing takes every value of a type, reading answers with some of them only. A value fits if its
texts, byte strings and lists can be counted in 32 bits, its types are nested no deeper than the
limit, its public keys encode points, and its key sets and threshold signatures come from a
constructor. For each type this is said of the parts that the limits are about; the parts of fixed
size have none.
-/

set_option autoImplicit false

namespace LedgerClient

open Codec (CountFits ListFits OptionFits TextFits)

/-- A key set that a program has come by, of members that encode points. -/
def ThresholdKey.Fits (key : ThresholdKey) : Prop := key.Made ∧ key.Points

def Argument.Fits : Argument → Prop
  | u8vector value => CountFits value.length
  | _ => True

def Script.Fits (s : Script) : Prop :=
  CountFits s.code.length ∧ ListFits TypeTag.Fits s.typeArgs ∧ ListFits Argument.Fits s.args

def Module.Fits (m : Module) : Prop := CountFits m.code.length

def AccessPath.Fits (p : AccessPath) : Prop := CountFits p.path.length

def WriteOp.Fits : WriteOp → Prop
  | deletion => True
  | value data => CountFits data.length

def WriteSet.Fits (w : WriteSet) : Prop :=
  ListFits (fun change => change.1.Fits ∧ change.2.Fits) w.writes

def Event.Fits (e : Event) : Prop := e.typeTag.Fits ∧ CountFits e.data.length

def ChangeSet.Fits (c : ChangeSet) : Prop := c.writeSet.Fits ∧ ListFits Event.Fits c.events

def WriteSetPayload.Fits : WriteSetPayload → Prop
  | direct changes => changes.Fits
  | script _ s => s.Fits

def TravelRule.Fits (r : TravelRule) : Prop := OptionFits TextFits r.reference

def Unstructured.Fits (u : Unstructured) : Prop :=
  OptionFits (fun content => CountFits content.length) u.content

def Metadata.Fits : Metadata → Prop
  | travelRule rule => rule.Fits
  | unstructured body => body.Fits
  | _ => True

def Authenticator.Fits : Authenticator → Prop
  | single key _ => key.IsPoint
  | threshold key signature => key.Fits ∧ signature.Made

def Payload.Fits : Payload → Prop
  | writeSet payload => payload.Fits
  | script s => s.Fits
  | publish code => code.Fits

def RawTransaction.Fits (t : RawTransaction) : Prop := t.payload.Fits ∧ TextFits t.gasCurrency

def SignedTransaction.Fits (t : SignedTransaction) : Prop := t.raw.Fits ∧ t.authenticator.Fits

def BlockMetadata.Fits (b : BlockMetadata) : Prop := CountFits b.previousVotes.length

def Transaction.Fits : Transaction → Prop
  | user signed => signed.Fits
  | genesis payload => payload.Fits
  | blockMetadata block => block.Fits

namespace Schema

/-- The values of the described type that can be read. -/
def Fits : (s : Schema) → s.Value → Prop
  | text => TextFits
  | publicKey => PublicKey.IsPoint
  | thresholdKey => ThresholdKey.Fits
  | thresholdSignature => ThresholdSignature.Made
  | identifier => fun name => TextFits name.text
  | structTag => StructTag.Fits
  | typeTag => TypeTag.Fits
  | argument => Argument.Fits
  | script => Script.Fits
  | module => Module.Fits
  | accessPath => AccessPath.Fits
  | writeOp => WriteOp.Fits
  | writeSet => WriteSet.Fits
  | changeSet => ChangeSet.Fits
  | writeSetPayload => WriteSetPayload.Fits
  | event => Event.Fits
  | travelRule => TravelRule.Fits
  | unstructured => Unstructured.Fits
  | metadata => Metadata.Fits
  | authenticator => Authenticator.Fits
  | payload => Payload.Fits
  | rawTransaction => RawTransaction.Fits
  | signedTransaction => SignedTransaction.Fits
  | blockMetadata => BlockMetadata.Fits
  | transaction => Transaction.Fits
  | list element => ListFits element.Fits
  | option element => OptionFits element.Fits
  | boxed content => content.Fits
  | pair first second => fun v => first.Fits v.1 ∧ second.Fits v.2
  | _ => fun _ => True

end Schema

end LedgerClient
