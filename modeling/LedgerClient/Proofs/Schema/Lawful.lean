import LedgerClient.Proofs.Schema.Fits

/-!
# Every schema is lawful

The codec of each type is put together from those of its parts, and so is the proof that it obeys
the laws: `via` for a structure, `union` for alternatives. Schemas are then lawful by induction.
-/

set_option autoImplicit false

namespace LedgerClient

open Codec (CountFits ListFits Sorts Lawful lawful_unit lawful_u8 lawful_u64 lawful_u128 lawful_bool
  lawful_bytes lawful_bare lawful_framed lawful_text)

theorem ThresholdKey.lawful_codec_fits : ThresholdKey.codec.Lawful ThresholdKey.Fits :=
  ThresholdKey.lawful_codec.congr fun _ => and_congr_left' ThresholdKey.made_iff.symm

theorem ThresholdSignature.lawful_codec_made :
    ThresholdSignature.codec.Lawful ThresholdSignature.Made :=
  ThresholdSignature.lawful_codec.congr fun _ => ThresholdSignature.made_iff.symm

/-! ## Scripts -/

theorem Argument.sorts_cases : Sorts Argument.cases where
  few := (by decide : CountFits 6)
  covers
    | u8 v => ⟨0, _, v, rfl, rfl⟩
    | u64 v => ⟨1, _, v, rfl, rfl⟩
    | u128 v => ⟨2, _, v, rfl, rfl⟩
    | address v => ⟨3, _, v, rfl, rfl⟩
    | u8vector v => ⟨4, _, v, rfl, rfl⟩
    | bool v => ⟨5, _, v, rfl, rfl⟩
  opens := by simp [cases]
  apart := by simp [cases]

theorem Argument.lawful_codec : Argument.codec.Lawful Argument.Fits := by
  refine .union sorts_cases ?_
  simp only [cases, List.forall_mem_cons]
  exact ⟨lawful_u8, lawful_u64, lawful_u128, lawful_bare _, lawful_bytes, lawful_bool, nofun⟩

theorem Script.lawful_codec : Script.codec.Lawful Script.Fits :=
  (lawful_bytes.pair (TypeTag.lawful_codec.list.pair Argument.lawful_codec.list)).via
    (fun _ => rfl) (fun _ => rfl)

theorem Module.lawful_codec : Module.codec.Lawful Module.Fits :=
  lawful_bytes.via (fun _ => rfl) (fun _ => rfl)

/-! ## Events and write sets -/

namespace Event

theorem lawful_body : body.Lawful Fits := by
  have key := lawful_framed .eventKey (by decide)
  have parts := key.pair (lawful_u64.pair (TypeTag.lawful_codec.pair lawful_bytes))
  refine parts.via_congr (fun _ => rfl) (fun _ => rfl) fun _ => ?_
  exact ⟨fun fits => fits.2.2, fun fits => ⟨trivial, trivial, fits⟩⟩

theorem lawful_codec : codec.Lawful Fits :=
  .only (fun e => ⟨e, rfl⟩) (fun _ => rfl) lawful_body

end Event

theorem AccessPath.lawful_codec : AccessPath.codec.Lawful AccessPath.Fits := by
  have parts := (lawful_bare .address).pair lawful_bytes
  exact parts.via_congr (fun _ => rfl) (fun _ => rfl) fun _ => ⟨And.right, And.intro trivial⟩

namespace WriteOp

theorem sorts_cases : Sorts cases where
  few := (by decide : CountFits 2)
  covers
    | deletion => ⟨0, _, (), rfl, rfl⟩
    | value data => ⟨1, _, data, rfl, rfl⟩
  opens := by simp [cases]
  apart := by simp [cases]

theorem lawful_codec : codec.Lawful Fits := by
  refine .union sorts_cases ?_
  simp only [cases, List.forall_mem_cons]
  exact ⟨lawful_unit trivial, lawful_bytes, nofun⟩

end WriteOp

theorem WriteSet.lawful_codec : WriteSet.codec.Lawful WriteSet.Fits :=
  (AccessPath.lawful_codec.pair WriteOp.lawful_codec).list.via (fun _ => rfl) (fun _ => rfl)

theorem ChangeSet.lawful_codec : ChangeSet.codec.Lawful ChangeSet.Fits :=
  (WriteSet.lawful_codec.pair Event.lawful_codec.list).via (fun _ => rfl) (fun _ => rfl)

namespace WriteSetPayload

theorem sorts_cases : Sorts cases where
  few := (by decide : CountFits 2)
  covers
    | direct changes => ⟨0, _, changes, rfl, rfl⟩
    | script executeAs s => ⟨1, _, (executeAs, s), rfl, rfl⟩
  opens := by simp [cases]
  apart := by simp [cases]

theorem lawful_codec : codec.Lawful Fits := by
  have scripts := (lawful_bare .address).pair Script.lawful_codec
  refine .union sorts_cases ?_
  simp only [cases, List.forall_mem_cons]
  exact ⟨ChangeSet.lawful_codec, scripts.congr fun _ => ⟨And.right, And.intro trivial⟩, nofun⟩

end WriteSetPayload

/-! ## Metadata -/

namespace Routing

theorem lawful_body : body.Lawful fun _ => True := by
  have customer := (lawful_framed .subaddress (by decide)).option
  have parts := customer.pair (customer.pair lawful_u64.option)
  refine parts.via_congr (fun _ => rfl) (fun _ => rfl) fun _ => ?_
  exact iff_of_true ⟨fun _ _ => trivial, fun _ _ => trivial, fun _ _ => trivial⟩ trivial

theorem lawful_codec : codec.Lawful fun _ => True :=
  .only (fun r => ⟨r, rfl⟩) (fun _ => rfl) lawful_body

end Routing

theorem TravelRule.lawful_codec : TravelRule.codec.Lawful TravelRule.Fits :=
  .only (fun r => ⟨r.reference, rfl⟩) (fun _ => rfl) lawful_text.option

/-- A list of bytes fits when it can be counted. -/
theorem Unstructured.lawful_codec : Unstructured.codec.Lawful Unstructured.Fits := by
  have content : Codec.u8.list.Lawful fun content => CountFits content.length :=
    lawful_u8.list.congr fun _ => and_iff_left fun _ _ => trivial
  exact content.option.via (fun _ => rfl) (fun _ => rfl)

namespace Metadata

theorem sorts_cases : Sorts cases where
  few := (by decide : CountFits 4)
  covers
    | undefined => ⟨0, _, (), rfl, rfl⟩
    | general routing => ⟨1, _, routing, rfl, rfl⟩
    | travelRule rule => ⟨2, _, rule, rfl, rfl⟩
    | unstructured body => ⟨3, _, body, rfl, rfl⟩
  opens := by simp [cases]
  apart := by simp [cases]

theorem lawful_codec : codec.Lawful Fits := by
  refine .union sorts_cases ?_
  simp only [cases, List.forall_mem_cons]
  exact ⟨lawful_unit trivial, Routing.lawful_codec, TravelRule.lawful_codec,
    Unstructured.lawful_codec, nofun⟩

end Metadata

/-! ## Transactions -/

namespace Authenticator

theorem sorts_cases : Sorts cases where
  few := (by decide : CountFits 2)
  covers
    | single key signature => ⟨0, _, (key, signature), rfl, rfl⟩
    | threshold key signature => ⟨1, _, (key, signature), rfl, rfl⟩
  opens := by simp [cases]
  apart := by simp [cases]

theorem lawful_codec : codec.Lawful Fits := by
  have single := PublicKey.lawful_codec.pair (lawful_framed .signature (by decide))
  have threshold := ThresholdKey.lawful_codec_fits.pair ThresholdSignature.lawful_codec_made
  refine .union sorts_cases ?_
  simp only [cases, List.forall_mem_cons]
  exact ⟨single.congr fun _ => and_iff_left trivial, threshold, nofun⟩

end Authenticator

namespace Payload

theorem sorts_cases : Sorts cases where
  few := (by decide : CountFits 3)
  covers
    | writeSet payload => ⟨0, _, payload, rfl, rfl⟩
    | script s => ⟨1, _, s, rfl, rfl⟩
    | publish code => ⟨2, _, code, rfl, rfl⟩
  opens := by simp [cases]
  apart := by simp [cases]

theorem lawful_codec : codec.Lawful Fits := by
  refine .union sorts_cases ?_
  simp only [cases, List.forall_mem_cons]
  exact ⟨WriteSetPayload.lawful_codec, Script.lawful_codec, Module.lawful_codec, nofun⟩

end Payload

theorem RawTransaction.lawful_codec : RawTransaction.codec.Lawful RawTransaction.Fits := by
  have parts := (lawful_bare .address).pair <| lawful_u64.pair <| Payload.lawful_codec.pair <|
    lawful_u64.pair <| lawful_u64.pair <| lawful_text.pair <| lawful_u64.pair lawful_u8
  refine parts.via_congr (fun _ => rfl) (fun _ => rfl) fun t => ?_
  constructor
  · rintro ⟨-, -, payload, -, -, currency, -⟩
    exact ⟨payload, currency⟩
  · rintro ⟨payload, currency⟩
    exact ⟨trivial, trivial, payload, trivial, trivial, currency, trivial, trivial⟩

theorem SignedTransaction.lawful_codec :
    SignedTransaction.codec.Lawful SignedTransaction.Fits :=
  (RawTransaction.lawful_codec.pair Authenticator.lawful_codec).via (fun _ => rfl) (fun _ => rfl)

theorem BlockMetadata.lawful_codec : BlockMetadata.codec.Lawful BlockMetadata.Fits := by
  have parts := (lawful_framed .digest (by decide)).pair <| lawful_u64.pair <| lawful_u64.pair <|
    (lawful_bare .address).list.pair (lawful_bare .address)
  refine parts.via_congr (fun _ => rfl) (fun _ => rfl) fun b => ?_
  constructor
  · rintro ⟨-, -, -, votes, -⟩
    exact votes.1
  · intro votes
    exact ⟨trivial, trivial, trivial, ⟨votes, fun _ _ => trivial⟩, trivial⟩

namespace Transaction

theorem sorts_cases : Sorts cases where
  few := (by decide : CountFits 3)
  covers
    | user signed => ⟨0, _, signed, rfl, rfl⟩
    | genesis payload => ⟨1, _, payload, rfl, rfl⟩
    | blockMetadata block => ⟨2, _, block, rfl, rfl⟩
  opens := by simp [cases]
  apart := by simp [cases]

theorem lawful_codec : codec.Lawful Fits := by
  refine .union sorts_cases ?_
  simp only [cases, List.forall_mem_cons]
  exact ⟨SignedTransaction.lawful_codec, WriteSetPayload.lawful_codec, BlockMetadata.lawful_codec,
    nofun⟩

end Transaction

/-- Every schema has a lawful codec, relative to its values that fit. -/
theorem Schema.lawful_codec (s : Schema) : s.codec.Lawful s.Fits := by
  induction s with
  | u8 => exact lawful_u8
  | u16 => exact Codec.lawful_u16
  | u32 => exact Codec.lawful_u32
  | u64 => exact lawful_u64
  | u128 => exact lawful_u128
  | bool => exact lawful_bool
  | text => exact lawful_text
  | plain count => exact lawful_bare _
  | address => exact lawful_bare _
  | digest => exact lawful_framed _ (by decide)
  | subaddress => exact lawful_framed _ (by decide)
  | eventKey => exact lawful_framed _ (by decide)
  | publicKey => exact PublicKey.lawful_codec
  | signature => exact lawful_framed _ (by decide)
  | thresholdKey => exact ThresholdKey.lawful_codec_fits
  | thresholdSignature => exact ThresholdSignature.lawful_codec_made
  | identifier => exact Identifier.lawful_codec
  | structTag => exact StructTag.lawful_codec
  | typeTag => exact TypeTag.lawful_codec
  | argument => exact Argument.lawful_codec
  | script => exact Script.lawful_codec
  | module => exact Module.lawful_codec
  | accessPath => exact AccessPath.lawful_codec
  | writeOp => exact WriteOp.lawful_codec
  | writeSet => exact WriteSet.lawful_codec
  | changeSet => exact ChangeSet.lawful_codec
  | writeSetPayload => exact WriteSetPayload.lawful_codec
  | event => exact Event.lawful_codec
  | routingBody => exact Routing.lawful_body
  | routing => exact Routing.lawful_codec
  | travelRule => exact TravelRule.lawful_codec
  | unstructured => exact Unstructured.lawful_codec
  | metadata => exact Metadata.lawful_codec
  | authenticator => exact Authenticator.lawful_codec
  | payload => exact Payload.lawful_codec
  | rawTransaction => exact RawTransaction.lawful_codec
  | signedTransaction => exact SignedTransaction.lawful_codec
  | blockMetadata => exact BlockMetadata.lawful_codec
  | transaction => exact Transaction.lawful_codec
  | list element ih => exact ih.list
  | option element ih => exact ih.option
  | boxed content ih => exact ih
  | pair first second ih₁ ih₂ => exact ih₁.pair ih₂

end LedgerClient
