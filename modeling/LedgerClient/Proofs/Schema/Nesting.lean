import LedgerClient.Proofs.Schema.Lawful
import LedgerClient.Proofs.TypeTag.Nesting

/-!
# How deep the types in a value may be nested

Types stand in scripts and events, and so in transactions. `Schema.places` lists them for a value of
any schema, each with the level at which its reader starts: it starts anew for every type, and the
parameters of a struct type that is read on its own are one level down. Values that satisfy every
other limit (`Schema.Bounded`) are read back exactly if no type in them goes below the deepest level
from where it starts, and are refused as nested too deep otherwise (`types_are_read_to_the_limit`).
-/

set_option autoImplicit false

namespace LedgerClient

open Codec (CountFits ListFits OptionFits TextFits lawful_u8 lawful_u64 lawful_bytes lawful_bare
  lawful_framed lawful_text)

/-! ## Values within the other limits -/

/-- A type in a value. -/
structure TypeTag.Place where
  /-- The level at which its reader starts. -/
  level : Nat
  tag : TypeTag

/-- The type does not go below the deepest level. -/
def TypeTag.Place.Within (place : TypeTag.Place) : Prop :=
  place.level + place.tag.depth ≤ maxTagDepth

instance (place : TypeTag.Place) : Decidable place.Within :=
  inferInstanceAs (Decidable (_ ≤ _))

/-- Types that stand side by side and whose readers start anew. -/
def TypeTag.outermost (tags : List TypeTag) : List TypeTag.Place := tags.map fun tag => ⟨0, tag⟩

/-- The parameters of a struct type stand one level down. -/
def StructTag.places (s : StructTag) : List TypeTag.Place :=
  s.typeParams.map fun param => ⟨1, param⟩

def Script.Bounded (s : Script) : Prop :=
  CountFits s.code.length ∧ ListFits TypeTag.Bounded s.typeArgs ∧ ListFits Argument.Fits s.args

def Event.Bounded (e : Event) : Prop := e.typeTag.Bounded ∧ CountFits e.data.length

def ChangeSet.Bounded (c : ChangeSet) : Prop :=
  c.writeSet.Fits ∧ ListFits Event.Bounded c.events

def ChangeSet.tags (c : ChangeSet) : List TypeTag := c.events.map Event.typeTag

def WriteSetPayload.Bounded : WriteSetPayload → Prop
  | direct changes => changes.Bounded
  | script _ s => s.Bounded

def WriteSetPayload.tags : WriteSetPayload → List TypeTag
  | direct changes => changes.tags
  | script _ s => s.typeArgs

def Payload.Bounded : Payload → Prop
  | writeSet payload => payload.Bounded
  | script s => s.Bounded
  | publish code => code.Fits

def Payload.tags : Payload → List TypeTag
  | writeSet payload => payload.tags
  | script s => s.typeArgs
  | publish _ => []

def RawTransaction.Bounded (t : RawTransaction) : Prop :=
  t.payload.Bounded ∧ TextFits t.gasCurrency

def SignedTransaction.Bounded (t : SignedTransaction) : Prop :=
  t.raw.Bounded ∧ t.authenticator.Fits

def Transaction.Bounded : Transaction → Prop
  | user signed => signed.Bounded
  | genesis payload => payload.Bounded
  | blockMetadata block => block.Fits

def Transaction.tags : Transaction → List TypeTag
  | user signed => signed.raw.payload.tags
  | genesis payload => payload.tags
  | blockMetadata _ => []

namespace Schema

/-- The values that can be read, but for the nesting of the types in them. -/
def Bounded : (s : Schema) → s.Value → Prop
  | structTag => StructTag.Bounded
  | typeTag => TypeTag.Bounded
  | script => Script.Bounded
  | changeSet => ChangeSet.Bounded
  | writeSetPayload => WriteSetPayload.Bounded
  | event => Event.Bounded
  | payload => Payload.Bounded
  | rawTransaction => RawTransaction.Bounded
  | signedTransaction => SignedTransaction.Bounded
  | transaction => Transaction.Bounded
  | list element => ListFits element.Bounded
  | option element => OptionFits element.Bounded
  | boxed content => content.Bounded
  | pair first second => fun v => first.Bounded v.1 ∧ second.Bounded v.2
  | s => s.Fits

/-- The types in a value. -/
def places : (s : Schema) → s.Value → List TypeTag.Place
  | structTag => StructTag.places
  | typeTag => fun (tag : TypeTag) => TypeTag.outermost [tag]
  | script => fun (s : Script) => TypeTag.outermost s.typeArgs
  | changeSet => fun (c : ChangeSet) => TypeTag.outermost c.tags
  | writeSetPayload => fun (p : WriteSetPayload) => TypeTag.outermost p.tags
  | event => fun (e : Event) => TypeTag.outermost [e.typeTag]
  | payload => fun (p : Payload) => TypeTag.outermost p.tags
  | rawTransaction => fun (t : RawTransaction) => TypeTag.outermost t.payload.tags
  | signedTransaction => fun (t : SignedTransaction) => TypeTag.outermost t.raw.payload.tags
  | transaction => fun (t : Transaction) => TypeTag.outermost t.tags
  | list element => fun (vs : List element.Value) => vs.flatMap element.places
  | option element => fun (o : Option element.Value) => o.toList.flatMap element.places
  | boxed content => content.places
  | pair first second => fun v => first.places v.1 ++ second.places v.2
  | _ => fun _ => []

end Schema

/-! ## The types that decide -/

@[simp] theorem TypeTag.forall_outermost_iff {tags : List TypeTag} :
    (∀ place ∈ outermost tags, place.Within) ↔ ∀ tag ∈ tags, tag.depth ≤ maxTagDepth := by
  simp [outermost, Place.Within]

/-- An option fits when its value, if there is one, is within the other limits and within this. -/
theorem Codec.optionFits_iff {α : Type} {Fits Bounded Within : α → Prop}
    (iff : ∀ v, Fits v ↔ Bounded v ∧ Within v) {o : Option α} :
    OptionFits Fits o ↔ OptionFits Bounded o ∧ ∀ v ∈ o.toList, Within v := by
  cases o <;> simp [OptionFits, iff]

theorem TypeTag.fits_iff {tag : TypeTag} :
    tag.Fits ↔ tag.Bounded ∧ tag.depth ≤ maxTagDepth := and_comm

/-- A list fits when it is within the other limits and each of its values is within this one. -/
theorem Codec.listFits_iff {α : Type} {Fits Bounded Within : α → Prop}
    (iff : ∀ v, Fits v ↔ Bounded v ∧ Within v) {vs : List α} :
    ListFits Fits vs ↔ ListFits Bounded vs ∧ ∀ v ∈ vs, Within v := by
  simp only [ListFits, iff, forall_and, and_assoc]

theorem StructTag.fits_iff {s : StructTag} :
    s.Fits ↔ s.Bounded ∧ ∀ place ∈ s.places, place.Within := by
  rw [Fits, Codec.listFits_iff fun tag => and_comm, Bounded, places, List.forall_mem_map, and_assoc,
    and_assoc]
  rfl

theorem Script.fits_iff {s : Script} :
    s.Fits ↔ s.Bounded ∧ ∀ tag ∈ s.typeArgs, tag.depth ≤ maxTagDepth := by
  rw [Fits, Codec.listFits_iff fun tag => TypeTag.fits_iff, Bounded]
  constructor
  · rintro ⟨code, ⟨bounded, shallow⟩, args⟩
    exact ⟨⟨code, bounded, args⟩, shallow⟩
  · rintro ⟨⟨code, bounded, args⟩, shallow⟩
    exact ⟨code, ⟨bounded, shallow⟩, args⟩

theorem Event.fits_iff {e : Event} : e.Fits ↔ e.Bounded ∧ e.typeTag.depth ≤ maxTagDepth := by
  rw [Fits, Bounded, TypeTag.Fits, and_comm (a := _ ≤ _), and_right_comm]

theorem ChangeSet.fits_iff {c : ChangeSet} :
    c.Fits ↔ c.Bounded ∧ ∀ tag ∈ c.tags, tag.depth ≤ maxTagDepth := by
  rw [Fits, Codec.listFits_iff fun e => Event.fits_iff, Bounded, tags, List.forall_mem_map,
    and_assoc]

theorem WriteSetPayload.fits_iff {p : WriteSetPayload} :
    p.Fits ↔ p.Bounded ∧ ∀ tag ∈ p.tags, tag.depth ≤ maxTagDepth := by
  cases p with
  | direct changes => exact ChangeSet.fits_iff
  | script executeAs s => exact Script.fits_iff

theorem Payload.fits_iff {p : Payload} :
    p.Fits ↔ p.Bounded ∧ ∀ tag ∈ p.tags, tag.depth ≤ maxTagDepth := by
  cases p with
  | writeSet payload => exact WriteSetPayload.fits_iff
  | script s => exact Script.fits_iff
  | publish code => exact (and_iff_left nofun).symm

theorem RawTransaction.fits_iff {t : RawTransaction} :
    t.Fits ↔ t.Bounded ∧ ∀ tag ∈ t.payload.tags, tag.depth ≤ maxTagDepth := by
  rw [Fits, Bounded, Payload.fits_iff, and_right_comm]

theorem SignedTransaction.fits_iff {t : SignedTransaction} :
    t.Fits ↔ t.Bounded ∧ ∀ tag ∈ t.raw.payload.tags, tag.depth ≤ maxTagDepth := by
  rw [Fits, Bounded, RawTransaction.fits_iff, and_right_comm]

theorem Transaction.fits_iff {t : Transaction} :
    t.Fits ↔ t.Bounded ∧ ∀ tag ∈ t.tags, tag.depth ≤ maxTagDepth := by
  cases t with
  | user signed => exact SignedTransaction.fits_iff
  | genesis payload => exact WriteSetPayload.fits_iff
  | blockMetadata block => exact (and_iff_left nofun).symm

/-- The values that can be read are those that satisfy the other limits and hold no type that is
nested too deep. -/
theorem Schema.fits_iff (s : Schema) (v : s.Value) :
    s.Fits v ↔ s.Bounded v ∧ ∀ place ∈ s.places v, place.Within := by
  have placed : ∀ {Fits Bounded : Prop} {tags : List TypeTag},
      (Fits ↔ Bounded ∧ ∀ tag ∈ tags, tag.depth ≤ maxTagDepth) →
        (Fits ↔ Bounded ∧ ∀ place ∈ TypeTag.outermost tags, place.Within) :=
    fun iff => iff.trans (and_congr_right' TypeTag.forall_outermost_iff.symm)
  have alone : ∀ {tag : TypeTag},
      (∀ other ∈ [tag], other.depth ≤ maxTagDepth) ↔ tag.depth ≤ maxTagDepth :=
    List.forall_mem_singleton
  induction s with
  | structTag => exact StructTag.fits_iff
  | typeTag => exact placed (TypeTag.fits_iff.trans (and_congr_right' alone.symm))
  | event => exact placed (Event.fits_iff.trans (and_congr_right' alone.symm))
  | script => exact placed Script.fits_iff
  | changeSet => exact placed ChangeSet.fits_iff
  | writeSetPayload => exact placed WriteSetPayload.fits_iff
  | payload => exact placed Payload.fits_iff
  | rawTransaction => exact placed RawTransaction.fits_iff
  | signedTransaction => exact placed SignedTransaction.fits_iff
  | transaction => exact placed Transaction.fits_iff
  | list element ih =>
    refine (Codec.listFits_iff ih).trans (and_congr_right' ?_)
    exact List.forall_mem_flatMap.symm
  | option element ih =>
    refine (Codec.optionFits_iff ih).trans (and_congr_right' ?_)
    exact List.forall_mem_flatMap.symm
  | boxed content ih => exact ih v
  | pair first second ih₁ ih₂ =>
    refine (and_congr (ih₁ v.1) (ih₂ v.2)).trans (and_and_and_comm.trans (and_congr_right' ?_))
    exact List.forall_mem_append.symm
  | _ => exact (and_iff_left nofun).symm

/-! ## What is refused -/

open Codec (Refuses Sorts)

theorem Script.refuses_codec : codec.Refuses .tagTooDeep Bounded Fits := by
  have tags := TypeTag.lawful_codec.list
  have args := Argument.lawful_codec.list
  have typeArgs := TypeTag.refuses_codec.list TypeTag.lawful_codec
  exact .via (.behind lawful_bytes (tags.appends.pair args.appends) (.before tags args typeArgs))

theorem Event.refuses_codec : codec.Refuses .tagTooDeep Bounded Fits := by
  have key := lawful_framed .eventKey (by decide)
  have tagged := TypeTag.lawful_codec.appends.pair lawful_bytes.appends
  have body : Event.body.Refuses .tagTooDeep Bounded Fits := by
    have parts := Refuses.behind key (lawful_u64.appends.pair tagged)
      (.behind lawful_u64 tagged (.before TypeTag.lawful_codec lawful_bytes TypeTag.refuses_codec))
    exact parts.via.congr (fun _ bounded => ⟨trivial, trivial, bounded⟩) fun _ fits => fits.2.2
  have sorts : Sorts [{ content := Event.body, build := id, open? := some }] :=
    .only (fun e => ⟨e, rfl⟩) fun _ => rfl
  exact .union sorts (List.forall_mem_singleton.2 ⟨lawful_body.appends, body⟩)

theorem ChangeSet.refuses_codec : codec.Refuses .tagTooDeep Bounded Fits := by
  have events := Event.refuses_codec.list Event.lawful_codec
  exact .via (.behind WriteSet.lawful_codec Event.lawful_codec.list.appends events)

theorem WriteSetPayload.refuses_codec : codec.Refuses .tagTooDeep Bounded Fits := by
  have scripts := Refuses.behind (lawful_bare .address) Script.lawful_codec.appends
    Script.refuses_codec
  have appends := (lawful_bare .address).appends.pair Script.lawful_codec.appends
  refine .union sorts_cases ?_
  simp only [cases, List.forall_mem_cons]
  exact ⟨⟨ChangeSet.lawful_codec.appends, ChangeSet.refuses_codec⟩,
    ⟨appends, scripts.congr (fun _ => And.intro trivial) fun _ => And.right⟩,
    List.forall_mem_nil _⟩

theorem Payload.refuses_codec : codec.Refuses .tagTooDeep Bounded Fits := by
  refine .union sorts_cases ?_
  simp only [cases, List.forall_mem_cons]
  exact ⟨⟨WriteSetPayload.lawful_codec.appends, WriteSetPayload.refuses_codec⟩,
    ⟨Script.lawful_codec.appends, Script.refuses_codec⟩,
    ⟨Module.lawful_codec.appends, .none⟩, List.forall_mem_nil _⟩

theorem RawTransaction.refuses_codec : codec.Refuses .tagTooDeep Bounded Fits := by
  have limits := lawful_u64.pair <| lawful_u64.pair <| lawful_text.pair <|
    lawful_u64.pair lawful_u8
  have rest := Payload.lawful_codec.pair limits
  have parts := Refuses.behind (lawful_bare .address) (lawful_u64.pair rest).appends
    (.behind lawful_u64 rest.appends (.before Payload.lawful_codec limits Payload.refuses_codec))
  refine parts.via.congr ?_ ?_
  · rintro t ⟨payload, currency⟩
    exact ⟨trivial, trivial, payload, trivial, trivial, currency, trivial, trivial⟩
  · rintro t ⟨-, -, payload, -, -, currency, -⟩
    exact ⟨payload, currency⟩

theorem SignedTransaction.refuses_codec : codec.Refuses .tagTooDeep Bounded Fits :=
  .via (.before RawTransaction.lawful_codec Authenticator.lawful_codec
    RawTransaction.refuses_codec)

theorem Transaction.refuses_codec : codec.Refuses .tagTooDeep Bounded Fits := by
  refine .union sorts_cases ?_
  simp only [cases, List.forall_mem_cons]
  exact ⟨⟨SignedTransaction.lawful_codec.appends, SignedTransaction.refuses_codec⟩,
    ⟨WriteSetPayload.lawful_codec.appends, WriteSetPayload.refuses_codec⟩,
    ⟨BlockMetadata.lawful_codec.appends, .none⟩, List.forall_mem_nil _⟩

namespace Schema

/-- Values that satisfy the other limits are refused for the nesting of their types only. -/
theorem refuses_codec (s : Schema) : s.codec.Refuses .tagTooDeep s.Bounded s.Fits := by
  induction s with
  | structTag => exact StructTag.refuses_codec
  | typeTag => exact TypeTag.refuses_codec
  | script => exact Script.refuses_codec
  | changeSet => exact ChangeSet.refuses_codec
  | writeSetPayload => exact WriteSetPayload.refuses_codec
  | event => exact Event.refuses_codec
  | payload => exact Payload.refuses_codec
  | rawTransaction => exact RawTransaction.refuses_codec
  | signedTransaction => exact SignedTransaction.refuses_codec
  | transaction => exact Transaction.refuses_codec
  | list element ih => exact ih.list element.lawful_codec
  | option element ih => exact ih.option element.lawful_codec.appends
  | boxed content ih => exact ih
  | pair first second ih₁ ih₂ =>
    exact .pair first.lawful_codec second.lawful_codec.appends ih₁ ih₂
  | _ => exact .none

/-- The form of a value within the other limits is decoded to the value or refused, as the types in
the value say. -/
theorem decode_write_of_bounded (s : Schema) {v : s.Value} (bounded : s.Bounded v) :
    s.decode (s.write v) =
      if ∀ place ∈ s.places v, place.Within then .ok v else .error .tagTooDeep := by
  by_cases within : ∀ place ∈ s.places v, place.Within
  · rw [if_pos within]
    exact s.lawful_codec.decode_write ((s.fits_iff v).2 ⟨bounded, within⟩)
  · rw [if_neg within]
    have beyond : ¬ s.Fits v := fun fits => within ((s.fits_iff v).1 fits).2
    exact s.refuses_codec.decode bounded beyond

/-- The limit is exact. A type is read back from its form when its depth is at most the limit, and
is refused for its nesting otherwise. A struct type on its own is read back when its parameters,
one level down, are within the limit. And a value of any schema is read back when each of the types
in it, counted from the level at which its own reader starts, is within the limit. -/
theorem types_are_read_to_the_limit :
    (∀ tag : TypeTag, tag.Bounded →
        typeTag.decode (typeTag.write tag) =
          if tag.depth ≤ maxTagDepth then .ok tag else .error .tagTooDeep)
      ∧ (∀ s : StructTag, s.Bounded →
        structTag.decode (structTag.write s) =
          if ∀ param ∈ s.typeParams, 1 + param.depth ≤ maxTagDepth then .ok s
          else .error .tagTooDeep)
      ∧ (∀ (s : Schema) (v : s.Value), s.Bounded v →
        s.decode (s.write v) =
          if ∀ place ∈ s.places v, place.level + place.tag.depth ≤ maxTagDepth then .ok v
          else .error .tagTooDeep)
      ∧ DataError.tagTooDeep.message = "invalid type tag: nesting deeper than 64" := by
  refine ⟨fun tag bounded => ?_, fun s bounded => ?_, fun s v => s.decode_write_of_bounded, ?_⟩
  · have alone : (∀ place ∈ typeTag.places tag, place.Within) ↔ tag.depth ≤ maxTagDepth :=
      TypeTag.forall_outermost_iff.trans List.forall_mem_singleton
    simp only [typeTag.decode_write_of_bounded bounded, alone]
  · have params : (∀ place ∈ structTag.places s, place.Within) ↔
        ∀ param ∈ s.typeParams, 1 + param.depth ≤ maxTagDepth := List.forall_mem_map
    simp only [structTag.decode_write_of_bounded bounded, params]
  · rfl

namespace Sample

def coin : Identifier := ⟨"Coin", by decide⟩

/-- A struct type of two parameters. -/
def exchange (given wanted : TypeTag) : StructTag := ⟨.one, coin, coin, [given, wanted]⟩

/-- A struct type in a struct type, nested as deep as it may be: two levels for each of them, and
the vectors in the inner one. -/
def deepest : TypeTag := .ofStruct (exchange .bool (.ofStruct (exchange (.nest 60 .u8) .signer)))

/-- An event of a type that is one level deeper. -/
def event : Event := ⟨.zero .eventKey, 0, .vector deepest, []⟩

theorem bounded_nest (n : Nat) : (TypeTag.nest n .u8).Bounded := by
  induction n with
  | zero => trivial
  | succ n ih => exact ih

theorem bounded_exchange {a b : TypeTag} (ha : a.Bounded) (hb : b.Bounded) :
    (exchange a b).Bounded := by
  have name : TextFits coin.text := by decide
  have count : CountFits 2 := by decide
  exact ⟨name, name, count, List.forall_mem_cons.2 ⟨ha, List.forall_mem_singleton.2 hb⟩⟩

theorem bounded_deepest : deepest.Bounded := by
  have inner := StructTag.bounded_iff.2 (bounded_exchange (bounded_nest 60) (b := .signer) trivial)
  exact StructTag.bounded_iff.2 (bounded_exchange (a := .bool) trivial inner)

theorem bounded_event : event.Bounded := ⟨bounded_deepest, (by decide : CountFits 0)⟩

end Sample

/-- The deepest type that is read is too deep as the parameter of a struct type on its own, and in
an event one more vector around it is too many. -/
theorem deepest_type_is_read :
    typeTag.decode (typeTag.write Sample.deepest) = .ok Sample.deepest ∧
      structTag.decode (structTag.write (Sample.exchange .u8 Sample.deepest)) =
        .error .tagTooDeep ∧
      (list event).decode ((list event).write [Sample.event]) = .error .tagTooDeep := by
  obtain ⟨types, structs, values, -⟩ := types_are_read_to_the_limit
  have parameter := Sample.bounded_exchange (a := .u8) trivial Sample.bounded_deepest
  have events : (list event).Bounded [Sample.event] :=
    ⟨(by decide : CountFits 1), List.forall_mem_singleton.2 Sample.bounded_event⟩
  refine ⟨?_, ?_, ?_⟩
  · rw [types _ Sample.bounded_deepest, if_pos (by decide)]
  · rw [structs _ parameter, if_neg (by decide)]
  · rw [values _ _ events, if_neg (by decide)]

end Schema

end LedgerClient
