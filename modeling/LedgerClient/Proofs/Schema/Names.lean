import LedgerClient.Proofs.Schema.Nesting
import LedgerClient.Proofs.Schema.RoundTrip
import LedgerClient.Proofs.TypeTag.Spelling

/-!
# The names in a value

Names stand in types, and types in scripts, events and transactions. `Schema.names` lists the names in a
value of any schema. The form of each of them is a part of the form of the value (`Schema.shows`), and
so what is read as a value has in it the texts of all its names, each with its length in front and each
spelled as a name (`names_are_spelled`).
-/

set_option autoImplicit false

namespace LedgerClient

mutual

/-- The names in a type. -/
def TypeTag.names : TypeTag → List Identifier
  | .vector element => element.names
  | .struct _ moduleName name params => moduleName :: name :: TypeTag.namesEach params
  | _ => []

/-- The names in several types. -/
def TypeTag.namesEach : List TypeTag → List Identifier
  | [] => []
  | tag :: rest => tag.names ++ TypeTag.namesEach rest

end

/-- The names in a struct type. -/
def StructTag.names (s : StructTag) : List Identifier :=
  s.moduleName :: s.name :: TypeTag.namesEach s.typeParams

/-- The names in a value. -/
def Schema.names : (s : Schema) → s.Value → List Identifier
  | identifier => fun (name : Identifier) => [name]
  | structTag => StructTag.names
  | list element => fun (vs : List element.Value) => vs.flatMap element.names
  | option element => fun (o : Option element.Value) => o.toList.flatMap element.names
  | boxed content => content.names
  | pair first second => fun v => first.names v.1 ++ second.names v.2
  | s => fun v => TypeTag.namesEach ((s.places v).map TypeTag.Place.tag)

/-! ## Forms within forms -/

namespace Codec

variable {α β : Type} {c : Codec α} {d : Codec β} {names : List Identifier}

/-- The form of each of the names is a part of the form of the value. -/
def Shows (c : Codec α) (v : α) (names : List Identifier) : Prop :=
  ∀ name ∈ names, Identifier.codec.write name <:+: c.write v

namespace Shows

theorem nil {v : α} : c.Shows v [] := nofun

/-- It depends on the writer only. -/
theorem of_push {c' : Codec α} {v : α} (h : c.Shows v names) (push : c.push = c'.push) :
    c'.Shows v names := by
  have write : c.write v = c'.write v := by
    rw [Codec.write, Codec.write, push]
  intro name mem
  rw [← write]
  exact h name mem

theorem name (name : Identifier) : Identifier.codec.Shows name [name] :=
  List.forall_mem_singleton.2 List.infix_rfl

theorem via {build : α → β} {forget : β → α} {v : β} (h : c.Shows (forget v) names) :
    (c.via build forget).Shows v names := h

theorem fst {v : α × β} (hc : c.Appends) (hd : d.Appends) (h : c.Shows v.1 names) :
    (c.pair d).Shows v names := by
  intro name mem
  rw [write_pair hc hd]
  exact (h name mem).trans (List.prefix_append _ _).isInfix

theorem snd {v : α × β} (hc : c.Appends) (hd : d.Appends) (h : d.Shows v.2 names) :
    (c.pair d).Shows v names := by
  intro name mem
  rw [write_pair hc hd]
  exact (h name mem).trans (List.suffix_append _ _).isInfix

theorem pair {v : α × β} {names' : List Identifier} (hc : c.Appends) (hd : d.Appends)
    (h : c.Shows v.1 names) (h' : d.Shows v.2 names') : (c.pair d).Shows v (names ++ names') := by
  intro name mem
  rcases List.mem_append.1 mem with left | right
  · exact fst hc hd h name left
  · exact snd hc hd h' name right

theorem some {v : α} (hc : c.Appends) (h : c.Shows v names) : c.option.Shows (some v) names := by
  intro name mem
  rw [write_option_some hc]
  exact (h name mem).trans (List.suffix_cons _ _).isInfix

theorem list {vs : List α} (hc : c.Appends) {names : α → List Identifier}
    (h : ∀ v ∈ vs, c.Shows v (names v)) : c.list.Shows vs (vs.flatMap names) := by
  intro name mem
  obtain ⟨v, among, mem⟩ := List.mem_flatMap.1 mem
  have shown := h v among name mem
  have value : c.write v <:+: vs.flatMap c.write := by
    obtain ⟨before, behind, rfl⟩ := List.append_of_mem among
    rw [List.flatMap_append, List.flatMap_cons]
    exact ⟨before.flatMap c.write, behind.flatMap c.write, List.append_assoc _ _ _⟩
  rw [write_list hc]
  exact (shown.trans value).trans (List.suffix_append _ _).isInfix

theorem build {cases : List (Case α)} {typeName : String} {case : Case α} (sorts : Sorts cases)
    (place : Nat) (found : cases[place]? = .some case) (content : case.Content)
    (appends : case.content.Appends) (h : case.content.Shows content names) :
    (union typeName cases).Shows (case.build content) names := by
  intro name mem
  rw [sorts.write_build found content appends]
  exact (h name mem).trans (List.suffix_append _ _).isInfix

end Shows

end Codec

open Codec (Shows)

/-! ## Types -/

@[simp] theorem TypeTag.namesEach_eq_flatMap (tags : List TypeTag) :
    namesEach tags = tags.flatMap names := by
  induction tags with
  | nil => rfl
  | cons tag tags ih => simp [namesEach, ih]

/-- A struct type shows its own names and those of its parameters. -/
theorem StructTag.shows {s : StructTag}
    (h : ∀ tag ∈ s.typeParams, TypeTag.codec.Shows tag tag.names) : codec.Shows s s.names := by
  have address := (Codec.lawful_bare .address).appends
  have name := Identifier.lawful_codec.appends
  have param := TypeTag.appends_within maxTagDepth
  have whole : codec = fields (TypeTag.within maxTagDepth) := within_eq_fields maxTagDepth
  have params := Shows.list param fun tag mem => (h tag mem).of_push rfl
  rw [whole, names, TypeTag.namesEach_eq_flatMap]
  apply Shows.via
  apply Shows.snd address (name.pair (name.pair param.list))
  exact .pair name (name.pair param.list) (.name _) (.pair name param.list (.name _) params)

namespace TypeTag

theorem shows_build (place : Nat) {case : Codec.Case TypeTag} {content : case.Content}
    {names : List Identifier} (found : (casesWithin maxTagDepth)[place]? = some case)
    (h : case.content.Shows content names) : codec.Shows (case.build content) names := by
  have union : codec = .union "TypeTag" (casesWithin maxTagDepth) := within_eq_union maxTagDepth
  have appends := appends_casesWithin maxTagDepth case (List.mem_of_getElem? found)
  rw [union]
  exact .build (sorts_cases _ _) place found content appends h

mutual

/-- A type shows its names, however deep the type is nested. -/
theorem shows : (tag : TypeTag) → codec.Shows tag tag.names
  | bool => .nil
  | u8 => .nil
  | u64 => .nil
  | u128 => .nil
  | address => .nil
  | signer => .nil
  | vector element => shows_build 6 rfl ((shows element).of_push rfl)
  | struct addr moduleName name params => by
    have content := StructTag.shows (s := ⟨addr, moduleName, name, params⟩) (shows_each params)
    exact shows_build 7 rfl (content.of_push rfl)

theorem shows_each : (tags : List TypeTag) → ∀ tag ∈ tags, codec.Shows tag tag.names
  | [] => nofun
  | tag :: rest => List.forall_mem_cons.2 ⟨shows tag, shows_each rest⟩

end

/-- Several types show the names in all of them. -/
theorem shows_list (tags : List TypeTag) : codec.list.Shows tags (namesEach tags) := by
  rw [namesEach_eq_flatMap]
  exact .list lawful_codec.appends fun tag _ => shows tag

@[simp] theorem map_tag_outermost (tags : List TypeTag) :
    (outermost tags).map Place.tag = tags := by
  rw [outermost, List.map_map]
  exact List.map_id tags

theorem shows_singleton (tag : TypeTag) : codec.Shows tag (namesEach [tag]) := by
  simpa using shows tag

end TypeTag

/-- The types that are listed with their places are the types that are listed. -/
theorem Codec.Shows.outermost {α : Type} {c : Codec α} {v : α} {tags : List TypeTag}
    (h : c.Shows v (TypeTag.namesEach tags)) :
    c.Shows v (TypeTag.namesEach ((TypeTag.outermost tags).map TypeTag.Place.tag)) := by
  simpa using h

/-! ## Values that hold types -/

theorem Script.shows (s : Script) : codec.Shows s (TypeTag.namesEach s.typeArgs) := by
  have code := Codec.appends_bytes
  have types := TypeTag.lawful_codec.appends.list
  have args := Argument.lawful_codec.appends.list
  apply Shows.via
  exact .snd code (types.pair args) (.fst types args (TypeTag.shows_list s.typeArgs))

theorem Event.shows (e : Event) : codec.Shows e (TypeTag.namesEach [e.typeTag]) := by
  have key := (Codec.lawful_framed .eventKey (by decide)).appends
  have number := Codec.lawful_u64.appends
  have type := TypeTag.lawful_codec.appends
  have data := Codec.appends_bytes
  have body : Event.body.Shows e (TypeTag.namesEach [e.typeTag]) := by
    apply Shows.via
    apply Shows.snd key (number.pair (type.pair data))
    exact .snd number (type.pair data) (.fst type data (TypeTag.shows_singleton e.typeTag))
  have sorts : Codec.Sorts [{ content := Event.body, build := id, open? := some }] :=
    .only (fun e => ⟨e, rfl⟩) fun _ => rfl
  exact .build sorts 0 rfl e lawful_body.appends body

theorem ChangeSet.shows (c : ChangeSet) : codec.Shows c (TypeTag.namesEach c.tags) := by
  have changes := WriteSet.lawful_codec.appends
  have event := Event.lawful_codec.appends
  have names : TypeTag.namesEach c.tags = c.events.flatMap fun e => e.typeTag.names := by
    simp [tags, List.flatMap_map]
  rw [names]
  apply Shows.via
  refine .snd changes event.list (.list event fun e _ => ?_)
  simpa using e.shows

theorem WriteSetPayload.shows (p : WriteSetPayload) :
    codec.Shows p (TypeTag.namesEach p.tags) := by
  have account := (Codec.lawful_bare .address).appends
  have script := Script.lawful_codec.appends
  cases p with
  | direct changes =>
    exact .build sorts_cases 0 rfl changes ChangeSet.lawful_codec.appends changes.shows
  | script executeAs s =>
    exact .build sorts_cases 1 rfl (executeAs, s) (account.pair script) (.snd account script s.shows)

theorem Payload.shows (p : Payload) : codec.Shows p (TypeTag.namesEach p.tags) := by
  cases p with
  | writeSet payload =>
    exact .build sorts_cases 0 rfl payload WriteSetPayload.lawful_codec.appends payload.shows
  | script s => exact .build sorts_cases 1 rfl s Script.lawful_codec.appends s.shows
  | publish code => exact .nil

theorem RawTransaction.shows (t : RawTransaction) :
    codec.Shows t (TypeTag.namesEach t.payload.tags) := by
  have account := (Codec.lawful_bare .address).appends
  have number := Codec.lawful_u64.appends
  have payload := Payload.lawful_codec.appends
  have limits := number.pair (number.pair
    (Codec.lawful_text.appends.pair (number.pair Codec.lawful_u8.appends)))
  apply Shows.via
  apply Shows.snd account (number.pair (payload.pair limits))
  exact .snd number (payload.pair limits) (.fst payload limits t.payload.shows)

theorem SignedTransaction.shows (t : SignedTransaction) :
    codec.Shows t (TypeTag.namesEach t.raw.payload.tags) := by
  apply Shows.via
  exact .fst RawTransaction.lawful_codec.appends Authenticator.lawful_codec.appends t.raw.shows

theorem Transaction.shows (t : Transaction) : codec.Shows t (TypeTag.namesEach t.tags) := by
  cases t with
  | user signed =>
    exact .build sorts_cases 0 rfl signed SignedTransaction.lawful_codec.appends signed.shows
  | genesis payload =>
    exact .build sorts_cases 1 rfl payload WriteSetPayload.lawful_codec.appends payload.shows
  | blockMetadata block => exact .nil

namespace Schema

/-- A value of any schema shows the names in it. -/
theorem shows (s : Schema) (v : s.Value) : s.codec.Shows v (s.names v) := by
  induction s with
  | identifier => exact .name v
  | structTag => exact StructTag.shows fun tag _ => tag.shows
  | typeTag => exact (TypeTag.shows_singleton v).outermost
  | script => exact (Script.shows v).outermost
  | changeSet => exact (ChangeSet.shows v).outermost
  | writeSetPayload => exact (WriteSetPayload.shows v).outermost
  | event => exact (Event.shows v).outermost
  | payload => exact (Payload.shows v).outermost
  | rawTransaction => exact (RawTransaction.shows v).outermost
  | signedTransaction => exact (SignedTransaction.shows v).outermost
  | transaction => exact (Transaction.shows v).outermost
  | list element ih => exact .list element.lawful_codec.appends fun v _ => ih v
  | option element ih =>
    cases v with
    | none => exact .nil
    | some v =>
      have shown := Shows.some element.lawful_codec.appends (ih v)
      rwa [← List.append_nil (element.names v)] at shown
  | boxed content ih => exact ih v
  | pair first second ih₁ ih₂ =>
    exact .pair first.lawful_codec.appends second.lawful_codec.appends (ih₁ v.1) (ih₂ v.2)
  | _ => exact .nil

/-- A text is made a name if and only if it is spelled as one, and then its form is read as that name
and not otherwise. The names in a value that is read, of any schema, are spelled as names; each stands
in the bytes that are read, as the form of its text. -/
theorem names_are_spelled :
    (∀ text : String, ((∃ name, Identifier.ofString text = .ok name) ↔
        Identifier.Spelled text.toList) ∧
      ∀ name, Identifier.ofString text = .ok name → name.text = text) ∧
      (∀ text, Codec.TextFits text → ∀ name : Identifier,
        identifier.decode (Codec.text.write text) = .ok name ↔
          Identifier.ofString text = .ok name) ∧
      ∀ (s : Schema) unread v rest, s.codec.read unread = (.ok v, rest) →
        ∃ form, unread = form ++ rest ∧ ∀ name ∈ s.names v,
          Identifier.Spelled name.text.toList ∧ Codec.text.write name.text <:+: form := by
  refine ⟨?_, ?_, ?_⟩
  · intro text
    exact ⟨Identifier.exists_ofString_iff, fun name => Identifier.ofString_eq_ok_iff.1⟩
  · intro text fits name
    exact Identifier.decode_write_text fits
  · intro s unread v rest read
    have form := (s.lawful_codec.eq_write_of_read read).1
    refine ⟨s.write v, form, ?_⟩
    intro name mem
    exact ⟨name.spelled, s.shows v name mem⟩

/-- The text "XUS" is read as a name, and stands in a transaction with a script that has it among its
type arguments. -/
theorem transaction_shows_its_name :
    (Codec.TextFits "XUS" ∧ identifier.decode (Codec.text.write "XUS") = .ok Sample.xus) ∧
      Sample.xus ∈ transaction.names (.user Sample.signed) ∧
      ∃ form, transaction.write (.user Sample.signed) ++ [0] = form ++ [0] ∧
        Identifier.Spelled "XUS".toList ∧ Codec.text.write "XUS" <:+: form := by
  have fits : Codec.TextFits "XUS" := by decide
  have made : Identifier.ofString "XUS" = .ok Sample.xus := Identifier.ofString_eq_ok_iff.2 rfl
  have named : Sample.xus ∈ transaction.names (.user Sample.signed) := List.mem_cons_self
  have read := transaction.lawful_codec.read_write Sample.signed_fits [0]
  obtain ⟨-, texts, values⟩ := names_are_spelled
  obtain ⟨form, whole, shown⟩ := values transaction _ _ _ read
  exact ⟨⟨fits, (texts _ fits _).2 made⟩, named, form, whole, shown _ named⟩

end Schema

end LedgerClient
