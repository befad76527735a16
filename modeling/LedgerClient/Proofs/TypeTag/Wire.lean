import LedgerClient.Proofs.Wire.Union
import LedgerClient.TypeTag.Codec

/-!
# Type tags on the wire

Types are written by their own recursion and read by another one, which counts levels. Both are what
the combinators give: a struct type is three fields and a list (`within_eq_fields`), and a type is a
union whose contents are types again (`within_eq_union`). The forms of all types are unambiguous, by
induction on the types; the types that are read are those within the limit, by induction on the
levels that are still allowed (`lawful_within`).
-/

set_option autoImplicit false

namespace LedgerClient

open Codec (CountFits TextFits ListFits)

namespace Identifier

/-- A name is written as its text. -/
theorem lawful_codec : codec.Lawful fun name => TextFits name.text := by
  refine Codec.lawful_text.checked ?_ ?_ ?_
  · intro name fits
    have found : ofString? name.text = some name := dif_pos name.valid
    exact ⟨by rw [found], fits⟩
  · intro text name fits passed
    split at passed
    · rename_i found
      obtain rfl := Except.ok.inj passed
      unfold ofString? at found
      split at found
      · obtain rfl := Option.some.inj found
        exact ⟨rfl, fits⟩
      · cases found
    · cases passed
  · rintro ⟨text, _⟩ ⟨_, _⟩ rfl
    rfl

end Identifier

/-! ## Types within the limits -/

mutual

/-- The names in a type can be written with their lengths, and so can the lists of parameters. -/
def TypeTag.Bounded : TypeTag → Prop
  | .vector element => element.Bounded
  | .struct _ moduleName name params =>
    TextFits moduleName.text ∧ TextFits name.text ∧ CountFits params.length
      ∧ TypeTag.AllBounded params
  | _ => True

/-- `TypeTag.Bounded` of several types. -/
def TypeTag.AllBounded : List TypeTag → Prop
  | [] => True
  | tag :: rest => tag.Bounded ∧ TypeTag.AllBounded rest

end

/-- The types that can be read: they are nested no deeper than the limit. -/
def TypeTag.Fits (tag : TypeTag) : Prop := tag.depth ≤ maxTagDepth ∧ tag.Bounded

/-- The struct types that can be read on their own: the parameters stand one level down. -/
def StructTag.Fits (s : StructTag) : Prop :=
  TextFits s.moduleName.text ∧ TextFits s.name.text
    ∧ ListFits (fun param => 1 + param.depth ≤ maxTagDepth ∧ param.Bounded) s.typeParams

@[simp] theorem TypeTag.allBounded_iff {tags : List TypeTag} :
    AllBounded tags ↔ ∀ tag ∈ tags, tag.Bounded := by
  induction tags with
  | nil => simp [AllBounded]
  | cons tag tags ih => simp [AllBounded, ih]

theorem TypeTag.depths_lt_iff {tags : List TypeTag} {limit : Nat} (positive : 0 < limit) :
    depths tags < limit ↔ ∀ tag ∈ tags, tag.depth < limit := by
  induction tags with
  | nil => exact iff_of_true positive nofun
  | cons tag tags ih => rw [depths, Nat.max_lt, ih, List.forall_mem_cons]

/-- A struct takes two of the levels that are allowed from its parameters. -/
theorem TypeTag.depth_struct_lt_iff {address : Address} {moduleName name : Identifier}
    {params : List TypeTag} {levels : Nat} :
    (struct address moduleName name params).depth < levels + 1 ↔
      ∀ param ∈ params, param.depth < levels - 1 := by
  cases params with
  | nil => exact iff_of_true (Nat.succ_pos levels) nofun
  | cons param params =>
    have shifted : depths (param :: params) + 2 < levels + 1 ↔
        0 < levels - 1 ∧ depths (param :: params) < levels - 1 := by omega
    rw [depth, shifted]
    constructor
    · rintro ⟨positive, below⟩
      exact (depths_lt_iff positive).1 below
    · intro each
      have positive : 0 < levels - 1 := Nat.zero_lt_of_lt (each param List.mem_cons_self)
      exact ⟨positive, (depths_lt_iff positive).2 each⟩

/-- A struct type is within the levels when its names fit and its parameters are within two levels
less. -/
theorem TypeTag.ofStruct_within_iff {s : StructTag} {levels : Nat} :
    (ofStruct s).depth < levels + 1 ∧ (ofStruct s).Bounded ↔
      TextFits s.moduleName.text ∧ TextFits s.name.text
        ∧ ListFits (fun param => param.depth < levels - 1 ∧ param.Bounded) s.typeParams := by
  rw [ofStruct, depth_struct_lt_iff, Bounded, allBounded_iff, ListFits]
  constructor
  · rintro ⟨shallow, moduleName, name, count, bounded⟩
    exact ⟨moduleName, name, count, fun param mem => ⟨shallow param mem, bounded param mem⟩⟩
  · rintro ⟨moduleName, name, count, each⟩
    exact ⟨fun param mem => (each param mem).1, moduleName, name, count,
      fun param mem => (each param mem).2⟩

/-! ## The two recursions as combinators -/

namespace TypeTag

/-- Types of which so many levels are read. -/
def within (levels : Nat) : Codec TypeTag where
  push := TypeTag.push
  read := readWithin levels

end TypeTag

namespace StructTag

/-- Struct types with parameters of which so many levels are read. -/
def within (levels : Nat) : Codec StructTag where
  push := StructTag.push
  read := readWith (TypeTag.readWithin levels)

/-- A struct type as its fields, with a codec for the parameters. -/
def fields (param : Codec TypeTag) : Codec StructTag :=
  ((Codec.bare .address).pair (Identifier.codec.pair (Identifier.codec.pair param.list))).via
    (fun (address, moduleName, name, typeParams) => { address, moduleName, name, typeParams })
    (fun s => (s.address, s.moduleName, s.name, s.typeParams))

theorem pushAll_eq_foldl (tags : List TypeTag) (buffer : Buffer) :
    TypeTag.pushAll tags buffer = tags.foldl (fun buffer tag => tag.push buffer) buffer := by
  induction tags generalizing buffer with
  | nil => rfl
  | cons tag tags ih => rw [TypeTag.pushAll, ih, List.foldl_cons]

/-- The loop over the parameters is that of a list. -/
theorem within_eq_fields (levels : Nat) : within levels = fields (TypeTag.within levels) := by
  refine congr (congrArg Codec.mk ?_) ?_
  · funext s buffer
    exact pushAll_eq_foldl s.typeParams _
  · unfold readWith
    simp only [Codec.pair, Codec.list, Reader.andThen_assoc]
    rfl

/-- A struct type is unambiguous if its parameters are. -/
theorem unambiguous_fields {param : Codec TypeTag} (appends : param.Appends) {s : StructTag}
    (h : ∀ tag ∈ s.typeParams, param.Unambiguous tag) : (fields param).Unambiguous s := by
  have address := Codec.lawful_bare .address
  have name := Identifier.lawful_codec
  apply Codec.Unambiguous.via
  · refine .pair address.appends (name.appends.pair (name.appends.pair appends.list))
      (address.unambiguous _) ?_
    refine .pair name.appends (name.appends.pair appends.list) (name.unambiguous _) ?_
    exact .pair name.appends appends.list (name.unambiguous _) (.list appends h)
  · exact fun _ => rfl

/-- A struct type is lawful if its parameters are. -/
theorem lawful_fields {param : Codec TypeTag} {Fits : TypeTag → Prop} (h : param.Lawful Fits) :
    (fields param).Lawful fun s =>
      TextFits s.moduleName.text ∧ TextFits s.name.text ∧ ListFits Fits s.typeParams := by
  have parts := (Codec.lawful_bare .address).pair
    (Identifier.lawful_codec.pair (Identifier.lawful_codec.pair h.list))
  exact parts.via_congr (fun _ => rfl) (fun _ => rfl) fun _ => ⟨And.right, And.intro trivial⟩

end StructTag

namespace TypeTag

/-- The alternatives of a type in the order of their indices, with codecs for the element of a
vector and for struct types. -/
def cases (element : Codec TypeTag) (structTag : Codec StructTag) : List (Codec.Case TypeTag) :=
  [{ content := Codec.unit, build := fun () => bool,
     open? := fun | bool => some () | _ => none },
   { content := Codec.unit, build := fun () => u8, open? := fun | u8 => some () | _ => none },
   { content := Codec.unit, build := fun () => u64, open? := fun | u64 => some () | _ => none },
   { content := Codec.unit, build := fun () => u128, open? := fun | u128 => some () | _ => none },
   { content := Codec.unit, build := fun () => address,
     open? := fun | address => some () | _ => none },
   { content := Codec.unit, build := fun () => signer,
     open? := fun | signer => some () | _ => none },
   { content := element, build := vector, open? := fun | vector e => some e | _ => none },
   { content := structTag, build := ofStruct,
     open? := fun
       | struct addr moduleName name params => some ⟨addr, moduleName, name, params⟩
       | _ => none }]

theorem sorts_cases (element : Codec TypeTag) (structTag : Codec StructTag) :
    Codec.Sorts (cases element structTag) where
  few := (by decide : CountFits 8)
  covers
    | bool => ⟨0, _, (), rfl, rfl⟩
    | u8 => ⟨1, _, (), rfl, rfl⟩
    | u64 => ⟨2, _, (), rfl, rfl⟩
    | u128 => ⟨3, _, (), rfl, rfl⟩
    | address => ⟨4, _, (), rfl, rfl⟩
    | signer => ⟨5, _, (), rfl, rfl⟩
    | vector e => ⟨6, _, e, rfl, rfl⟩
    | struct addr moduleName name params =>
      ⟨7, _, StructTag.mk addr moduleName name params, rfl, rfl⟩
  opens := by simp [cases, ofStruct]
  apart := by simp [cases, ofStruct]

/-- Types are a union, whose contents are types with fewer levels. -/
theorem within_eq_union (levels : Nat) :
    within (levels + 1) =
      .union "TypeTag" (cases (within levels) (StructTag.within (levels - 1))) := by
  have unfolded : readWithin (levels + 1) =
      readWith (readWithin levels) (readWithin (levels - 1)) := by
    cases levels <;> rfl
  refine congr (congrArg Codec.mk ?_) ?_
  · funext tag buffer
    cases tag <;> rfl
  · rw [unfolded]
    refine congrArg (Reader.andThen Uleb128.read) (funext fun index => ?_)
    match index with
    | 0 | 1 | 2 | 3 | 4 | 5 | 6 | 7 => rfl
    | _ + 8 => rfl

end TypeTag

/-! ## The laws -/

namespace TypeTag

theorem appends_pushWith (addr : Address) (moduleName name : Identifier) (count : Nat)
    {params : Buffer → Buffer} (h : Buffer.Appends params) :
    Buffer.Appends (StructTag.pushWith addr moduleName name count params) :=
  (Codec.appends_raw 16 addr.toList).comp <|
    (Identifier.lawful_codec.appends moduleName).comp <|
      (Identifier.lawful_codec.appends name).comp <| (Codec.appends_number count).comp h

mutual

theorem appends_push : (tag : TypeTag) → Buffer.Appends tag.push
  | bool => Codec.appends_number 0
  | u8 => Codec.appends_number 1
  | u64 => Codec.appends_number 2
  | u128 => Codec.appends_number 3
  | address => Codec.appends_number 4
  | signer => Codec.appends_number 5
  | vector element => (Codec.appends_number 6).comp (appends_push element)
  | struct addr moduleName name params =>
    (Codec.appends_number 7).comp
      (appends_pushWith addr moduleName name params.length (appends_pushAll params))

theorem appends_pushAll : (tags : List TypeTag) → Buffer.Appends (pushAll tags)
  | [] => Buffer.appends_id
  | tag :: rest => (appends_push tag).comp (appends_pushAll rest)

end

theorem appends_within (levels : Nat) : (within levels).Appends := appends_push

end TypeTag

theorem StructTag.appends_within (levels : Nat) : (within levels).Appends := fun s =>
  TypeTag.appends_pushWith s.address s.moduleName s.name s.typeParams.length
    (TypeTag.appends_pushAll s.typeParams)

namespace TypeTag

/-- The alternatives of a type with one level more than its parts. -/
def casesWithin (levels : Nat) : List (Codec.Case TypeTag) :=
  cases (within levels) (StructTag.within (levels - 1))

theorem appends_casesWithin (levels : Nat) :
    ∀ case ∈ casesWithin levels, case.content.Appends := by
  have unit : Codec.unit.Appends := fun _ => Buffer.appends_id
  have element := appends_within levels
  have structTag := StructTag.appends_within (levels - 1)
  simp [casesWithin, cases, unit, element, structTag]

theorem unambiguous_build (place : Nat) {case : Codec.Case TypeTag} {content : case.Content}
    (found : (casesWithin maxTagDepth)[place]? = some case)
    (h : case.content.Unambiguous content) : codec.Unambiguous (case.build content) := by
  have union : codec = .union "TypeTag" (casesWithin maxTagDepth) := within_eq_union maxTagDepth
  rw [union]
  exact (sorts_cases _ _).unambiguous_build (appends_casesWithin _) found h

theorem unambiguous_struct {s : StructTag} (h : ∀ tag ∈ s.typeParams, codec.Unambiguous tag)
    (levels : Nat) : (StructTag.within levels).Unambiguous s := by
  rw [StructTag.within_eq_fields]
  refine StructTag.unambiguous_fields (appends_within levels) fun tag mem => ?_
  exact (h tag mem).of_push rfl

mutual

/-- The form of a type shows where it ends, however deep the type is nested. -/
theorem unambiguous : (tag : TypeTag) → codec.Unambiguous tag
  | bool => unambiguous_build 0 rfl (Codec.unambiguous_unit ())
  | u8 => unambiguous_build 1 rfl (Codec.unambiguous_unit ())
  | u64 => unambiguous_build 2 rfl (Codec.unambiguous_unit ())
  | u128 => unambiguous_build 3 rfl (Codec.unambiguous_unit ())
  | address => unambiguous_build 4 rfl (Codec.unambiguous_unit ())
  | signer => unambiguous_build 5 rfl (Codec.unambiguous_unit ())
  | vector element => by
    have content : (within maxTagDepth).Unambiguous element := (unambiguous element).of_push rfl
    exact unambiguous_build 6 rfl content
  | struct addr moduleName name params => by
    have content := unambiguous_struct (s := ⟨addr, moduleName, name, params⟩)
      (unambiguous_each params) (maxTagDepth - 1)
    exact unambiguous_build 7 rfl content

theorem unambiguous_each : (tags : List TypeTag) → ∀ tag ∈ tags, codec.Unambiguous tag
  | [] => nofun
  | tag :: rest => List.forall_mem_cons.2 ⟨unambiguous tag, unambiguous_each rest⟩

end

/-- Within the levels that are allowed, types are lawful. -/
theorem lawful_within (levels : Nat) :
    (within levels).Lawful fun tag => tag.depth < levels ∧ tag.Bounded := by
  induction levels using Nat.strongRecOn with
  | ind levels ih =>
    cases levels with
    | zero =>
      -- Nothing is read with no level left, but everything is written.
      exact {
        appends := appends_within 0
        read_write := fun fits => absurd fits.1 (Nat.not_lt_zero _)
        eq_write_of_read := fun read => (Reader.not_fail_eq_ok read).elim
        unambiguous := fun tag => (unambiguous tag).of_push rfl
        steady := .fail _ }
    | succ levels =>
      -- Elements stand one level down and parameters two, so the induction is a strong one.
      have element := ih levels (Nat.lt_succ_self levels)
      have params := ih (levels - 1) (by omega)
      have leaf : ∀ tag : TypeTag, tag.depth = 0 → tag.Bounded →
          Codec.unit.Lawful fun _ => tag.depth < levels + 1 ∧ tag.Bounded := by
        intro tag flat bounded
        exact Codec.lawful_unit ⟨flat ▸ Nat.succ_pos levels, bounded⟩
      have vectors : (within levels).Lawful fun element =>
          (vector element).depth < levels + 1 ∧ (vector element).Bounded := by
        refine element.congr fun element => ?_
        rw [depth, Bounded, Nat.add_lt_add_iff_right]
      have structs : (StructTag.within (levels - 1)).Lawful fun s =>
          (ofStruct s).depth < levels + 1 ∧ (ofStruct s).Bounded := by
        rw [StructTag.within_eq_fields]
        exact (StructTag.lawful_fields params).congr fun s => ofStruct_within_iff.symm
      rw [within_eq_union]
      refine Codec.Lawful.union (sorts_cases _ _) ?_
      simp only [cases, List.forall_mem_cons]
      exact ⟨leaf bool rfl trivial, leaf u8 rfl trivial, leaf u64 rfl trivial,
        leaf u128 rfl trivial, leaf address rfl trivial, leaf signer rfl trivial, vectors, structs,
        nofun⟩

/-- Types are lawful, and those that are read are those within the limit. -/
theorem lawful_codec : codec.Lawful Fits :=
  (lawful_within (maxTagDepth + 1)).congr fun _ => and_congr_left' Nat.lt_succ_iff

end TypeTag

/-- Struct types are lawful on their own, with the parameters one level down. -/
theorem StructTag.lawful_codec : codec.Lawful Fits := by
  have whole : codec = fields (TypeTag.within maxTagDepth) := within_eq_fields maxTagDepth
  rw [whole]
  refine (lawful_fields (TypeTag.lawful_within maxTagDepth)).congr fun s => ?_
  simp only [Fits, Nat.lt_iff_add_one_le, Nat.add_comm]

end LedgerClient
