import LedgerClient.Proofs.TypeTag.Wire
import LedgerClient.Proofs.Wire.Refusal

/-!
# Types that are nested too deep

A type beyond the limit is written like any other. Its reader comes to the level that is not allowed
before it looks at what stands there, and everything in front of that place is read, so there is one
reason for which such a type can be refused (`TypeTag.refuses_within`), in a type that is wide and
in one that is only deep.
-/

set_option autoImplicit false

namespace LedgerClient

open Codec (CountFits TextFits ListFits)

/-- The names of a struct type and of its parameters can be written with their lengths. -/
def StructTag.Bounded (s : StructTag) : Prop :=
  TextFits s.moduleName.text ∧ TextFits s.name.text ∧ ListFits TypeTag.Bounded s.typeParams

@[simp] theorem StructTag.bounded_iff {s : StructTag} :
    (TypeTag.ofStruct s).Bounded ↔ s.Bounded := by
  simp [TypeTag.ofStruct, TypeTag.Bounded, Bounded, ListFits]

/-- A struct type is refused for what one of its parameters is refused for. -/
theorem StructTag.refuses_fields {param : Codec TypeTag} {e : DataError}
    {Bounded Fits : TypeTag → Prop} (lawful : param.Lawful Fits)
    (h : param.Refuses e Bounded Fits) :
    (fields param).Refuses e
      (fun s => TextFits s.moduleName.text ∧ TextFits s.name.text ∧ ListFits Bounded s.typeParams)
      (fun s => TextFits s.moduleName.text ∧ TextFits s.name.text
        ∧ ListFits Fits s.typeParams) := by
  have name := Identifier.lawful_codec
  have params := lawful.appends.list
  have parts := Codec.Refuses.behind (Codec.lawful_bare .address)
    (name.appends.pair (name.appends.pair params))
    (.behind name (name.appends.pair params) (.behind name params (h.list lawful)))
  exact parts.via.congr (fun _ => And.intro trivial) fun _ => And.right

/-- A type that has more levels than are allowed is refused as nested too deep. The induction is on
the levels, like that of `lawful_within`. -/
theorem TypeTag.refuses_within (levels : Nat) :
    (within levels).Refuses .tagTooDeep Bounded fun tag => tag.depth < levels ∧ tag.Bounded := by
  induction levels using Nat.strongRecOn with
  | ind levels ih =>
    cases levels with
    | zero => exact fun _ _ _ _ => rfl
    | succ levels =>
      have leaf : ∀ tag : TypeTag, tag.depth = 0 →
          Codec.unit.Refuses .tagTooDeep (fun _ => tag.Bounded)
            fun _ => tag.depth < levels + 1 ∧ tag.Bounded := by
        intro tag flat
        refine Codec.Refuses.none.congr (fun _ bounded => ⟨?_, bounded⟩) fun _ fits => fits
        rw [flat]
        exact Nat.succ_pos levels
      have nothing : Codec.unit.Lawful fun _ => True := Codec.lawful_unit trivial
      have unit := nothing.appends
      have vectors : (within levels).Refuses .tagTooDeep (fun element => (vector element).Bounded)
          fun element => (vector element).depth < levels + 1 ∧ (vector element).Bounded := by
        refine (ih levels (Nat.lt_succ_self levels)).congr (fun _ bounded => bounded) ?_
        intro element fits
        exact ⟨Nat.succ_lt_succ fits.1, fits.2⟩
      have structs : (StructTag.within (levels - 1)).Refuses .tagTooDeep
          (fun s => (ofStruct s).Bounded)
          fun s => (ofStruct s).depth < levels + 1 ∧ (ofStruct s).Bounded := by
        have params := ih (levels - 1) (by omega)
        rw [StructTag.within_eq_fields]
        refine (StructTag.refuses_fields (lawful_within (levels - 1)) params).congr ?_ ?_
        · exact fun s => StructTag.bounded_iff.1
        · exact fun s => ofStruct_within_iff.2
      rw [within_eq_union]
      refine Codec.Refuses.union (sorts_cases _ _) ?_
      simp only [cases, List.forall_mem_cons]
      exact ⟨⟨unit, leaf bool rfl⟩, ⟨unit, leaf u8 rfl⟩, ⟨unit, leaf u64 rfl⟩,
        ⟨unit, leaf u128 rfl⟩, ⟨unit, leaf address rfl⟩, ⟨unit, leaf signer rfl⟩,
        ⟨appends_within levels, vectors⟩, ⟨StructTag.appends_within (levels - 1), structs⟩,
        List.forall_mem_nil _⟩

theorem TypeTag.refuses_codec : codec.Refuses .tagTooDeep Bounded Fits :=
  (refuses_within (maxTagDepth + 1)).congr (fun _ bounded => bounded) fun _ fits =>
    ⟨Nat.lt_succ_iff.1 fits.1, fits.2⟩

/-- A struct type on its own is refused when one of its parameters is, one level down. -/
theorem StructTag.refuses_codec : codec.Refuses .tagTooDeep Bounded Fits := by
  have whole : codec = fields (TypeTag.within maxTagDepth) := within_eq_fields maxTagDepth
  rw [whole]
  refine (refuses_fields (TypeTag.lawful_within maxTagDepth)
    (TypeTag.refuses_within maxTagDepth)).congr (fun _ bounded => bounded) fun s fits => ?_
  simpa only [Fits, Nat.lt_iff_add_one_le, Nat.add_comm] using fits

end LedgerClient
