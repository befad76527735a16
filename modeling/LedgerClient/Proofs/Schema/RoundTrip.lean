import LedgerClient.Proofs.Schema.Lawful

/-!
# Writing and reading are inverse

A value that fits is read back from its form, whatever stands behind the form, and what stands there
is left unread (`form_read_back`). The other way round, whatever a reader takes for a value is the
form of that value, and of a value that fits (`only_forms_are_read`). Together: reading answers with
exactly the values that fit, each at exactly its form (`read_eq_ok_iff`).
-/

set_option autoImplicit false

namespace LedgerClient.Schema

/-- What a reader answers with, and where. -/
theorem read_eq_ok_iff (s : Schema) {unread rest : Bytes} {v : s.Value} :
    s.codec.read unread = (.ok v, rest) ↔ s.Fits v ∧ unread = s.write v ++ rest := by
  constructor
  · intro read
    exact (s.lawful_codec.eq_write_of_read read).symm
  · rintro ⟨fits, rfl⟩
    exact s.lawful_codec.read_write fits rest

/-- The form of a value that fits is read back with anything behind it, decoded to the value where
it is the whole input, and refused with the number of the bytes behind it otherwise. -/
theorem form_read_back (s : Schema) (v : s.Value) (fits : s.Fits v) (rest : Bytes) :
    s.codec.read (s.write v ++ rest) = (.ok v, rest) ∧
      s.decode (s.write v) = .ok v ∧
      (rest ≠ [] → s.decode (s.write v ++ rest) = .error (.trailing rest.length)) := by
  have lawful := s.lawful_codec
  refine ⟨s.read_eq_ok_iff.2 ⟨fits, rfl⟩, lawful.decode_write fits, ?_⟩
  intro more
  exact lawful.decode_write_append fits more

namespace Sample

/-- The encoding of the base point. -/
def member : PublicKey := ⟨⟨0x58 :: List.replicate 31 0x66, rfl⟩⟩

def xus : Identifier := ⟨"XUS", by decide⟩

/-- A script with a nested type argument and arguments of several types. -/
def script : Script where
  code := [0xA1, 0x1C]
  typeArgs := [.vector (.struct .one xus xus [.u8, .vector .address]), .bool]
  args := [.u64 7, .u8vector [1, 2, 3], .address .zero]

/-- A transaction that one member of a key set of two has signed. -/
def signed : SignedTransaction where
  raw :=
    { sender := .one
      sequenceNumber := 300
      payload := .writeSet (.script .zero script)
      maxGasAmount := 1000000
      gasUnitPrice := 1
      gasCurrency := "XUS¢"
      expiration := 5
      chainId := 2 }
  authenticator :=
    .threshold ⟨[member, member], 1⟩ ⟨[.zero .signature], .ofList [⟨1, by decide⟩]⟩

theorem member_isPoint : member.IsPoint := by decide +kernel

theorem signed_fits : (transaction).Fits (.user signed) := by
  have names : Codec.TextFits xus.text := by decide
  have tags : ∀ tag ∈ script.typeArgs, tag.Fits := by
    refine List.forall_mem_cons.2 ⟨⟨by decide, ?_⟩, List.forall_mem_singleton.2 ?_⟩
    · exact ⟨names, names, by decide, trivial, trivial, trivial⟩
    · exact ⟨by decide, trivial⟩
  have args : ∀ arg ∈ script.args, arg.Fits := by
    have bytes : Codec.CountFits 3 := by decide
    exact List.forall_mem_cons.2 ⟨trivial, List.forall_mem_cons.2
      ⟨bytes, List.forall_mem_singleton.2 trivial⟩⟩
  have points : (ThresholdKey.mk [member, member] 1).Points := by
    simp [ThresholdKey.Points, member_isPoint]
  refine ⟨⟨⟨by decide, ⟨by decide, tags⟩, by decide, args⟩, by decide⟩, ⟨?_, points⟩, ?_⟩
  · exact ThresholdKey.made_iff.2 ⟨by decide, by decide, by decide⟩
  · exact ThresholdSignature.made_iff.2 ⟨by decide, by decide⟩

end Sample

theorem signed_read_back :
    transaction.Fits (.user Sample.signed) ∧
      transaction.decode (transaction.write (.user Sample.signed) ++ [0]) =
        .error (.trailing 1) :=
  ⟨Sample.signed_fits,
    (form_read_back transaction (.user Sample.signed) Sample.signed_fits [0]).2.2 (by decide)⟩

/-- Whatever is read as a value is the form of the value: a reader drops exactly the form, a whole
input that is decoded is the form, and so no two inputs are decoded to one value. -/
theorem only_forms_are_read (s : Schema) :
    (∀ unread v rest, s.codec.read unread = (.ok v, rest) → unread = s.write v ++ rest) ∧
      (∀ bytes v, s.decode bytes = .ok v → s.write v = bytes) ∧
      ∀ bytes bytes' v, s.decode bytes = .ok v → s.decode bytes' = .ok v → bytes = bytes' := by
  have decoded : ∀ bytes v, s.decode bytes = .ok v → s.write v = bytes := by
    intro bytes v h
    exact (s.lawful_codec.eq_write_of_decode h).1.symm
  refine ⟨?_, decoded, ?_⟩
  · intro unread v rest read
    exact (s.read_eq_ok_iff.1 read).2
  · intro bytes bytes' v first second
    rw [← decoded bytes v first, decoded bytes' v second]

theorem script_bytes_are_its_form :
    script.decode [2, 0xA1, 0x1C, 2, 6, 1, 4, 2, 1, 7, 0, 0, 0, 0, 0, 0, 0, 5, 1] =
        .ok ⟨[0xA1, 0x1C], [.vector .u8, .address], [.u64 7, .bool true]⟩ ∧
      script.write ⟨[0xA1, 0x1C], [.vector .u8, .address], [.u64 7, .bool true]⟩ =
        [2, 0xA1, 0x1C, 2, 6, 1, 4, 2, 1, 7, 0, 0, 0, 0, 0, 0, 0, 5, 1] :=
  have read : script.decode [2, 0xA1, 0x1C, 2, 6, 1, 4, 2, 1, 7, 0, 0, 0, 0, 0, 0, 0, 5, 1] =
      .ok ⟨[0xA1, 0x1C], [.vector .u8, .address], [.u64 7, .bool true]⟩ := rfl
  ⟨read, (only_forms_are_read script).2.1 _ _ read⟩

end LedgerClient.Schema
