import LedgerClient.Proofs.Signing.Composition

/-!
# What an attestation speaks for

The receiver of a payment signs the metadata, the sender, the amount and the suffix, with nothing
between them. The reference is a text that the other side chooses, and may itself contain the suffix
or bytes that look like a sender and an amount. That does not matter: the form of the metadata shows
where it ends, and the fields behind it have fixed sizes (`message_append_inj`).
-/

set_option autoImplicit false

namespace LedgerClient.TravelRule

variable {reference reference' : String} {sender sender' : Address} {amount amount' : UInt64}

theorem metadata_inj (same : metadata reference = metadata reference') :
    reference = reference' := by
  have rules := Metadata.travelRule.inj same
  exact Option.some.inj (TravelRule.mk.inj rules)

/-- Fields of fixed size can be told apart, whatever stands behind them. -/
theorem fields_append_inj {rest rest' : Bytes}
    (same : sender.toList ++ (Bytes.littleEndian 8 amount.toNat ++ rest) =
      sender'.toList ++ (Bytes.littleEndian 8 amount'.toNat ++ rest')) :
    sender = sender' ∧ amount = amount' ∧ rest = rest' := by
  rw [← Codec.write_bare, ← Codec.write_bare, ← Codec.write_u64, ← Codec.write_u64] at same
  obtain ⟨senders, behind⟩ := (Codec.lawful_bare .address).unambiguous sender _ _ _ same
  exact ⟨senders, Codec.lawful_u64.unambiguous amount _ _ _ behind⟩

/-- Two messages with anything behind them are equal only where they attest the same. -/
theorem message_append_inj {rest rest' : Bytes}
    (same : message reference sender amount ++ rest = message reference' sender' amount' ++ rest') :
    reference = reference' ∧ sender = sender' ∧ amount = amount' ∧ rest = rest' := by
  simp only [message_eq, List.append_assoc] at same
  obtain ⟨data, behind⟩ := Metadata.lawful_codec.unambiguous (metadata reference) _ _ _ same
  obtain ⟨senders, amounts, endings⟩ := fields_append_inj behind
  exact ⟨metadata_inj data, senders, amounts, List.append_cancel_left endings⟩

/-- The metadata fits if the reference can be counted. -/
theorem fits_metadata (short : Codec.TextFits reference) : (metadata reference).Fits := by
  intro text chosen
  rw [← Option.some.inj chosen]
  exact short

/-- A message of attestation speaks for one reference, one sender and one amount, and the metadata is
read back from the front of it, so that just the sender, the amount and the suffix are left. -/
theorem attestation_is_unambiguous :
    (∀ (reference reference' : String) (sender sender' : Address) (amount amount' : UInt64),
        message reference sender amount = message reference' sender' amount' →
          reference = reference' ∧ sender = sender' ∧ amount = amount') ∧
      ∀ (reference : String) (sender : Address) (amount : UInt64), Codec.TextFits reference →
        Metadata.codec.read (message reference sender amount) =
          (.ok (metadata reference),
            sender.toList ++ (Bytes.littleEndian 8 amount.toNat ++ suffix)) := by
  constructor
  · intro reference reference' sender sender' amount amount' same
    obtain ⟨references, senders, amounts, -⟩ := message_append_inj (congrArg (· ++ []) same)
    exact ⟨references, senders, amounts⟩
  · intro reference sender amount short
    rw [message_eq]
    exact Metadata.lawful_codec.read_write (fits_metadata short) _

namespace Sample

/-- A reference that ends as a whole message does, with bytes in front that look like a sender and
an amount. -/
def cunning : String := "aaaaaaaaaaaaaaaabbbbbbbb@@$$DIEM_ATTEST$$@@"

end Sample

theorem cunning_reference_is_read_back :
    Codec.TextFits Sample.cunning ∧
      Metadata.codec.read (message Sample.cunning .one 7) =
        (.ok (metadata Sample.cunning),
          Address.one.toList ++ ([7, 0, 0, 0, 0, 0, 0, 0] ++ suffix)) ∧
      message Sample.cunning .one (3 + 4) = message Sample.cunning .one 7 ∧
      (3 + 4 : UInt64) = 7 :=
  have short : Codec.TextFits Sample.cunning := by decide
  have same : message Sample.cunning .one (3 + 4) = message Sample.cunning .one 7 := rfl
  ⟨short, attestation_is_unambiguous.2 Sample.cunning .one 7 short, same,
    (attestation_is_unambiguous.1 _ _ _ _ _ _ same).2.2⟩

end LedgerClient.TravelRule
