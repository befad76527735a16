import LedgerClient.Proofs.Signing.Unambiguous

/-!
# Messages written piece by piece

Whatever a buffer holds already, writing a value leaves it there and puts the form of the value
behind it. A message that is written into one buffer piece by piece is therefore the pieces' own
forms, one after the other (`TravelRule.message_eq`). It also makes no difference who writes the
index of an alternative: a transaction of a user that is written behind the index zero by hand has
the bytes that the envelope has (`SignedTransaction.enveloped_eq_write`).
-/

set_option autoImplicit false

namespace LedgerClient

/-- The index that is written by hand is the one that the envelope gives to the transactions of
users. -/
theorem SignedTransaction.enveloped_eq_write (t : SignedTransaction) :
    t.enveloped = Transaction.codec.write (.user t) := by
  have envelope : Transaction.codec.write (.user t) = Uleb128.encode 0 ++ codec.write t :=
    Transaction.sorts_cases.write_build (rfl : Transaction.cases[0]? = some _) t
      lawful_codec.appends
  rw [envelope, t.enveloped_eq]

/-- A transaction of a user is committed under the digest of its envelope. -/
theorem SignedTransaction.hash_eq_hash_user (t : SignedTransaction) :
    t.hash = (Transaction.user t).hash := by
  rw [hash, t.enveloped_eq_write, Transaction.hash]

/-- The message of attestation is the form of the metadata, the sender, the amount and the
suffix. -/
theorem TravelRule.message_eq (reference : String) (sender : Address) (amount : UInt64) :
    message reference sender amount =
      Metadata.codec.write (metadata reference) ++
        (sender.toList ++ (Bytes.littleEndian 8 amount.toNat ++ suffix)) := by
  have data := Metadata.lawful_codec.appends (metadata reference)
  have account := (Codec.lawful_bare .address).appends sender
  have number := Codec.lawful_u64.appends amount
  have ending := Codec.appends_raw suffix.length suffix
  have pieces : message reference sender amount =
      Metadata.codec.write (metadata reference) ++ ((Codec.bare .address).write sender ++
        (Codec.u64.write amount ++ (Codec.raw suffix.length).write suffix)) := by
    simp only [message, Codec.write, Buffer.contents_comp ((data.comp account).comp number) ending,
      Buffer.contents_comp (data.comp account) number, Buffer.contents_comp data account,
      List.append_assoc]
  rw [pieces, Codec.write_bare, Codec.write_u64, Codec.write_raw]

/-- Writing a value appends its form to what the buffer holds. So what the sender of a transaction
signs is the digest of the type's name and the form of the transaction, a transaction of a user is
hashed as its envelope is, and a message of attestation begins with the form of its metadata. -/
theorem writing_appends_the_form :
    (∀ (s : Schema) (v : s.Value) (buffer : Buffer),
        (s.codec.push v buffer).toList = buffer.toList ++ s.write v) ∧
      (∀ raw : RawTransaction, raw.signingMessage =
        (hashPrefix "RawTransaction").toList ++ Schema.rawTransaction.write raw) ∧
      (∀ t : SignedTransaction, t.hash = (Transaction.user t).hash) ∧
      ∀ (reference : String) (sender : Address) (amount : UInt64),
        TravelRule.message reference sender amount =
          Schema.metadata.write (TravelRule.metadata reference) ++
            (sender.toList ++ (Bytes.littleEndian 8 amount.toNat ++ TravelRule.suffix)) := by
  refine ⟨?_, RawTransaction.signingMessage_eq, ?_, TravelRule.message_eq⟩
  · intro s v buffer
    exact s.lawful_codec.appends v buffer
  · intro t
    rw [SignedTransaction.hash, t.enveloped_eq_write, Transaction.hash]

end LedgerClient
