import LedgerClient.Proofs.Schema.Lawful
import LedgerClient.Signing

/-!
# What is signed and what is hashed

A signing message is the digest of the type's name and the form of the transaction, and a
transaction is hashed from the same digest, the index of its alternative and its form. Because forms
are unambiguous, a signature speaks for one transaction only, and two transactions share a hash only
where the hash function collides.
-/

set_option autoImplicit false

namespace LedgerClient

theorem RawTransaction.signingMessage_eq (raw : RawTransaction) :
    raw.signingMessage =
      (hashPrefix "RawTransaction").toList ++ RawTransaction.codec.write raw := by
  have digest := (Codec.lawful_bare .digest).appends (hashPrefix "RawTransaction")
  have form := RawTransaction.lawful_codec.appends raw
  have both := Buffer.contents_comp digest form
  rwa [← Codec.write, ← Codec.write, Codec.write_bare] at both

namespace SignedTransaction

/-- The bytes from which the transaction is hashed. -/
def hashed (t : SignedTransaction) : Bytes := (hashPrefix "Transaction").toList ++ t.enveloped

theorem enveloped_eq (t : SignedTransaction) : t.enveloped = Uleb128.encode 0 ++ codec.write t := by
  have both := Buffer.contents_comp (Codec.appends_number 0) (lawful_codec.appends t)
  rwa [← Codec.write, ← Codec.write, Codec.write_number] at both

end SignedTransaction

/-- Forms of one type, each with anything behind it, are equal only if the values are, whatever their
sizes and however deep their types. So two transactions with one signing message are the same, and
so are two that are hashed from the same bytes. -/
theorem forms_are_unambiguous :
    (∀ (s : Schema) (v w : s.Value) (x y : Bytes),
        s.write v ++ x = s.write w ++ y → v = w ∧ x = y) ∧
      (∀ raw raw' : RawTransaction, raw.signingMessage = raw'.signingMessage → raw = raw') ∧
      (∀ t : SignedTransaction, t.hash = Sha3.digest t.hashed) ∧
      ∀ t t' : SignedTransaction, t.hashed = t'.hashed → t = t' := by
  refine ⟨?_, ?_, fun _ => rfl, ?_⟩
  · intro s v w x y same
    exact s.lawful_codec.unambiguous v w x y same
  · intro raw raw' same
    rw [raw.signingMessage_eq, raw'.signingMessage_eq] at same
    exact (RawTransaction.lawful_codec.unambiguous raw).eq (List.append_cancel_left same)
  · intro t t' same
    have enveloped := List.append_cancel_left same
    rw [t.enveloped_eq, t'.enveloped_eq] at enveloped
    exact (SignedTransaction.lawful_codec.unambiguous t).eq (List.append_cancel_left enveloped)

namespace Sample

/-- Seventy vectors around a byte, more than the reader follows. -/
def deep : TypeTag := .nest 70 .u8

/-- A transaction that no reader accepts, because of its type argument. -/
def raw : RawTransaction where
  sender := .one
  sequenceNumber := 3
  payload := .script ⟨[0xA1], [deep], [.bool true]⟩
  maxGasAmount := 4
  gasUnitPrice := 5
  gasCurrency := "XUS"
  expiration := 6
  chainId := 2

def signed : SignedTransaction := ⟨raw, .single ⟨.zero .publicKey⟩ (.zero .signature)⟩

end Sample

theorem deep_type_is_unambiguous :
    maxTagDepth < Sample.deep.depth ∧
      Sample.deep = .vector (.nest 69 .u8) ∧ ([7] : Bytes) = [7] ∧
      { Sample.raw with sequenceNumber := 1 + 2 } = Sample.raw ∧
      { Sample.signed with raw := { Sample.raw with sequenceNumber := 1 + 2 } } = Sample.signed :=
  have forms := forms_are_unambiguous.1 .typeTag Sample.deep (.vector (.nest 69 .u8)) [7] [7] rfl
  ⟨by decide, forms.1, forms.2, forms_are_unambiguous.2.1 _ _ rfl,
    forms_are_unambiguous.2.2.2 _ _ rfl⟩

end LedgerClient
