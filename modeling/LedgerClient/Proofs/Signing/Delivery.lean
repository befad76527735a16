import LedgerClient.Proofs.Schema.Lawful
import LedgerClient.Proofs.Text.Hex
import LedgerClient.Proofs.Threshold.Signing
import LedgerClient.Signing

/-!
# Signed transactions that arrive

A transaction that has been signed is written, sent as bytes or as text, and read. The account that
it is checked against is derived from the authenticator, the signer's own account from the secret
key, each on its own way. The transaction that arrives is the one that was sent (`ofBytes_toBytes`,
`ofHex_hex`), its authenticator belongs to the signer's account (`authKey_signMessage`) and is good
for it (`verify_signMessage`), as far as Ed25519 keeps its promises for the keys of the signer
(`Sound`).
-/

set_option autoImplicit false

namespace LedgerClient

/-- Transactions that fit are read back from their form. -/
theorem SignedTransaction.ofBytes_toBytes {t : SignedTransaction} (fits : t.Fits) :
    ofBytes t.toBytes = .ok t := by
  rw [ofBytes, toBytes, lawful_codec.decode_write fits]
  rfl

/-- Transactions that fit are read back from the text of their form. -/
theorem SignedTransaction.ofHex_hex {t : SignedTransaction} (fits : t.Fits) :
    ofHex t.hex = .ok t := by
  rw [ofHex, hex, Hex.decode_encode]
  exact ofBytes_toBytes fits

/-- A key that is read from the bytes of another one is that key, and encodes a point. -/
theorem PublicKey.isPoint_of_ofBytes_toList {key read : PublicKey}
    (accepted : ofBytes key.toList = .ok read) : key.IsPoint := by
  have same : read = key := toList_inj (toList_of_ofBytes accepted)
  rw [same] at accepted
  exact ofBytes_toList_iff.1 accepted

namespace Signer

/-- How a program comes by a signer: from a key, or from keys that make a key set. -/
inductive Made : Signer → Prop
  | single (key : SecretKey) : Made (.single key)
  | threshold {members : List SecretKey} {threshold : UInt8} {key : ThresholdSecret} :
    ThresholdSecret.make members threshold = .ok key → Made (.threshold key)

/-- The keys of the signer. -/
def members : Signer → List SecretKey
  | single key => [key]
  | threshold key => key.members

/-- The keys that sign. -/
def contributors : Signer → List SecretKey
  | single key => [key]
  | threshold key => key.contributors

/-- What Ed25519 owes the signer of a message: the bytes of its public keys are accepted, and so is
what its keys make of the message. -/
structure Sound (signer : Signer) (message : Bytes) : Prop where
  accepted : ∀ member ∈ signer.members,
    ∃ key, PublicKey.ofBytes member.publicKey.toList = .ok key
  verified : ∀ member ∈ signer.contributors,
    member.publicKey.verify message (member.sign message) = true

variable {signer : Signer} {message : Bytes}

/-- The account of the authenticator is that of the signer, whatever has been signed. -/
theorem authKey_signMessage (signer : Signer) (message : Bytes) :
    (signer.signMessage message).authKey = signer.authKey := by
  cases signer with
  | single key => rfl
  | threshold key => rfl

/-- The authenticator can be read back. -/
theorem fits_signMessage (made : signer.Made) (sound : signer.Sound message) :
    (signer.signMessage message).Fits := by
  cases made with
  | single key =>
    obtain ⟨read, accepted⟩ := sound.accepted key (List.mem_singleton.2 rfl)
    exact PublicKey.isPoint_of_ofBytes_toList accepted
  | @threshold members threshold key made =>
    refine ⟨⟨.publicKey made, ?_⟩, .sign message made⟩
    intro half mem
    obtain ⟨member, inKey, rfl⟩ := List.mem_map.1 mem
    obtain ⟨read, accepted⟩ := sound.accepted member inKey
    exact PublicKey.isPoint_of_ofBytes_toList accepted

/-- The authenticator is good for the message. -/
theorem verify_signMessage (made : signer.Made) (sound : signer.Sound message) :
    (signer.signMessage message).verify message = true := by
  cases made with
  | single key => exact sound.verified key (List.mem_singleton.2 rfl)
  | @threshold members threshold key made =>
    apply ThresholdSecret.verify_sign (ThresholdSecret.wellFormed_of_make made) rfl
    · exact (List.take_prefix _ _).map _
    · exact sound.verified

/-- Signing keeps the transaction. What is read from the bytes or from the text of a signed
transaction is the signed transaction, and before and after it belongs to the signer's account and
carries a good signature. -/
theorem signed_transaction_arrives (made : signer.Made) {raw : RawTransaction} (fits : raw.Fits)
    (sound : signer.Sound raw.signingMessage) :
    (signer.sign raw).raw = raw ∧
      SignedTransaction.ofBytes (signer.sign raw).toBytes = .ok (signer.sign raw) ∧
      SignedTransaction.ofHex (signer.sign raw).hex = .ok (signer.sign raw) ∧
      ∀ t, t = signer.sign raw ∨ SignedTransaction.ofBytes (signer.sign raw).toBytes = .ok t ∨
          SignedTransaction.ofHex (signer.sign raw).hex = .ok t →
        t.authenticator.authKey = signer.authKey ∧
          t.authenticator.authKey.address = signer.address ∧ t.verifySignature = true := by
  have whole : (signer.sign raw).Fits := ⟨fits, fits_signMessage made sound⟩
  have bytes := SignedTransaction.ofBytes_toBytes whole
  have text := SignedTransaction.ofHex_hex whole
  refine ⟨rfl, bytes, text, ?_⟩
  intro t arrived
  obtain rfl : t = signer.sign raw := by
    rcases arrived with sent | read | read
    · exact sent
    · exact Except.ok.inj (read.symm.trans bytes)
    · exact Except.ok.inj (read.symm.trans text)
  have account := authKey_signMessage signer raw.signingMessage
  exact ⟨account, congrArg AuthKey.address account, verify_signMessage made sound⟩

namespace Sample

/-- A key from the seed that is all ones. -/
def key : SecretKey := ⟨⟨List.replicate 32 1, rfl⟩⟩

/-- Any two of three members that all hold the one key. -/
def keySet : ThresholdSecret := ⟨List.replicate 3 key, 2⟩

/-- The publication of a module. -/
def publication : RawTransaction where
  sender := .one
  sequenceNumber := 3
  payload := .publish ⟨[]⟩
  maxGasAmount := 4
  gasUnitPrice := 5
  gasCurrency := "XUS"
  expiration := 6
  chainId := 2

theorem isPoint_key : key.publicKey.IsPoint := by decide +kernel

theorem verify_key : key.publicKey.verify publication.signingMessage
    (key.sign publication.signingMessage) = true := by
  -- The kernel hashes the message, signs and checks.
  decide +kernel

theorem accepted_key : ∃ read, PublicKey.ofBytes key.publicKey.toList = .ok read :=
  ⟨key.publicKey, PublicKey.ofBytes_toList_iff.2 isPoint_key⟩

theorem sound_key : (Signer.single key).Sound publication.signingMessage where
  accepted := List.forall_mem_singleton.2 accepted_key
  verified := List.forall_mem_singleton.2 verify_key

theorem sound_keySet : (Signer.threshold keySet).Sound publication.signingMessage where
  accepted member mem := by
    rw [List.eq_of_mem_replicate mem]
    exact accepted_key
  verified member mem := by
    rw [List.eq_of_mem_replicate (List.mem_of_mem_take mem)]
    exact verify_key

theorem fits_publication : publication.Fits :=
  have code : Codec.CountFits 0 := by decide
  ⟨code, by decide⟩

end Sample

theorem publication_arrives :
    ((Signer.single Sample.key).sign Sample.publication).verifySignature = true ∧
      ThresholdSecret.make (List.replicate 3 Sample.key) 2 = .ok Sample.keySet ∧
      SignedTransaction.ofHex ((Signer.threshold Sample.keySet).sign Sample.publication).hex =
        .ok ((Signer.threshold Sample.keySet).sign Sample.publication) ∧
      ((Signer.threshold Sample.keySet).sign Sample.publication).verifySignature = true :=
  have made : ThresholdSecret.make (List.replicate 3 Sample.key) 2 = .ok Sample.keySet := rfl
  have alone := signed_transaction_arrives (.single Sample.key) Sample.fits_publication
    Sample.sound_key
  have shared := signed_transaction_arrives (.threshold made) Sample.fits_publication
    Sample.sound_keySet
  ⟨(alone.2.2.2 _ (.inl rfl)).2.2, made, shared.2.2.1, (shared.2.2.2 _ (.inl rfl)).2.2⟩

end Signer

end LedgerClient
