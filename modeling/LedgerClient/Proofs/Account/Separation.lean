import LedgerClient.Proofs.Threshold.Key
import LedgerClient.Signing

/-!
# Accounts of different keys

What is hashed for an authentication key has no frames: the members of a key set stand one behind
the other, then the threshold and the scheme. It determines the key all the same. Its last byte is
the scheme (`AuthKey.preimage_inj`), and what stands before it are the bytes of a key of that
scheme, which are read from their end (`AccountKey.preimage_inj`). So two keys share an address only
where the digests of two different byte strings end in the same sixteen bytes
(`AccountKey.address_eq_iff`). Nothing is assumed about the digest.
-/

set_option autoImplicit false

namespace LedgerClient

/-- The digests of two different byte strings have the same last sixteen bytes. -/
def Sha3.Collide (x y : Bytes) : Prop :=
  x ≠ y ∧ (digest x).toList.drop 16 = (digest y).toList.drop 16

theorem Scheme.byte_inj : ∀ {scheme other : Scheme}, scheme.byte = other.byte → scheme = other
  | single, single, _ => rfl
  | threshold, threshold, _ => rfl

namespace AuthKey

theorem preimage_inj {bytes other : Bytes} {scheme scheme' : Scheme}
    (same : preimage bytes scheme = preimage other scheme') : bytes = other ∧ scheme = scheme' := by
  obtain ⟨front, last⟩ := List.append_inj' same rfl
  exact ⟨front, Scheme.byte_inj (List.cons.inj last).1⟩

/-- The addresses that belong to two public keys are the same when what is hashed is, or when the
digests collide. -/
theorem address_ofPublicKey_eq_iff {bytes other : Bytes} {scheme scheme' : Scheme} :
    (ofPublicKey bytes scheme).address = (ofPublicKey other scheme').address ↔
      preimage bytes scheme = preimage other scheme'
        ∨ Sha3.Collide (preimage bytes scheme) (preimage other scheme') := by
  have halves : (ofPublicKey bytes scheme).address = (ofPublicKey other scheme').address ↔
      (Sha3.digest (preimage bytes scheme)).toList.drop 16 =
        (Sha3.digest (preimage other scheme')).toList.drop 16 :=
    ⟨congrArg Octets.toList, fun same => Octets.ext same⟩
  rw [halves]
  constructor
  · intro same
    by_cases equal : preimage bytes scheme = preimage other scheme'
    · exact .inl equal
    · exact .inr ⟨equal, same⟩
  · rintro (same | ⟨-, same⟩)
    · rw [same]
    · exact same

end AuthKey

/-- The public key of an account, of either scheme. -/
inductive AccountKey where
  | single (key : PublicKey)
  | threshold (key : ThresholdKey)
  deriving DecidableEq, Repr

namespace AccountKey

def scheme : AccountKey → Scheme
  | single _ => .single
  | threshold _ => .threshold

def toBytes : AccountKey → Bytes
  | single key => key.toList
  | threshold key => key.toBytes

/-- What is hashed for the authentication key. -/
def preimage (key : AccountKey) : Bytes := AuthKey.preimage key.toBytes key.scheme

def authKey : AccountKey → AuthKey
  | single key => key.authKey
  | threshold key => key.authKey

theorem authKey_eq (key : AccountKey) : key.authKey = .ofPublicKey key.toBytes key.scheme := by
  cases key <;> rfl

/-- What is hashed determines the key: the scheme, and then the bytes of a key of this scheme. -/
theorem preimage_inj {key other : AccountKey} (same : key.preimage = other.preimage) :
    key = other := by
  obtain ⟨bytes, scheme⟩ := AuthKey.preimage_inj same
  cases key with
  | single key =>
    cases other with
    | single other => exact congrArg single (PublicKey.toList_inj bytes)
    | threshold _ => cases scheme
  | threshold key =>
    cases other with
    | single _ => cases scheme
    | threshold other => exact congrArg threshold (ThresholdKey.toBytes_inj bytes)

theorem address_eq_iff {key other : AccountKey} :
    key.authKey.address = other.authKey.address ↔
      key = other ∨ Sha3.Collide key.preimage other.preimage := by
  rw [authKey_eq, authKey_eq, AuthKey.address_ofPublicKey_eq_iff]
  exact or_congr_left ⟨preimage_inj, congrArg preimage⟩

end AccountKey

/-- The key that an authenticator carries. -/
def Authenticator.accountKey : Authenticator → AccountKey
  | single key _ => .single key
  | threshold key _ => .threshold key

theorem Authenticator.authKey_accountKey (a : Authenticator) :
    a.accountKey.authKey = a.authKey := by
  cases a <;> rfl

/-- The public half of what a signer holds. -/
def Signer.accountKey : Signer → AccountKey
  | single key => .single key.publicKey
  | threshold key => .threshold key.publicKey

theorem Signer.authKey_accountKey (signer : Signer) :
    signer.accountKey.authKey = signer.authKey := by
  cases signer <;> rfl

/-- The authentication key of an account is the digest of the bytes of its key with the byte of the
scheme behind them, a byte string that no other key of either scheme has. Two keys, two
authenticators or two signers have the same address when the keys are the same, and else only when
the digests of these byte strings collide. -/
theorem accounts_are_separated :
    (∀ key : PublicKey, (AccountKey.single key).preimage = key.toList ++ [0])
      ∧ (∀ key : ThresholdKey, (AccountKey.threshold key).preimage = key.toBytes ++ [1])
      ∧ (∀ key : AccountKey, key.authKey.toList = (Sha3.digest key.preimage).toList)
      ∧ (∀ key other : AccountKey, key.preimage = other.preimage ↔ key = other)
      ∧ (∀ key other : AccountKey, key.authKey.address = other.authKey.address ↔
          key = other ∨ Sha3.Collide key.preimage other.preimage)
      ∧ (∀ a b : Authenticator, a.authKey.address = b.authKey.address ↔
          a.accountKey = b.accountKey ∨ Sha3.Collide a.accountKey.preimage b.accountKey.preimage)
      ∧ ∀ signer other : Signer, signer.address = other.address ↔
          signer.accountKey = other.accountKey
            ∨ Sha3.Collide signer.accountKey.preimage other.accountKey.preimage := by
  refine ⟨fun _ => rfl, fun _ => rfl, fun key => ?_,
    fun key other => ⟨AccountKey.preimage_inj, congrArg _⟩,
    fun key other => AccountKey.address_eq_iff, fun a b => ?_, fun signer other => ?_⟩
  · rw [AccountKey.authKey_eq]
    rfl
  · rw [← a.authKey_accountKey, ← b.authKey_accountKey, AccountKey.address_eq_iff]
  · rw [Signer.address, Signer.address, ← signer.authKey_accountKey, ← other.authKey_accountKey,
      AccountKey.address_eq_iff]

end LedgerClient
