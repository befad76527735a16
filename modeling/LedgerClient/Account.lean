import LedgerClient.Threshold.Signature
import LedgerClient.Digest.Sha3

/-!
# Accounts

The authentication key of an account is the digest of its public key followed by a byte for the
signature scheme, so that keys of different schemes never have the same preimage. The second half
of the authentication key is the address.
-/

set_option autoImplicit false

namespace LedgerClient

/-- How the transactions of an account are signed. -/
inductive Scheme where
  | single
  | threshold
  deriving DecidableEq, Repr

/-- The byte that stands for the scheme. -/
def Scheme.byte : Scheme → UInt8
  | single => 0
  | threshold => 1

namespace AuthKey

/-- What is hashed for an authentication key. -/
def preimage (publicKey : Bytes) (scheme : Scheme) : Bytes := publicKey ++ [scheme.byte]

/-- The authentication key of a public key, given by its bytes. -/
def ofPublicKey (publicKey : Bytes) (scheme : Scheme) : AuthKey :=
  ⟨(Sha3.digest (preimage publicKey scheme)).toList, (Sha3.digest _).length_toList⟩

/-- The last sixteen bytes. -/
def address (key : AuthKey) : Address :=
  ⟨key.toList.drop 16, by simp [key.length_toList, Octets.Kind.size]⟩

/-- The first sixteen bytes. -/
def leading (key : AuthKey) : Bytes := key.toList.take 16

end AuthKey

/-- The authentication key of an account with a single key. -/
def PublicKey.authKey (key : PublicKey) : AuthKey := AuthKey.ofPublicKey key.toList .single

/-- The authentication key of an account with a key set. -/
def ThresholdKey.authKey (key : ThresholdKey) : AuthKey :=
  AuthKey.ofPublicKey key.toBytes .threshold

/-- The digest that keeps the hashes of one type of value apart from those of the others. -/
def hashPrefix (typeName : String) : Digest :=
  Sha3.digest (Utf8.encode ("DIEM::" ++ typeName).toList)

/-- The digest of bytes as a value of the named type. -/
def prefixedHash (typeName : String) (bytes : Bytes) : Digest :=
  Sha3.digest ((hashPrefix typeName).toList ++ bytes)

end LedgerClient
