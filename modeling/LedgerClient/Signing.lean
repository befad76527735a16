import LedgerClient.Transaction

/-!
# Signing transactions

The sender signs the written form of a transaction behind the digest that belongs to its type.
A signer is a single key or a key set.
-/

set_option autoImplicit false

namespace LedgerClient

/-- What the sender of a transaction signs. -/
def RawTransaction.signingMessage (raw : RawTransaction) : Bytes :=
  Buffer.contents fun buffer =>
    RawTransaction.codec.push raw ((Codec.bare .digest).push (hashPrefix "RawTransaction") buffer)

/-- Who signs. -/
inductive Signer where
  | single (key : SecretKey)
  | threshold (key : ThresholdSecret)

namespace Signer

/-- The signature of a message, with the public key. -/
def signMessage (message : Bytes) : Signer → Authenticator
  | single key => .single key.publicKey (key.sign message)
  | threshold key => .threshold key.publicKey (key.sign message)

/-- The authentication key of the signer's account. -/
def authKey : Signer → AuthKey
  | single key => key.publicKey.authKey
  | threshold key => key.publicKey.authKey

/-- The address of the signer's account. -/
def address (signer : Signer) : Address := signer.authKey.address

/-- The transaction with the signer's authenticator. -/
def sign (signer : Signer) (raw : RawTransaction) : SignedTransaction :=
  { raw, authenticator := signer.signMessage raw.signingMessage }

end Signer

namespace SignedTransaction

/-- What is hashed for a transaction of a user: its written form behind the index zero, which the
transactions of users have in the envelope. -/
def enveloped (t : SignedTransaction) : Bytes :=
  Buffer.contents fun buffer => codec.push t (Codec.number.push 0 buffer)

/-- The digest under which the transaction is committed. -/
def hash (t : SignedTransaction) : Digest := prefixedHash "Transaction" t.enveloped

/-- Whether the authenticator's signature is good for the transaction. -/
def verifySignature (t : SignedTransaction) : Bool :=
  t.authenticator.verify t.raw.signingMessage

end SignedTransaction

end LedgerClient
