import LedgerClient.Account

/-!
# Authenticators

A public key together with a signature under it, of either scheme.
-/

set_option autoImplicit false

namespace LedgerClient

/-- A public key and a signature. -/
inductive Authenticator where
  | single (key : PublicKey) (signature : Signature)
  | threshold (key : ThresholdKey) (signature : ThresholdSignature)
  deriving DecidableEq, Repr

namespace Authenticator

/-- The alternatives in the order of their indices. -/
def cases : List (Codec.Case Authenticator) :=
  [{ content := PublicKey.codec.pair (Codec.framed .signature),
     build := fun (key, signature) => single key signature,
     open? := fun | single key signature => some (key, signature) | _ => none },
   { content := ThresholdKey.codec.pair ThresholdSignature.codec,
     build := fun (key, signature) => threshold key signature,
     open? := fun | threshold key signature => some (key, signature) | _ => none }]

def codec : Codec Authenticator := .union "TransactionAuthenticator" cases

def scheme : Authenticator → Scheme
  | single _ _ => .single
  | threshold _ _ => .threshold

/-- The bytes of the key. -/
def keyBytes : Authenticator → Bytes
  | single key _ => key.toList
  | threshold key _ => key.toBytes

/-- The bytes of the signature. -/
def signatureBytes : Authenticator → Bytes
  | single _ signature => signature.toList
  | threshold _ signature => signature.toBytes

/-- The authentication key of the account that the key belongs to. -/
def authKey (a : Authenticator) : AuthKey := AuthKey.ofPublicKey a.keyBytes a.scheme

/-- Whether the signature of the message is good under the key. -/
def verify (message : Bytes) : Authenticator → Bool
  | single key signature => key.verify message signature
  | threshold key signature => signature.verify message key

end Authenticator

end LedgerClient
