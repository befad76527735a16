import LedgerClient.Client.Basic
import LedgerClient.Signing

/-!
# What a wait expects

A transaction is told by its hash or by its signature. Both are compared as hexadecimal texts
without regard to the case of ASCII letters.
-/

set_option autoImplicit false

namespace LedgerClient

/-- By what a transaction is told. -/
inductive Expectation where
  | hash (digest : Digest)
  | signature (text : String)
  deriving DecidableEq, Repr

namespace Expectation

/-- The text with its ASCII letters in lower case. -/
def lowerCase (text : String) : String := String.ofList (text.toList.map Char.toLower)

/-- The text that is expected. -/
def expected : Expectation → String
  | hash digest => digest.hex
  | signature text => lowerCase text

/-- The text that a record shows in its place. A signature that is missing is empty. -/
def observed (r : Record) : Expectation → String
  | hash _ => r.hash
  | signature _ => r.signature.getD ""

/-- Whether a record is that of the transaction. -/
def isMetBy (e : Expectation) (r : Record) : Bool :=
  lowerCase (e.observed r) == lowerCase e.expected

end Expectation

end LedgerClient
