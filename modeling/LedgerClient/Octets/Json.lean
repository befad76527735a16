import LedgerClient.Json.Basic
import LedgerClient.Octets.Forms

/-!
# Octets as parsed text and in JSON

The text form of octets is also what general parsing of text takes, for addresses, digests,
sub-addresses and event keys. In JSON an address or a digest is a string with its text form, and
nothing but a string is read as one.
-/

set_option autoImplicit false

namespace LedgerClient.Octets

/-- Why a JSON value is not read as octets. -/
inductive JsonFault where
  /-- The value is not a string. -/
  | notString
  /-- The string is not a text form. -/
  | data (cause : DataError)
  deriving DecidableEq, Repr

/-- The value that text is parsed as. -/
def ofText (kind : Kind) (text : String) : Except DataError (Octets kind) := ofHex kind text

/-- The value as a JSON value. -/
def toJson {kind : Kind} (x : Octets kind) : Json := .string x.hex

/-- The value that a JSON value is read as. -/
def ofJson (kind : Kind) : Json → Except JsonFault (Octets kind)
  | .string text => (ofHex kind text).mapError .data
  | _ => .error .notString

end LedgerClient.Octets
