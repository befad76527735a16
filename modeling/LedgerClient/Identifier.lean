import LedgerClient.Wire.Codec

/-!
# Identifiers

The names of modules and types: a letter followed by letters, digits and underscores, or an
underscore followed by at least one of these, all of them ASCII. The type carries the proof that
its text is such a name, so a name that was read needs no second look.
-/

set_option autoImplicit false

namespace LedgerClient

/-- Why a value of the schema is refused: it has a name that is none, or its data is bad. -/
inductive SchemaError where
  | notIdentifier (text : String)
  | data (cause : DataError)
  deriving DecidableEq, Repr

def SchemaError.message : SchemaError → String
  | notIdentifier text => s!"invalid identifier: {Quoted.text text}"
  | data cause => s!"primitives error: {cause.message}"

namespace Identifier

/-- Whether a character may stand after the first one. -/
def isBody (c : Char) : Bool := c.isAlphanum || c == '_'

/-- Whether the characters form a name. An underscore may be the first one if the text has more than
one byte. -/
def isName : List Char → Bool
  | [] => false
  | c :: rest =>
    (c.isAlpha || (c == '_' && decide (1 < (Utf8.encode (c :: rest)).length))) && rest.all isBody

end Identifier

/-- A text that is a name. -/
structure Identifier where
  text : String
  valid : Identifier.isName text.toList = true
  deriving DecidableEq, Repr

namespace Identifier

/-- The text as a name, if it is one. -/
def ofString? (text : String) : Option Identifier :=
  if h : isName text.toList = true then some ⟨text, h⟩ else none

/-- The text as a name. -/
def ofString (text : String) : Except SchemaError Identifier :=
  match ofString? text with
  | some name => .ok name
  | none => .error (.notIdentifier text)

/-- Names are ordered by their bytes. -/
def order (a b : Identifier) : Ordering :=
  (Utf8.encode a.text.toList).order (Utf8.encode b.text.toList)

/-- A name is written as its text; a text that is no name is refused when it is read. -/
def codec : Codec Identifier :=
  Codec.text.checked
    (fun text => match ofString? text with
      | some name => .ok name
      | none => .error (.notIdentifier text))
    Identifier.text

end Identifier

end LedgerClient
