import LedgerClient.DataError

/-!
# Reading octets from bytes and from text

Bytes are a value of a kind when their number is the size of the kind. A text is one when it is
the hexadecimal form of such bytes, in either case; an address may carry the mark `0x` once.
Several values that stand one after the other are read part by part.
-/

set_option autoImplicit false

namespace LedgerClient.Octets

/-- The bytes as a value of the kind. -/
def ofBytes (kind : Kind) (bytes : Bytes) : Except DataError (Octets kind) :=
  match ofList? kind bytes with
  | some x => .ok x
  | none => .error (.wrongLength kind bytes.length)

/-- The text without the mark `0x` in front, if it has one. -/
def dropMark : List Char → List Char
  | '0' :: 'x' :: rest => rest
  | text => text

/-- The digits of a text form: an address may carry the mark `0x`, the other kinds may not. -/
def digits (kind : Kind) (text : String) : String :=
  if kind.marked then String.ofList (dropMark text.toList) else text

/-- The value of the kind whose hexadecimal form the text is. -/
def ofHex (kind : Kind) (text : String) : Except DataError (Octets kind) :=
  match Hex.decode (digits kind text) with
  | .error fault => .error (.notHex fault)
  | .ok bytes => ofBytes kind bytes

/-- Reads each of the parts, up to the first that is refused. -/
def readEach {α : Type} (read : Bytes → Except DataError α) :
    List Bytes → Except DataError (List α)
  | [] => .ok []
  | part :: rest =>
    match read part with
    | .error e => .error e
    | .ok value =>
      match readEach read rest with
      | .error e => .error e
      | .ok values => .ok (value :: values)

end LedgerClient.Octets
