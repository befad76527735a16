import LedgerClient.Bytes
import LedgerClient.Text.Quoted
import LedgerClient.Text.Utf8

/-!
# Hexadecimal text

Two digits spell a byte, high digit first. Writing uses lower case; reading takes either case.
A text is refused for an odd length before any of its characters is looked at. Lengths and
positions count the bytes of the text in UTF-8, so a character outside ASCII is refused at the
first of its bytes.
-/

set_option autoImplicit false

namespace LedgerClient.Hex

/-- Why a text is not hexadecimal. -/
inductive Fault where
  /-- The number of bytes is odd. -/
  | oddLength
  /-- The byte at `position` is no hexadecimal digit. -/
  | badDigit (byte : UInt8) (position : Nat)
  deriving DecidableEq, Repr

/-- A byte that is no digit is shown as the character of that code. -/
def Fault.message : Fault → String
  | .oddLength => "Odd number of digits"
  | .badDigit byte position =>
    s!"Invalid character {Quoted.char (Char.ofNat byte.toNat)} at position {position}"

/-- The digit of a number below sixteen. -/
def digit (n : Nat) : Char :=
  if n < 10 then Char.ofNat ('0'.toNat + n) else Char.ofNat ('a'.toNat + (n - 10))

/-- The number that a digit of either case, given as a byte of the text, stands for. -/
def digitValue? (c : UInt8) : Option Nat :=
  if 48 ≤ c ∧ c ≤ 57 then some (c.toNat - 48)
  else if 97 ≤ c ∧ c ≤ 102 then some (c.toNat - 87)
  else if 65 ≤ c ∧ c ≤ 70 then some (c.toNat - 55)
  else none

/-- The characters that spell the bytes. -/
def encodeChars : Bytes → List Char
  | [] => []
  | b :: rest => digit (b.toNat / 16) :: digit (b.toNat % 16) :: encodeChars rest

/-- The text that spells the bytes, in lower case. -/
def encode (bytes : Bytes) : String := String.ofList (encodeChars bytes)

@[simp] theorem toList_encode (bytes : Bytes) : (encode bytes).toList = encodeChars bytes :=
  String.toList_ofList

/-- Reads the digits two by two; `position` is the place of the first of them in the text. -/
def decodePairs (position : Nat) : Bytes → Except Fault Bytes
  | [] => .ok []
  | [_] => .error .oddLength
  | high :: low :: rest =>
    match digitValue? high with
    | none => .error (.badDigit high position)
    | some h =>
      match digitValue? low with
      | none => .error (.badDigit low (position + 1))
      | some l =>
        match decodePairs (position + 2) rest with
        | .error fault => .error fault
        | .ok bytes => .ok (UInt8.ofNat (16 * h + l) :: bytes)

/-- The bytes that a text, given by its bytes in UTF-8, spells. -/
def decodeBytes (text : Bytes) : Except Fault Bytes :=
  if text.length % 2 = 1 then .error .oddLength else decodePairs 0 text

/-- The bytes that the text spells. -/
def decode (text : String) : Except Fault Bytes :=
  decodeBytes (Utf8.encode text.toList)

end LedgerClient.Hex
