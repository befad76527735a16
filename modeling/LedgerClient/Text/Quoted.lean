import LedgerClient.Text.Visible

/-!
# Quoted text

A text in double quotes or a character in single quotes, as error messages show them: the quote
itself and the backslash are escaped, the common controls have a letter, and every other character
that has no form of its own is written by its code in hexadecimal.
-/

set_option autoImplicit false

namespace LedgerClient.Quoted

/-- The lower-case hexadecimal digits of a number, without leading zeros. -/
def hexDigits (n : Nat) : List Char := Nat.toDigits 16 n

/-- The code of a character in braces. -/
def escapeCode (c : Char) : List Char :=
  ['\\', 'u', '\x7b'] ++ hexDigits c.toNat ++ ['\x7d']

/-- A character between quotes of the kind `quote`. -/
def escape (quote c : Char) : List Char :=
  if c = Char.ofNat 0 then ['\\', '0']
  else if c = '\t' then ['\\', 't']
  else if c = '\n' then ['\\', 'n']
  else if c = '\r' then ['\\', 'r']
  else if c = '\\' ∨ c = quote then ['\\', c]
  else if Visible.isShown c then [c]
  else escapeCode c

/-- A character in single quotes. -/
def char (c : Char) : String := String.ofList ('\'' :: escape '\'' c ++ ['\''])

/-- A text in double quotes. -/
def text (s : String) : String := String.ofList ('"' :: s.toList.flatMap (escape '"') ++ ['"'])

end LedgerClient.Quoted
