import LedgerClient.Json.Document

/-!
# The grammar of JSON texts

From the characters of a text to its tree. Each reader takes the characters that are left to what
it finds in front and to the characters behind it. Blanks may stand around every part; names are
quoted, items are separated by single commas, and numbers have no leading zeros.
-/

set_option autoImplicit false

namespace LedgerClient.Json.Grammar

/-- Whether a character may stand between the parts. -/
def isBlank (c : Char) : Bool := c == ' ' || c == '\n' || c == '\t' || c == '\r'

/-- The characters behind the blanks in front. -/
def skipBlanks (cs : List Char) : List Char := cs.dropWhile isBlank

/-- The value of a decimal digit. -/
def digitValue (c : Char) : Nat := c.toNat - '0'.toNat

/-- The digits in front. -/
def digits (cs : List Char) : List Nat × List Char :=
  ((cs.takeWhile Char.isDigit).map digitValue, cs.dropWhile Char.isDigit)

/-- The number that digits spell. -/
def numeral (ds : List Nat) : Nat := ds.foldl (fun n d => 10 * n + d) 0

/-- One digit at least. -/
def someDigits (cs : List Char) : Option (List Nat × List Char) :=
  match digits cs with
  | ([], _) => none
  | found => some found

/-- The digits in front of the point: a zero stands alone. -/
def whole : List Char → Option (List Nat × List Char)
  | '0' :: rest => some ([0], rest)
  | cs => someDigits cs

/-- The point and the digits behind it, or neither. -/
def fraction : List Char → Option (List Nat × List Char)
  | '.' :: rest => someDigits rest
  | cs => some ([], cs)

/-- The digits of an exponent behind its sign. -/
def exponentDigits (negative : Bool) (cs : List Char) : Option (Option Int × List Char) :=
  match someDigits cs with
  | none => none
  | some (ds, rest) =>
    some (some (if negative then -(numeral ds : Int) else numeral ds), rest)

/-- An exponent behind its letter. -/
def signedExponent : List Char → Option (Option Int × List Char)
  | '-' :: rest => exponentDigits true rest
  | '+' :: rest => exponentDigits false rest
  | cs => exponentDigits false cs

/-- The letter of an exponent and the exponent, or neither. -/
def exponent : List Char → Option (Option Int × List Char)
  | 'e' :: rest => signedExponent rest
  | 'E' :: rest => signedExponent rest
  | cs => some (none, cs)

/-- A number behind its sign. -/
def unsigned (negative : Bool) (cs : List Char) : Option (Literal × List Char) :=
  match whole cs with
  | none => none
  | some (whole, rest) =>
    match fraction rest with
    | none => none
    | some (fraction, rest) =>
      match exponent rest with
      | none => none
      | some (exponent, rest) => some ({ negative, whole, fraction, exponent }, rest)

def number : List Char → Option (Literal × List Char)
  | '-' :: rest => unsigned true rest
  | cs => unsigned false cs

/-- A part of a string: a character, or a code of sixteen bits that an escape gives. -/
inductive Part where
  | char (c : Char)
  | code (n : Nat)
  deriving DecidableEq, Repr

/-- The character that a letter behind a backslash stands for. -/
def letterEscape? : Char → Option Char
  | '"' => some '"'
  | '\\' => some '\\'
  | '/' => some '/'
  | 'b' => some (Char.ofNat 8)
  | 'f' => some (Char.ofNat 12)
  | 'n' => some '\n'
  | 'r' => some '\r'
  | 't' => some '\t'
  | _ => none

/-- The value of a hexadecimal digit of either case. -/
def hexValue? (c : Char) : Option Nat :=
  if '0' ≤ c ∧ c ≤ '9' then some (c.toNat - 48)
  else if 'a' ≤ c ∧ c ≤ 'f' then some (c.toNat - 87)
  else if 'A' ≤ c ∧ c ≤ 'F' then some (c.toNat - 55)
  else none

/-- The code that four hexadecimal digits spell. -/
def hexCode? (a b c d : Char) : Option Nat :=
  match hexValue? a, hexValue? b, hexValue? c, hexValue? d with
  | some a, some b, some c, some d => some (((16 * a + b) * 16 + c) * 16 + d)
  | _, _, _, _ => none

/-- The parts of a string behind its first quote, up to the closing one. -/
def parts : List Char → Option (List Part × List Char)
  | [] => none
  | '"' :: rest => some ([], rest)
  | '\\' :: 'u' :: a :: b :: c :: d :: rest =>
    match hexCode? a b c d, parts rest with
    | some n, some (found, rest) => some (.code n :: found, rest)
    | _, _ => none
  | '\\' :: letter :: rest =>
    match letterEscape? letter, parts rest with
    | some c, some (found, rest) => some (.char c :: found, rest)
    | _, _ => none
  | c :: rest =>
    if c = '\\' ∨ c.toNat < 32 then none
    else
      match parts rest with
      | some (found, rest) => some (.char c :: found, rest)
      | none => none

/-- Whether a code is the first half of a surrogate pair. -/
def isHighHalf (n : Nat) : Bool := 0xD800 ≤ n && n < 0xDC00

/-- Whether a code is the second half of a surrogate pair. -/
def isLowHalf (n : Nat) : Bool := 0xDC00 ≤ n && n < 0xE000

/-- The character of a surrogate pair. -/
def joinHalves (high low : Nat) : Char :=
  Char.ofNat (0x10000 + (high - 0xD800) * 0x400 + (low - 0xDC00))

/-- The characters of the parts, unless half of a surrogate pair stands alone. -/
def characters? : List Part → Option (List Char)
  | [] => some []
  | .char c :: rest => (characters? rest).map (c :: ·)
  | .code high :: .code low :: rest =>
    if isHighHalf high then
      if isLowHalf low then (characters? rest).map (joinHalves high low :: ·) else none
    else if isLowHalf high then none
    else (characters? (.code low :: rest)).map (Char.ofNat high :: ·)
  | .code n :: rest =>
    if isHighHalf n || isLowHalf n then none else (characters? rest).map (Char.ofNat n :: ·)

/-- A string behind its first quote. -/
def string (cs : List Char) : Option (Option String × List Char) :=
  (parts cs).map fun (found, rest) => ((characters? found).map String.ofList, rest)

/-- The characters behind the word, if it stands in front. -/
def word (expected : List Char) (cs : List Char) : Option (List Char) :=
  if expected.isPrefixOf cs then some (cs.drop expected.length) else none

mutual

/-- A value. The first argument bounds the number of steps. -/
def value : Nat → List Char → Option (Document × List Char)
  | 0, _ => none
  | steps + 1, cs =>
    match skipBlanks cs with
    | 'n' :: rest => (word ['u', 'l', 'l'] rest).map fun rest => (.null, rest)
    | 't' :: rest => (word ['r', 'u', 'e'] rest).map fun rest => (.bool true, rest)
    | 'f' :: rest => (word ['a', 'l', 's', 'e'] rest).map fun rest => (.bool false, rest)
    | '"' :: rest => (string rest).map fun (s, rest) => (.string s, rest)
    | '[' :: rest =>
      match skipBlanks rest with
      | ']' :: rest => some (.array [], rest)
      | _ => (items steps rest).map fun (found, rest) => (.array found, rest)
    | '\x7b' :: rest =>
      match skipBlanks rest with
      | '\x7d' :: rest => some (.object [], rest)
      | _ => (members steps rest).map fun (found, rest) => (.object found, rest)
    | cs => (number cs).map fun (literal, rest) => (.number literal, rest)

/-- The items of an array that is not empty, and the bracket behind them. -/
def items : Nat → List Char → Option (List Document × List Char)
  | 0, _ => none
  | steps + 1, cs =>
    match value steps cs with
    | none => none
    | some (item, rest) =>
      match skipBlanks rest with
      | ']' :: rest => some ([item], rest)
      | ',' :: rest => (items steps rest).map fun (found, rest) => (item :: found, rest)
      | _ => none

/-- The members of an object that is not empty, and the brace behind them. -/
def members : Nat → List Char → Option (List (Option String × Document) × List Char)
  | 0, _ => none
  | steps + 1, cs =>
    match skipBlanks cs with
    | '"' :: rest =>
      match string rest with
      | none => none
      | some (name, rest) =>
        match skipBlanks rest with
        | ':' :: rest =>
          match value steps rest with
          | none => none
          | some (item, rest) =>
            match skipBlanks rest with
            | '\x7d' :: rest => some ([(name, item)], rest)
            | ',' :: rest =>
              (members steps rest).map fun (found, rest) => ((name, item) :: found, rest)
            | _ => none
        | _ => none
    | _ => none

end

/-- The tree of a whole text. Two steps for each character and two more are enough. -/
def document? (text : List Char) : Option Document :=
  match value (2 * text.length + 2) text with
  | none => none
  | some (found, rest) => if (skipBlanks rest).isEmpty then some found else none

end LedgerClient.Json.Grammar
