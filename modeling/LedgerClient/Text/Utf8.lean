import LedgerClient.Bytes

/-!
# UTF-8

Characters as one to four bytes. Reading takes the shortest form of each character only, refuses
surrogates and codes above U+10FFFF, and tells a sequence that is wrong from one that the input
cuts off. Both a reader that refuses bad bytes and one that replaces them are here; they share
`head`, which looks at the first character alone.
-/

set_option autoImplicit false

namespace LedgerClient.Utf8

/-- Why bytes are not UTF-8. `start` is the number of good bytes in front of the bad ones. -/
inductive Fault where
  /-- `length` bytes from `start` on cannot begin any character. -/
  | invalid (start length : Nat)
  /-- The input ends inside the character that begins at `start`. -/
  | incomplete (start : Nat)
  deriving DecidableEq, Repr

def Fault.message : Fault → String
  | .invalid start length => s!"invalid utf-8 sequence of {length} bytes from index {start}"
  | .incomplete start => s!"incomplete utf-8 byte sequence from index {start}"

/-- The bytes of a character. -/
def encodeChar (c : Char) : Bytes :=
  let n := c.toNat
  if n < 0x80 then [UInt8.ofNat n]
  else if n < 0x800 then
    [UInt8.ofNat (0xC0 + n / 0x40), UInt8.ofNat (0x80 + n % 0x40)]
  else if n < 0x10000 then
    [UInt8.ofNat (0xE0 + n / 0x1000), UInt8.ofNat (0x80 + n / 0x40 % 0x40),
      UInt8.ofNat (0x80 + n % 0x40)]
  else
    [UInt8.ofNat (0xF0 + n / 0x40000), UInt8.ofNat (0x80 + n / 0x1000 % 0x40),
      UInt8.ofNat (0x80 + n / 0x40 % 0x40), UInt8.ofNat (0x80 + n % 0x40)]

/-- The bytes of a text. -/
def encode (text : List Char) : Bytes := text.flatMap encodeChar

@[simp] theorem encode_nil : encode [] = [] := rfl

@[simp] theorem encode_cons (c : Char) (text : List Char) :
    encode (c :: text) = encodeChar c ++ encode text :=
  List.flatMap_cons

/-- What stands at the front of a byte string. -/
inductive Head where
  | finished
  | char (c : Char) (rest : Bytes)
  /-- The first `length` bytes cannot begin any character; `rest` follows them. -/
  | invalid (length : Nat) (rest : Bytes)
  /-- The input ends inside a character. -/
  | incomplete

/-- Whether a byte continues a character. -/
def isContinuation (b : UInt8) : Bool := 0x80 ≤ b ∧ b ≤ 0xBF

/-- Whether `b` may follow the first byte `a` of a character of three or four bytes. The narrower
ranges keep out forms that are too long, surrogates, and codes above U+10FFFF. -/
def isSecond (a b : UInt8) : Bool :=
  if a = 0xE0 then 0xA0 ≤ b ∧ b ≤ 0xBF
  else if a = 0xED then 0x80 ≤ b ∧ b ≤ 0x9F
  else if a = 0xF0 then 0x90 ≤ b ∧ b ≤ 0xBF
  else if a = 0xF4 then 0x80 ≤ b ∧ b ≤ 0x8F
  else isContinuation b

/-- Looks at the first character. The length of a bad sequence is that of its longest part that
could still begin a character, and at least one. -/
def head : Bytes → Head
  | [] => .finished
  | a :: rest =>
    if a < 0x80 then .char (Char.ofNat a.toNat) rest
    else if 0xC2 ≤ a ∧ a ≤ 0xDF then
      match rest with
      | [] => .incomplete
      | b :: rest₁ =>
        if isContinuation b then
          .char (Char.ofNat ((a.toNat - 0xC0) * 0x40 + (b.toNat - 0x80))) rest₁
        else .invalid 1 rest
    else if 0xE0 ≤ a ∧ a ≤ 0xEF then
      match rest with
      | [] => .incomplete
      | b :: rest₁ =>
        if isSecond a b then
          match rest₁ with
          | [] => .incomplete
          | c :: rest₂ =>
            if isContinuation c then
              .char (Char.ofNat ((a.toNat - 0xE0) * 0x1000 + (b.toNat - 0x80) * 0x40
                + (c.toNat - 0x80))) rest₂
            else .invalid 2 rest₁
        else .invalid 1 rest
    else if 0xF0 ≤ a ∧ a ≤ 0xF4 then
      match rest with
      | [] => .incomplete
      | b :: rest₁ =>
        if isSecond a b then
          match rest₁ with
          | [] => .incomplete
          | c :: rest₂ =>
            if isContinuation c then
              match rest₂ with
              | [] => .incomplete
              | d :: rest₃ =>
                if isContinuation d then
                  .char (Char.ofNat ((a.toNat - 0xF0) * 0x40000 + (b.toNat - 0x80) * 0x1000
                    + (c.toNat - 0x80) * 0x40 + (d.toNat - 0x80))) rest₃
                else .invalid 3 rest₂
            else .invalid 2 rest₁
        else .invalid 1 rest
    else .invalid 1 rest

theorem length_lt_of_head_eq_char {bytes rest : Bytes} {c : Char}
    (h : head bytes = .char c rest) : rest.length < bytes.length := by
  unfold head at h
  repeat' split at h
  all_goals grind

theorem length_lt_of_head_eq_invalid {bytes rest : Bytes} {n : Nat}
    (h : head bytes = .invalid n rest) : rest.length < bytes.length := by
  unfold head at h
  repeat' split at h
  all_goals grind

/-- Reads characters to the end of the input; `start` is the number of bytes read before. -/
def decodeFrom (start : Nat) (bytes : Bytes) : Except Fault (List Char) :=
  match _h : head bytes with
  | .finished => .ok []
  | .incomplete => .error (.incomplete start)
  | .invalid length _ => .error (.invalid start length)
  | .char c rest =>
    match decodeFrom (start + (bytes.length - rest.length)) rest with
    | .error fault => .error fault
    | .ok text => .ok (c :: text)
termination_by bytes.length
decreasing_by exact length_lt_of_head_eq_char _h

/-- The text that the bytes spell. -/
def decode (bytes : Bytes) : Except Fault (List Char) := decodeFrom 0 bytes

/-- The text that the bytes spell, with U+FFFD for each sequence that spells nothing. -/
def decodeLossy (bytes : Bytes) : List Char :=
  match _h : head bytes with
  | .finished => []
  | .incomplete => [Char.ofNat 0xFFFD]
  | .invalid _ rest => Char.ofNat 0xFFFD :: decodeLossy rest
  | .char c rest => c :: decodeLossy rest
termination_by bytes.length
decreasing_by
  · exact length_lt_of_head_eq_invalid _h
  · exact length_lt_of_head_eq_char _h

end LedgerClient.Utf8
