import LedgerClient.Wire.Buffer
import LedgerClient.Wire.Uleb128

/-!
# Codecs

A codec writes the values of a type behind what a buffer holds and reads them back. Codecs of
larger types are put together from those of their parts: fields one after the other (`pair`), a
counted list, an optional value, one of several alternatives by its index (`union`), and values
that are checked as they are read (`checked`). Writing never fails; reading takes the written form
of a value and no other.
-/

set_option autoImplicit false

namespace LedgerClient

/-- How the values of a type are written and read. -/
structure Codec (α : Type) where
  push : α → Buffer → Buffer
  read : Reader α

namespace Codec

variable {α β γ : Type}

/-- The written form of a value. -/
def write (c : Codec α) (v : α) : Bytes := Buffer.contents (c.push v)

/-- The value whose written form the bytes are. -/
def decode (c : Codec α) (bytes : Bytes) : Except DataError α := c.read.whole bytes

/-- A value is written as `forget` of it, and what is read must pass `check`. -/
def checked (c : Codec α) (check : α → Except DataError β) (forget : β → α) : Codec β where
  push b := c.push (forget b)
  read := .andThen c.read fun a => .ofExcept (check a)

/-- A value is written as `forget` of it and read as `build` of what is read. -/
def via (c : Codec α) (build : α → β) (forget : β → α) : Codec β where
  push b := c.push (forget b)
  read := .andThen c.read fun a => .ok (build a)

/-- Nothing is written. -/
def unit : Codec Unit where
  push _ buffer := buffer
  read := .ok ()

/-- A number in `width` bytes, least significant byte first. -/
def littleEndian (width : Nat) : Codec Nat where
  push n buffer := buffer.add (Bytes.littleEndian width n)
  read := .andThen (.take width) fun bytes => .ok (Bytes.ofLittleEndian bytes)

def u8 : Codec UInt8 where
  push b buffer := buffer.push b
  read := .byte

def u16 : Codec UInt16 := (littleEndian 2).via UInt16.ofNat UInt16.toNat

def u32 : Codec UInt32 := (littleEndian 4).via UInt32.ofNat UInt32.toNat

def u64 : Codec UInt64 := (littleEndian 8).via UInt64.ofNat UInt64.toNat

def u128 : Codec (BitVec 128) := (littleEndian 16).via (BitVec.ofNat 128) BitVec.toNat

/-- One byte, zero or one. -/
def bool : Codec Bool where
  push b buffer := buffer.push (if b then 1 else 0)
  read := .andThen .byte fun b =>
    if b = 0 then .ok false else if b = 1 then .ok true else .fail (.notBool b)

/-- A number in the variable-length form. -/
def number : Codec Nat where
  push n buffer := buffer.add (Uleb128.encode n)
  read := Uleb128.read

/-- So many bytes as they are. -/
def raw (count : Nat) : Codec Bytes where
  push s buffer := buffer.add s
  read := .take count

/-- A byte string with its length in front. -/
def bytes : Codec Bytes where
  push s buffer := (number.push s.length buffer).add s
  read := .andThen Uleb128.read .take

/-- A text as its bytes in UTF-8, with their number in front. -/
def text : Codec String :=
  bytes.checked
    (fun s => match Utf8.decode s with
      | .ok cs => .ok (String.ofList cs)
      | .error fault => .error (.notUtf8 fault))
    (fun s => Utf8.encode s.toList)

/-- Octets as they are. -/
def bare (kind : Octets.Kind) : Codec (Octets kind) :=
  (raw kind.size).checked (Octets.ofBytes kind) Octets.toList

/-- Octets with their number in front. -/
def framed (kind : Octets.Kind) : Codec (Octets kind) :=
  bytes.checked (Octets.ofBytes kind) Octets.toList

/-- One value after the other. -/
def pair (a : Codec α) (b : Codec β) : Codec (α × β) where
  push v buffer := b.push v.2 (a.push v.1 buffer)
  read := .andThen a.read fun x => .andThen b.read fun y => .ok (x, y)

/-- A byte that says whether there is a value, and the value. -/
def option (c : Codec α) : Codec (Option α) where
  push
    | none, buffer => buffer.push 0
    | some v, buffer => c.push v (buffer.push 1)
  read := .andThen .byte fun tag =>
    if tag = 0 then .ok none
    else if tag = 1 then .andThen c.read fun v => .ok (some v)
    else .fail (.notOptionTag tag)

/-- The number of the values, and the values in order. -/
def list (c : Codec α) : Codec (List α) where
  push vs buffer := vs.foldl (fun buffer v => c.push v buffer) (number.push vs.length buffer)
  read := .andThen Uleb128.read fun count => .times count c.read

/-- One alternative of a type: its content, and the way in and out. -/
structure Case (α : Type) where
  {Content : Type}
  content : Codec Content
  build : Content → α
  /-- The content, if the value is of this alternative. -/
  open? : α → Option Content

/-- Writes the value by the first alternative that it belongs to, counting from `index`. -/
def pushCase (index : Nat) : List (Case α) → α → Buffer → Buffer
  | [], _, buffer => buffer
  | case :: rest, v, buffer =>
    match case.open? v with
    | some content => case.content.push content (number.push index buffer)
    | none => pushCase (index + 1) rest v buffer

/-- The place of an alternative in the list, and its content. Places that the list does not have
are refused in the name of the type. -/
def union (typeName : String) (cases : List (Case α)) : Codec α where
  push := pushCase 0 cases
  read := .andThen Uleb128.read fun index =>
    match cases[index]? with
    | some case => .andThen case.content.read fun content => .ok (case.build content)
    | none => .fail (.unknownVariant typeName index)

end Codec

end LedgerClient
