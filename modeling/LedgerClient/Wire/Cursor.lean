import LedgerClient.Wire.Reader

/-!
# Cursors

A cursor is a whole input together with a position in it, and unlike unread bytes it can go wrong: a
position behind the end makes the number of the bytes that are left a difference below zero, and a
slice can end where there is no input any more. Both are a `Fault`.

A `Reading` says how a value is read, request by request. It knows the input only by what it asks for,
so that one reading can be carried out on unread bytes, as a reader, and on a cursor.
-/

set_option autoImplicit false

namespace LedgerClient

/-- An input, and how many of its bytes have been read. -/
structure Cursor where
  data : Bytes
  position : Nat
  deriving DecidableEq, Repr

namespace Cursor

/-- What must not happen to a cursor. -/
inductive Fault where
  /-- More bytes have been read than there are. -/
  | underflow
  /-- A slice ends behind the input. -/
  | outOfRange
  deriving DecidableEq, Repr

/-- In front of the input. -/
def start (data : Bytes) : Cursor := ⟨data, 0⟩

/-- What is behind the position. -/
def unread (c : Cursor) : Bytes := c.data.drop c.position

/-- The number of bytes behind the position. -/
def remaining (c : Cursor) : Except Fault Nat :=
  if c.position ≤ c.data.length then .ok (c.data.length - c.position) else .error .underflow

/-- So many bytes of the input from a place on. -/
def slice (c : Cursor) (place count : Nat) : Except Fault (Octets (.plain count)) :=
  if h : place + count ≤ c.data.length then
    .ok ⟨(c.data.drop place).take count, by
      have enough : count ≤ (c.data.drop place).length := by
        rw [List.length_drop]
        omega
      exact List.length_take_of_le enough⟩
  else .error .outOfRange

/-- The next `count` bytes; where fewer remain, none is taken. -/
def take (c : Cursor) (count : Nat) :
    Except Fault (Except DataError (Octets (.plain count)) × Cursor) :=
  match c.remaining with
  | .error fault => .error fault
  | .ok left =>
    if left < count then .ok (.error .endOfInput, c)
    else
      match c.slice c.position count with
      | .error fault => .error fault
      | .ok bytes => .ok (.ok bytes, { c with position := c.position + count })

end Cursor

/-- How a value is read. -/
inductive Reading (α : Type) where
  /-- Nothing more is asked for. -/
  | answer (result : Except DataError α)
  /-- So many bytes are asked for, and the reading ends where fewer remain. -/
  | take (count : Nat) (next : Octets (.plain count) → Reading α)
  /-- The number of the remaining bytes is asked for. -/
  | remaining (next : Nat → Reading α)

namespace Reading

variable {α β : Type}

/-- The second reading goes on with the value of the first one. -/
def andThen : Reading α → (α → Reading β) → Reading β
  | answer (.ok a), f => f a
  | answer (.error e), _ => answer (.error e)
  | take count next, f => take count fun bytes => (next bytes).andThen f
  | remaining next, f => remaining fun left => (next left).andThen f

/-- The reading carried out on unread bytes. -/
def onUnread : Reading α → Reader α
  | answer result => .ofExcept result
  | take count next => fun unread =>
    if h : (unread.take count).length = count then
      (next ⟨unread.take count, h⟩).onUnread (unread.drop count)
    else (.error .endOfInput, unread)
  | remaining next => fun unread => (next unread.length).onUnread unread

/-- The reading carried out on a cursor. -/
def onCursor : Reading α → Cursor → Except Cursor.Fault (Except DataError α × Cursor)
  | answer result, c => .ok (result, c)
  | take count next, c =>
    match c.take count with
    | .error fault => .error fault
    | .ok (.error e, after) => .ok (.error e, after)
    | .ok (.ok bytes, after) => (next bytes).onCursor after
  | remaining next, c =>
    match c.remaining with
    | .error fault => .error fault
    | .ok left => (next left).onCursor c

end Reading

end LedgerClient
