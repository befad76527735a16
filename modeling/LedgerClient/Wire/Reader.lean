import LedgerClient.Octets.Forms

/-!
# Readers

A reader takes the unread bytes to an answer and to the bytes that it leaves unread. The second
half is there when the answer is an error too: a reading that fails stops somewhere, and the next
one goes on from that place. A fixed number of bytes is read whole or not at all.
-/

set_option autoImplicit false

namespace LedgerClient

/-- From the unread bytes to an answer and what is then unread. -/
def Reader (α : Type) : Type := Bytes → Except DataError α × Bytes

namespace Reader

variable {α β : Type}

/-- Answers without reading. -/
def ok (a : α) : Reader α := fun unread => (.ok a, unread)

/-- Fails without reading. -/
def fail (e : DataError) : Reader α := fun unread => (.error e, unread)

/-- Answers or fails as `e` says, without reading. -/
def ofExcept (e : Except DataError α) : Reader α := fun unread => (e, unread)

/-- Reads with `r` and then with what `next` makes of the answer, unless `r` fails. -/
def andThen (r : Reader α) (next : α → Reader β) : Reader β := fun unread =>
  match r unread with
  | (.ok a, rest) => next a rest
  | (.error e, rest) => (.error e, rest)

/-- One byte. -/
def byte : Reader UInt8
  | [] => (.error .endOfInput, [])
  | b :: rest => (.ok b, rest)

@[simp] theorem byte_cons (b : UInt8) (rest : Bytes) : byte (b :: rest) = (.ok b, rest) := rfl

/-- The next `count` bytes; where fewer are left, none is read. -/
def take (count : Nat) : Reader Bytes := fun unread =>
  if (unread.take count).length = count then (.ok (unread.take count), unread.drop count)
  else (.error .endOfInput, unread)

/-- `r` so many times over, up to its first failure. -/
def times : (count : Nat) → (r : Reader α) → Reader (List α)
  | 0, _ => ok []
  | count + 1, r => andThen r fun a => andThen (times count r) fun rest => ok (a :: rest)

/-- Accepts the end of the input only. -/
def finish : Reader Unit
  | [] => (.ok (), [])
  | unread => (.error (.trailing unread.length), unread)

/-- What `r` makes of the whole input. -/
def whole (r : Reader α) (bytes : Bytes) : Except DataError α :=
  (andThen r fun a => andThen finish fun _ => ok a) bytes |>.1

end Reader

end LedgerClient
