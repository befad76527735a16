import LedgerClient.Bytes

/-!
# Buffers

What has been written so far. A writer puts its bytes behind those that the buffer holds, and the
buffer is an array, so that this takes no longer the more it holds.
-/

set_option autoImplicit false

namespace LedgerClient

/-- The bytes that have been written, first byte first. -/
abbrev Buffer := Array UInt8

namespace Buffer

/-- A buffer that holds nothing. -/
def empty : Buffer := #[]

/-- The buffer with the bytes behind those that it holds. -/
def add (buffer : Buffer) (bytes : Bytes) : Buffer := bytes.foldl Array.push buffer

/-- The bytes that `push` puts into an empty buffer. -/
def contents (push : Buffer → Buffer) : Bytes := (push empty).toList

@[simp] theorem toList_add (buffer : Buffer) (bytes : Bytes) :
    (buffer.add bytes).toList = buffer.toList ++ bytes := by
  simp [add]

end Buffer

end LedgerClient
