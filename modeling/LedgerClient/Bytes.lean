/-!
# Byte strings

A byte string is a list of bytes, so that reading is recursion on the list and writing is
concatenation. This module also holds the fixed-width little-endian form of numbers.
-/

set_option autoImplicit false

namespace LedgerClient

/-- A string of bytes, first byte first. -/
abbrev Bytes := List UInt8

namespace Bytes

/-- The `width` low bytes of `n`, least significant byte first. -/
def littleEndian : (width n : Nat) → Bytes
  | 0, _ => []
  | width + 1, n => UInt8.ofNat n :: littleEndian width (n / 256)

/-- The number that the bytes spell, least significant byte first. -/
def ofLittleEndian : Bytes → Nat
  | [] => 0
  | b :: rest => b.toNat + 256 * ofLittleEndian rest

@[simp] theorem length_littleEndian (width n : Nat) : (littleEndian width n).length = width := by
  induction width generalizing n with
  | zero => rfl
  | succ width ih => simp [littleEndian, ih]

/-- The number that the bytes spell, most significant byte first. -/
def ofBigEndian (bytes : Bytes) : Nat := ofLittleEndian bytes.reverse

/-- The `width` low bytes of `n`, most significant byte first. -/
def bigEndian (width n : Nat) : Bytes := (littleEndian width n).reverse

/-- The first `count` parts of `size` bytes each. -/
def chunks (size : Nat) : (count : Nat) → Bytes → List Bytes
  | 0, _ => []
  | count + 1, bytes => bytes.take size :: chunks size count (bytes.drop size)

/-- Bytes compared by the first place at which they differ; a proper beginning comes first. -/
def order (a b : Bytes) : Ordering := compare a b

end Bytes

end LedgerClient
