import LedgerClient.Ed25519

/-!
# Bitmaps of signers

Which of at most 32 member keys have signed. Position zero is the highest bit of the first of the
four bytes.
-/

set_option autoImplicit false

namespace LedgerClient

/-- A set of positions below 32. -/
structure Bitmap where
  bits : BitVec 32
  deriving DecidableEq, Repr

namespace Bitmap

/-- The place of a member key among the others. -/
abbrev Position := Fin 32

def empty : Bitmap := ⟨0⟩

def contains (m : Bitmap) (i : Position) : Bool := m.bits.getMsbD i.val

def insert (m : Bitmap) (i : Position) : Bitmap := ⟨m.bits ||| BitVec.twoPow 32 (31 - i.val)⟩

/-- The positions in the set, in increasing order. -/
def toList (m : Bitmap) : List Position := (List.finRange 32).filter m.contains

/-- The number of bits that are set. -/
def count (m : Bitmap) : Nat := (List.finRange 32).countP m.contains

/-- The set of the given positions. -/
def ofList (positions : List Position) : Bitmap := positions.foldl insert empty

/-- The four bytes. -/
def toBytes (m : Bitmap) : Bytes := Bytes.bigEndian 4 m.bits.toNat

/-- The set that four bytes stand for. -/
def ofBytes (bytes : Bytes) : Bitmap := ⟨BitVec.ofNat 32 (Bytes.ofBigEndian bytes)⟩

end Bitmap

end LedgerClient
