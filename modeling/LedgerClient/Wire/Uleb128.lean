import LedgerClient.Wire.Reader

/-!
# Variable-length numbers

A number as groups of seven bits, low group first, with the high bit set on every byte but the
last. Lengths and indices are written so. The reader takes the shortest form only, and numbers of
at most 32 bits only, which is at most five bytes.
-/

set_option autoImplicit false

namespace LedgerClient.Uleb128

/-- The shortest form of a number. -/
def encode (n : Nat) : Bytes :=
  if n < 128 then [UInt8.ofNat n] else UInt8.ofNat (128 + n % 128) :: encode (n / 128)
termination_by n
decreasing_by omega

/-- Reads at most `groups` groups. Only the group that is `first` may end the number with zero. -/
def readGroups : (groups : Nat) → (first : Bool) → Reader Nat
  | 0, _ => .fail .numberTooLarge
  | groups + 1, first =>
    .andThen .byte fun b =>
      if b < 128 then
        if !first && b == 0 then .fail .numberNotMinimal else .ok b.toNat
      else
        .andThen (readGroups groups false) fun high => .ok (b.toNat - 128 + 128 * high)

/-- Reads a number of at most 32 bits. -/
def read : Reader Nat :=
  .andThen (readGroups 5 true) fun n => if n < UInt32.size then .ok n else .fail .numberTooLarge

end LedgerClient.Uleb128
