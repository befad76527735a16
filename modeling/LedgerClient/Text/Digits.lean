/-!
# Decimal digits

Digits of a fixed number of places, and digits without the zeros at their end.
-/

set_option autoImplicit false

namespace LedgerClient.Digits

/-- The decimal digits of `n`, with zeros in front up to `width`. -/
def padded (width n : Nat) : List Char :=
  let digits := (toString n).toList
  List.replicate (width - digits.length) '0' ++ digits

/-- Drops the zeros at the end. -/
def trimZeros (digits : List Char) : List Char := (digits.reverse.dropWhile (· == '0')).reverse

end LedgerClient.Digits
