import LedgerClient.Json.Basic

/-!
# Number literals

A number as it is written: a sign, the digits in front of the point, the digits behind it, and an
exponent. A literal of an integer in range is an integer; zero with a minus sign is a double, as is
an integer out of range and everything with a point or an exponent. Digits beyond 64 bits do not
count, except for their number in front of the point.
-/

set_option autoImplicit false

namespace LedgerClient.Json

/-- A number as it is written, by the values of its digits. -/
structure Literal where
  negative : Bool
  whole : List Nat
  /-- The digits behind the point, of which there are none without a point. -/
  fraction : List Nat
  exponent : Option Int
  deriving DecidableEq, Repr

namespace Literal

/-- The number that the digits in front of the point spell as far as 64 bits reach, and the number
of digits that are left. -/
def absorbWhole (n : Nat) : List Nat → Nat × Nat
  | [] => (n, 0)
  | d :: rest =>
    if 10 * n + d < UInt64.size then absorbWhole (10 * n + d) rest else (n, rest.length + 1)

/-- The number that the digits behind the point continue `n` to as far as 64 bits reach, and the
number of digits that it takes. -/
def absorbFraction (n : Nat) : List Nat → Nat × Nat
  | [] => (n, 0)
  | d :: rest =>
    if 10 * n + d < UInt64.size then
      let (m, taken) := absorbFraction (10 * n + d) rest
      (m, taken + 1)
    else (n, 0)

/-- The number that an integer literal of 64 bits stands for. -/
def integer (negative : Bool) (n : Nat) : Option Number :=
  if !negative then some (.integer n)
  else if 0 < n ∧ n ≤ UInt64.size / 2 then some (.integer (-n))
  else (Double.ofDecimal? true n 0).map .double

/-- The number that the literal stands for, if it is not too large for a double. -/
def value? (l : Literal) : Option Number :=
  let (n, dropped) := absorbWhole 0 l.whole
  if l.fraction.isEmpty && l.exponent.isNone && dropped = 0 then integer l.negative n
  else
    let (m, taken) := absorbFraction n l.fraction
    let scale := (dropped : Int) - taken + l.exponent.getD 0
    (Double.ofDecimal? l.negative m scale).map .double

end Literal

end LedgerClient.Json
