/-!
# The field of the curve

Arithmetic modulo the prime 2^255 - 19, with square roots of quotients.
-/

set_option autoImplicit false

namespace LedgerClient.Curve

/-- The prime 2^255 - 19. -/
def prime : Nat := 57896044618658097711785492504343953926634992332820282019728792003956564819949

instance : @NeZero Nat Zero.ofOfNat0 prime := ⟨Nat.succ_ne_zero _⟩

/-- A number modulo the prime. -/
abbrev Element := Fin prime

namespace Element

/-- A number, modulo the prime. -/
def ofNat (n : Nat) : Element := Fin.ofNat prime n

/-- `x` to the power `n`, of which the low `bits` bits are looked at. -/
def powWithin : (bits n : Nat) → (x : Element) → Element
  | 0, _, _ => 1
  | bits + 1, n, x =>
    let rest := powWithin bits (n / 2) (x * x)
    if n % 2 = 1 then x * rest else rest

/-- `x` to a power below 2^256. -/
def pow (x : Element) (n : Nat) : Element := powWithin 256 n x

/-- The inverse, and zero for zero. -/
def inverse (x : Element) : Element := x.pow (prime - 2)

/-- Whether the least number that stands for `x` is odd. -/
def isOdd (x : Element) : Bool := x.val % 2 = 1

/-- A square root of minus one. -/
def rootOfMinusOne : Element :=
  ofNat 19681161376707505956807079304988542015446066515923890162744021073123829784752

/-- The even square root of `u / v`, if there is a root. -/
def sqrtRatio? (u v : Element) : Option Element :=
  let v3 := v * v * v
  let root := u * v3 * (u * v3 * v3 * v).pow ((prime - 5) / 8)
  let square := v * root * root
  let found :=
    if square = u then some root
    else if square = -u then some (root * rootOfMinusOne)
    else none
  found.map fun r => if r.isOdd then -r else r

end Element

end LedgerClient.Curve
