import LedgerClient.Text.Digits

/-!
# Doubles of a decimal form

A number with a fraction or an exponent is a double: the digits that fit in 64 bits, scaled by a
power of ten with one multiplication or division. The exact decimal form of a double is the way
back: it has as many digits as the double needs.
-/

set_option autoImplicit false

namespace LedgerClient

/-- A double by its 64 bits. -/
structure Double where
  bits : UInt64
  deriving DecidableEq, Repr

namespace Double

def ofFloat (x : Float) : Double := ⟨x.toBits⟩

/-- Ten to the power `k`, for `k` up to 308. -/
def powerOfTen (k : Nat) : Float := Float.ofScientific 1 false k

/-- `x` over ten to the power `k`. A power that no double holds is divided by step by step, until
nothing is left of `x`. -/
def scaleDown (x : Float) (k : Nat) : Float :=
  if k ≤ 308 then x / powerOfTen k
  else if x == 0.0 then x
  else scaleDown (x / powerOfTen 308) (k - 308)
termination_by k

/-- `x` times ten to the power `k`, unless that is too large for a double. -/
def scaleUp? (x : Float) (k : Nat) : Option Float :=
  if k ≤ 308 then
    let y := x * powerOfTen k
    if y.isInf then none else some y
  else if x == 0.0 then some x
  else none

/-- The double of a significand of at most 64 bits and a power of ten, if there is one. -/
def ofDecimal? (negative : Bool) (significand : Nat) (exponent : Int) : Option Double :=
  let x := (UInt64.ofNat significand).toFloat
  let scaled := if 0 ≤ exponent then scaleUp? x exponent.toNat
    else some (scaleDown x (-exponent).toNat)
  scaled.map fun y => ofFloat (if negative then -y else y)

/-- The bits of the fraction. -/
def fraction (d : Double) : Nat := (d.bits &&& 0xFFFFFFFFFFFFF).toNat

/-- The bits of the exponent. -/
def exponentBits (d : Double) : Nat := (d.bits >>> 52 &&& 0x7FF).toNat

def negative (d : Double) : Bool := d.bits >>> 63 == 1

/-- The whole number that a finite double is the multiple of a power of two of. -/
def significand (d : Double) : Nat :=
  if d.exponentBits = 0 then d.fraction else d.fraction + 0x10000000000000

/-- The exponent of that power of two. -/
def power (d : Double) : Int := (max d.exponentBits 1 : Int) - 1075

/-- The exact decimal form of a finite double, with at least one digit behind the point. -/
def text (d : Double) : String :=
  let sign := if d.negative then "-" else ""
  if 0 ≤ d.power then sign ++ toString (d.significand <<< d.power.toNat) ++ ".0"
  else
    let places := (-d.power).toNat
    let unit := Nat.pow 10 places
    let scaled := d.significand * Nat.pow 5 places
    sign ++ toString (scaled / unit) ++ "."
      ++ String.ofList (if scaled % unit = 0 then ['0']
        else Digits.trimZeros (Digits.padded places (scaled % unit)))

end Double

end LedgerClient
