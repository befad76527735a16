import LedgerClient.Curve.Field
import LedgerClient.Octets.Basic

/-!
# Points of the curve

The twisted Edwards curve -x^2 + y^2 = 1 + d x^2 y^2 in extended coordinates: `x = X / Z`,
`y = Y / Z` and `x * y = T / Z`. The sum is complete, it needs no case for equal points. A point is
encoded as `y` with the parity of `x` in the highest bit.
-/

set_option autoImplicit false

namespace LedgerClient.Curve

/-- The order of the base point. -/
def groupOrder : Nat :=
  7237005577332262213973186563042994240857116359379907606001950938285454250989

/-- The constant of the curve equation. -/
def curveConstant : Element :=
  Element.ofNat 37095705934669439343138083508754565189542113879843219016388785533085940283555

/-- A point in extended coordinates. -/
structure Point where
  x : Element
  y : Element
  z : Element
  t : Element

namespace Point

/-- The neutral point. -/
def identity : Point := ⟨0, 1, 1, 0⟩

/-- The point with the given affine coordinates. -/
def ofAffine (x y : Element) : Point := ⟨x, y, 1, x * y⟩

/-- The base point. -/
def base : Point :=
  ofAffine
    (Element.ofNat
      15112221349535400772501151409588531511454012693041857206046113283949847762202)
    (Element.ofNat
      46316835694926478169428394003475163141307993866256225615783033603165251855960)

def neg (p : Point) : Point := ⟨-p.x, p.y, p.z, -p.t⟩

def add (p q : Point) : Point :=
  let a := (p.y - p.x) * (q.y - q.x)
  let b := (p.y + p.x) * (q.y + q.x)
  let c := p.t * (curveConstant + curveConstant) * q.t
  let d := (p.z + p.z) * q.z
  ⟨(b - a) * (d - c), (d + c) * (b + a), (d - c) * (d + c), (b - a) * (b + a)⟩

/-- The sum of a point with itself. -/
def double (p : Point) : Point :=
  let a := p.x * p.x
  let b := p.y * p.y
  let c := p.z * p.z
  let h := a + b
  let s := p.x + p.y
  let e := h - s * s
  let g := a - b
  let f := c + c + g
  ⟨e * f, g * h, f * g, e * h⟩

/-- `n` times a point, where the low `bits` bits of `n` are looked at. -/
def scaleWithin : (bits n : Nat) → (p : Point) → Point
  | 0, _, _ => identity
  | bits + 1, n, p =>
    let rest := scaleWithin bits (n / 2) p.double
    if n % 2 = 1 then p.add rest else rest

/-- `n` times a point, for `n` below 2^256. -/
def scale (n : Nat) (p : Point) : Point := scaleWithin 256 n p

/-- Whether the point is the neutral one. -/
def isIdentity (p : Point) : Bool := p.x = 0 ∧ p.y = p.z

/-- Whether the order of the point divides eight. -/
def hasSmallOrder (p : Point) : Bool := p.double.double.double.isIdentity

/-- What the highest bit of 32 bytes stands for. -/
def highBit : Nat := Nat.pow 2 255

/-- The 32 bytes that encode the point. -/
def compress (p : Point) : Bytes :=
  let inverse := p.z.inverse
  let x := p.x * inverse
  let y := p.y * inverse
  Bytes.littleEndian 32 (y.val + if x.isOdd then highBit else 0)

theorem length_compress (p : Point) : p.compress.length = 32 := by
  simp [compress, Bytes.length_littleEndian]

/-- The point that 32 bytes encode. The number in the low 255 bits is taken modulo the prime, and
the highest bit chooses between `x` and `-x`, also where these are equal. -/
def decompress? (bytes : Bytes) : Option Point :=
  let n := Bytes.ofLittleEndian bytes
  let y := Element.ofNat (n % highBit)
  let u := y * y - 1
  let v := curveConstant * (y * y) + 1
  (Element.sqrtRatio? u v).map fun x =>
    ofAffine (if n / highBit % 2 = 1 then -x else x) y

end Point

end LedgerClient.Curve
