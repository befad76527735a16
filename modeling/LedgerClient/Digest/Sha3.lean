import LedgerClient.Octets.Basic

/-!
# SHA3-256

The sponge over the permutation Keccak-f of 25 lanes of 64 bits. Blocks of 136 bytes are absorbed
one after the other, and the first four lanes of the last state are the digest.
-/

set_option autoImplicit false

namespace LedgerClient.Sha3

/-- The state: the lane at column `x` and row `y` has the place `x + 5 * y`. -/
abbrev Lanes := Vector UInt64 25

/-- The lane at a column and a row, both taken modulo five. -/
def lane (s : Lanes) (x y : Nat) : UInt64 := s[x % 5 + 5 * (y % 5)]

/-- The state whose lane at column `x` and row `y` is `f x y`. -/
def ofLanes (f : Nat → Nat → UInt64) : Lanes := Vector.ofFn fun i => f (i.val % 5) (i.val / 5)

/-- A lane turned to the left. -/
def rotate (w : UInt64) (n : Nat) : UInt64 :=
  if n = 0 then w else (w <<< UInt64.ofNat n) ||| (w >>> UInt64.ofNat (64 - n))

/-- How far each lane is turned, by its place. -/
def offsets : Vector Nat 25 :=
  #v[0, 1, 62, 28, 27, 36, 44, 6, 55, 20, 3, 10, 43, 25, 39, 41, 45, 15, 21, 8, 18, 2, 61, 56, 14]

/-- How far the lane at a column and a row is turned. -/
def offset (x y : Nat) : Nat := offsets[x % 5 + 5 * (y % 5)]

/-- The constants that tell the rounds apart. -/
def roundConstants : List UInt64 :=
  [0x0000000000000001, 0x0000000000008082, 0x800000000000808A, 0x8000000080008000,
    0x000000000000808B, 0x0000000080000001, 0x8000000080008081, 0x8000000000008009,
    0x000000000000008A, 0x0000000000000088, 0x0000000080008009, 0x000000008000000A,
    0x000000008000808B, 0x800000000000008B, 0x8000000000008089, 0x8000000000008003,
    0x8000000000008002, 0x8000000000000080, 0x000000000000800A, 0x800000008000000A,
    0x8000000080008081, 0x8000000000008080, 0x0000000080000001, 0x8000000080008008]

/-- The sum of a column. -/
def column (s : Lanes) (x : Nat) : UInt64 :=
  lane s x 0 ^^^ lane s x 1 ^^^ lane s x 2 ^^^ lane s x 3 ^^^ lane s x 4

/-- Adds to each lane the columns beside it. -/
def theta (s : Lanes) : Lanes :=
  let columns : Vector UInt64 5 := Vector.ofFn fun x => column s x.val
  let around : Vector UInt64 5 := Vector.ofFn fun x =>
    columns[(x.val + 4) % 5] ^^^ rotate columns[(x.val + 1) % 5] 1
  ofLanes fun x y => lane s x y ^^^ around[x % 5]

/-- Turns each lane and moves it to its new place. -/
def rhoPi (s : Lanes) : Lanes :=
  ofLanes fun x y => rotate (lane s (x + 3 * y) x) (offset (x + 3 * y) x)

/-- Mixes each lane with the two to its right. -/
def chi (s : Lanes) : Lanes :=
  ofLanes fun x y => lane s x y ^^^ ((~~~ lane s (x + 1) y) &&& lane s (x + 2) y)

/-- Adds the constant of the round to the first lane. -/
def iota (constant : UInt64) (s : Lanes) : Lanes := s.set 0 (s[0] ^^^ constant)

/-- The permutation. -/
def permute (s : Lanes) : Lanes :=
  roundConstants.foldl (fun s constant => iota constant (chi (rhoPi (theta s)))) s

/-- The number of bytes absorbed at a time. -/
def rate : Nat := 136

/-- The message, the two bits that mark this hash, and padding up to a whole number of blocks. -/
def pad (message : Bytes) : Bytes :=
  let gap := rate - message.length % rate
  if gap = 1 then message ++ [0x86]
  else message ++ 0x06 :: List.replicate (gap - 2) 0 ++ [0x80]

/-- Adds a block to the first lanes and permutes. -/
def absorb (s : Lanes) (block : Bytes) : Lanes :=
  let words : Array UInt64 :=
    ((Bytes.chunks 8 (rate / 8) block).map fun w => UInt64.ofNat (Bytes.ofLittleEndian w)).toArray
  permute (Vector.ofFn fun i => s[i] ^^^ words[i.val]?.getD 0)

/-- The first four lanes. -/
def squeeze (s : Lanes) : Bytes :=
  [s[0], s[1], s[2], s[3]].flatMap fun w => Bytes.littleEndian 8 w.toNat

theorem length_squeeze (s : Lanes) : (squeeze s).length = 32 := by
  simp [squeeze, Bytes.length_littleEndian]

/-- The state after a message. -/
def sponge (message : Bytes) : Lanes :=
  let padded := pad message
  (Bytes.chunks rate (padded.length / rate) padded).foldl absorb (Vector.replicate 25 0)

/-- The digest of a message. -/
def digest (message : Bytes) : Digest := ⟨squeeze (sponge message), length_squeeze _⟩

end LedgerClient.Sha3
