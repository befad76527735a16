import LedgerClient.Proofs.Threshold.Signature
import Mathlib.Algebra.GroupWithZero.Nat
import Mathlib.Data.List.FinRange

/-!
# How a threshold signature is represented

A threshold signature is a list of signatures and four bytes of bitmap, and the two are kept apart.
`ThresholdSignature.Invariant` says how they belong together: the bits that are set in the four
bytes are as many as the signatures, and the signers are read off these bits. Every way of coming by
a threshold signature establishes it, and only bytes of such a signature are read
(`represented_however_made`).
-/

set_option autoImplicit false

namespace LedgerClient

/-- The number of bits that are set in the bytes. -/
def Bytes.ones (bytes : Bytes) : Nat :=
  (bytes.map fun byte => (List.range 8).countP byte.toNat.testBit).sum

/-- A number has a bit for each that is set in its bytes. The induction is on the number of bytes:
the first holds the lowest eight bits, and the others are those of the number divided by 256. -/
theorem Bytes.ones_littleEndian (width n : Nat) :
    ones (littleEndian width n) = (List.range (8 * width)).countP n.testBit := by
  induction width generalizing n with
  | zero => rfl
  | succ width ih =>
    have low : (List.range 8).countP (UInt8.ofNat n).toNat.testBit =
        (List.range 8).countP n.testBit := by
      refine List.countP_congr fun i mem => ?_
      rw [UInt8.toNat_ofNat', Nat.testBit_mod_two_pow, decide_eq_true (List.mem_range.1 mem),
        Bool.true_and]
    have high : (n / 256).testBit = n.testBit ∘ (8 + ·) := by
      funext i
      rw [Function.comp_apply, Nat.add_comm, ← Nat.testBit_div_two_pow]
    calc ones (littleEndian (width + 1) n)
        = (List.range 8).countP n.testBit + ones (littleEndian width (n / 256)) := by
          rw [← low]
          rfl
      _ = (List.range (8 * (width + 1))).countP n.testBit := by
          rw [ih, high, Nat.mul_succ, Nat.add_comm (8 * width), List.range_add, List.countP_append,
            List.countP_map]

namespace Bitmap

/-- The positions in a bitmap are counted from its highest bit, and they are as many as the bits
that are set in its four bytes. -/
theorem ones_toBytes (m : Bitmap) : m.toBytes.ones = m.count := by
  have mirrored : m.contains ∘ Fin.rev = m.bits.toNat.testBit ∘ Fin.val := by
    funext i
    have place : 31 - i.rev.val = i.val := by
      rw [Fin.val_rev]
      omega
    rw [Function.comp_apply, Function.comp_apply, contains_eq_testBit, place]
  calc m.toBytes.ones
      = (Bytes.littleEndian 4 m.bits.toNat).ones := by
        rw [toBytes, Bytes.bigEndian, Bytes.ones, List.map_reverse, List.sum_reverse]
        rfl
    _ = (List.range 32).countP m.bits.toNat.testBit := Bytes.ones_littleEndian 4 _
    _ = (List.finRange 32).reverse.countP m.contains := by
        rw [List.finRange_reverse, List.countP_map, mirrored, ← List.countP_map,
          List.map_coe_finRange_eq_range]
    _ = m.count := List.countP_reverse

end Bitmap

namespace ThresholdSignature

/-- How the signatures, the four bytes of the bitmap and the positions of the signers, which are
below 32 by their type, belong together. -/
structure Invariant (s : ThresholdSignature) : Prop where
  some_sign : 1 ≤ s.signatures.length
  few_sign : s.signatures.length ≤ 32
  /-- There is one signature for each bit that is set. -/
  ones_eq : s.bitmap.toBytes.ones = s.signatures.length
  /-- There is one signer for each signature. -/
  signers_length : s.signers.length = s.signatures.length
  signers_increase : s.signers.Pairwise (· < ·)
  /-- Who signs is read off the bytes, of which each has its highest bit first. -/
  mem_signers : ∀ i, i ∈ s.signers ↔ ∃ byte, s.bitmap.toBytes[i.val / 8]? = some byte ∧
    byte.toNat.testBit (7 - i.val % 8) = true

theorem invariant_iff_wellFormed {s : ThresholdSignature} : s.Invariant ↔ s.WellFormed := by
  constructor
  · intro invariant
    refine ⟨invariant.some_sign, ?_⟩
    rw [← invariant.ones_eq, Bitmap.ones_toBytes]
  · rintro ⟨some, count⟩
    exact {
      some_sign := some
      few_sign := count ▸ s.bitmap.count_le
      ones_eq := s.bitmap.ones_toBytes.trans count.symm
      signers_length := s.bitmap.length_toList.trans count.symm
      signers_increase := s.bitmap.pairwise_toList
      mem_signers := fun i => Bitmap.mem_toList.trans (s.bitmap.contains_iff_testBit i) }

/-- However a program comes by a threshold signature, the signatures and the bitmap belong together,
and bytes are read as a threshold signature when they are those of one where they do: they are then
read as that one. -/
theorem represented_however_made :
    (∀ s : ThresholdSignature, s.Made ↔ s.Invariant)
      ∧ ∀ (bytes : Bytes) (s : ThresholdSignature),
          ofBytes bytes = .ok s ↔ s.Invariant ∧ bytes = s.toBytes := by
  refine ⟨fun s => made_iff.trans invariant_iff_wellFormed.symm, fun bytes s => ?_⟩
  rw [invariant_iff_wellFormed]
  constructor
  · intro read
    obtain ⟨same, wellFormed⟩ := toBytes_of_ofBytes read
    exact ⟨wellFormed, same.symm⟩
  · rintro ⟨wellFormed, rfl⟩
    exact ofBytes_toBytes wellFormed

end ThresholdSignature

end LedgerClient
