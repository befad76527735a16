import LedgerClient.Proofs.Wire.Number
import LedgerClient.Threshold.Bitmap

/-!
# What a bitmap holds

A position is in a bitmap after it has been entered, and those that were there stay
(`contains_insert`). So the bitmap of a list without repetition lists the same positions, in its own
order (`toList_ofList_perm`). A bitmap and its four bytes determine each other, bit by bit
(`contains_iff_testBit`).
-/

set_option autoImplicit false

namespace LedgerClient

theorem Bytes.getElem?_littleEndian {width i : Nat} (inside : i < width) (n : Nat) :
    (littleEndian width n)[i]? = some (UInt8.ofNat (n >>> (8 * i))) := by
  induction width generalizing n i with
  | zero => cases inside
  | succ width ih =>
    cases i with
    | zero => rfl
    | succ i =>
      have shift : n / 256 = n >>> 8 := (Nat.shiftRight_eq_div_pow n 8).symm
      have place : 8 * (i + 1) = 8 + 8 * i := by omega
      rw [littleEndian, List.getElem?_cons_succ, ih (Nat.lt_of_succ_lt_succ inside), shift, place,
        Nat.shiftRight_add]

namespace Bitmap

@[simp] theorem mem_toList {m : Bitmap} {i : Position} : i ∈ m.toList ↔ m.contains i = true := by
  simp only [toList, List.mem_filter, List.mem_finRange, true_and]

theorem nodup_toList (m : Bitmap) : m.toList.Nodup := (List.nodup_finRange 32).filter _

/-- The positions are listed in increasing order. -/
theorem pairwise_toList (m : Bitmap) : m.toList.Pairwise (· < ·) :=
  (List.pairwise_lt_finRange 32).filter _

@[simp] theorem length_toList (m : Bitmap) : m.toList.length = m.count :=
  List.countP_eq_length_filter.symm

theorem count_le (m : Bitmap) : m.count ≤ 32 := by
  have all := List.countP_le_length (p := m.contains) (l := List.finRange 32)
  rwa [List.length_finRange] at all

@[simp] theorem contains_empty (i : Position) : empty.contains i = false := BitVec.getMsbD_zero

@[simp] theorem contains_insert (m : Bitmap) (i j : Position) :
    (m.insert i).contains j = (m.contains j || decide (j = i)) := by
  have place : decide (31 - i.val < 32) = true := decide_eq_true (by omega)
  have same : j.val = 32 - (31 - i.val) - 1 ↔ j = i := by
    rw [Fin.ext_iff]
    omega
  simp only [contains, insert, BitVec.getMsbD_or, BitVec.getMsbD_twoPow, place, same,
    Bool.true_and]

/-- After some positions have been entered, the bitmap has them and those that it had. -/
theorem contains_foldl_insert (positions : List Position) (m : Bitmap) (j : Position) :
    (positions.foldl insert m).contains j = true ↔ m.contains j = true ∨ j ∈ positions := by
  induction positions generalizing m with
  | nil => simp
  | cons i positions ih => simp [ih, or_assoc]

@[simp] theorem mem_toList_ofList {positions : List Position} {j : Position} :
    j ∈ (ofList positions).toList ↔ j ∈ positions := by
  simp [ofList, contains_foldl_insert]

/-- The bitmap of positions without repetition lists these positions. -/
theorem toList_ofList_perm {positions : List Position} (nodup : positions.Nodup) :
    (ofList positions).toList.Perm positions :=
  (List.perm_ext_iff_of_nodup (nodup_toList _) nodup).2 fun _ => mem_toList_ofList

/-- Positions that are in increasing order are listed in that order. -/
theorem toList_ofList {positions : List Position} (increasing : positions.Pairwise (· < ·)) :
    (ofList positions).toList = positions := by
  have nodup : positions.Nodup := increasing.imp Fin.ne_of_lt
  refine (toList_ofList_perm nodup).eq_of_pairwise ?_ (pairwise_toList _) increasing
  intro i j _ _ less greater
  exact absurd (Fin.lt_trans less greater) (Fin.lt_irrefl i)

theorem count_ofList {positions : List Position} (nodup : positions.Nodup) :
    (ofList positions).count = positions.length := by
  rw [← length_toList, (toList_ofList_perm nodup).length_eq]

@[simp] theorem length_toBytes (m : Bitmap) : m.toBytes.length = 4 := by
  simp [toBytes, Bytes.bigEndian]

@[simp] theorem ofBytes_toBytes (m : Bitmap) : ofBytes m.toBytes = m := by
  rw [ofBytes, Bytes.ofBigEndian, toBytes, Bytes.bigEndian, List.reverse_reverse,
    Bytes.ofLittleEndian_littleEndian m.bits.isLt, BitVec.ofNat_toNat]
  rfl

theorem toBytes_ofBytes {bytes : Bytes} (four : bytes.length = 4) :
    (ofBytes bytes).toBytes = bytes := by
  have length : bytes.reverse.length = 4 := by rw [List.length_reverse, four]
  have bound := Bytes.ofLittleEndian_lt bytes.reverse
  rw [length] at bound
  have bits : (BitVec.ofNat 32 (Bytes.ofLittleEndian bytes.reverse)).toNat =
      Bytes.ofLittleEndian bytes.reverse :=
    (BitVec.toNat_ofNat _ _).trans (Nat.mod_eq_of_lt bound)
  rw [toBytes, ofBytes, Bytes.ofBigEndian, Bytes.bigEndian, bits,
    Bytes.littleEndian_ofLittleEndian length, List.reverse_reverse]

/-- Position zero is the highest bit. -/
theorem contains_eq_testBit (m : Bitmap) (i : Position) :
    m.contains i = m.bits.toNat.testBit (31 - i.val) := by
  rw [contains, BitVec.getMsbD_eq_getLsbD, decide_eq_true i.isLt, Bool.true_and]
  rfl

/-- Position zero is the highest bit of the first byte. -/
theorem contains_iff_testBit (m : Bitmap) (i : Position) :
    m.contains i = true ↔ ∃ byte, m.toBytes[i.val / 8]? = some byte ∧
      byte.toNat.testBit (7 - i.val % 8) = true := by
  have bound : i.val < 32 := i.isLt
  have inside : i.val / 8 < (Bytes.littleEndian 4 m.bits.toNat).length := by
    rw [Bytes.length_littleEndian]
    omega
  have reversed : 4 - 1 - i.val / 8 < 4 := by omega
  have place : 8 * (4 - 1 - i.val / 8) + (7 - i.val % 8) = 31 - i.val := by omega
  have byte : m.toBytes[i.val / 8]? =
      some (UInt8.ofNat (m.bits.toNat >>> (8 * (4 - 1 - i.val / 8)))) := by
    rw [toBytes, Bytes.bigEndian, List.getElem?_reverse inside, Bytes.length_littleEndian,
      Bytes.getElem?_littleEndian reversed]
  have low : decide (7 - i.val % 8 < 8) = true := decide_eq_true (by omega)
  simp only [byte, Option.some.injEq, exists_eq_left', UInt8.toNat_ofNat', Nat.testBit_mod_two_pow,
    Nat.testBit_shiftRight, low, Bool.true_and, place, contains_eq_testBit]

end Bitmap

end LedgerClient
