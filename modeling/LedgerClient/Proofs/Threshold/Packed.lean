import LedgerClient.Proofs.Threshold.Signature
import Mathlib.Data.Nat.Bitwise

/-!
# The bitmap in its four bytes

A bitmap is kept in four bytes, of which an index picks one, and a mask picks one bit of that. Here
the byte may be missing, as it is at an index of 32 or more, and an access to it then has no result.
At an index below 32 an access to the bytes of a bitmap does what `contains` and `insert` say
(`bit?_toBytes`, `setBit?_toBytes`). A threshold signature is put together by a loop that looks at
the range of an index before it touches a byte. So the loop never runs into a missing one, and
leaves the bytes of the bitmap that `collect` gives (`collectBytes?_toBytes`,
`ofIndexedBytes?_eq`).
-/

set_option autoImplicit false

namespace LedgerClient

namespace Bytes

/-- A byte with the one bit that stands for the index. The lowest index has the highest bit. -/
def mask (index : UInt8) : UInt8 := 0x80 >>> (index % 8)

/-- Whether the bit of the index is set, if there is a byte that has it. -/
def bit? (bytes : Bytes) (index : UInt8) : Option Bool :=
  bytes[index.toNat / 8]?.map fun byte => byte &&& mask index != 0

/-- The bytes with the bit of the index set, if there is a byte that has it. -/
def setBit? (bytes : Bytes) (index : UInt8) : Option Bytes :=
  bytes[index.toNat / 8]?.map fun byte => bytes.set (index.toNat / 8) (byte ||| mask index)

theorem toNat_mask (index : UInt8) : (mask index).toNat = 2 ^ (7 - index.toNat % 8) := by
  have small : index.toNat % 8 < 8 := Nat.mod_lt _ (by decide)
  have shift : (mask index).toNat = 128 >>> (index.toNat % 8) := by
    simp [mask, UInt8.toNat_shiftRight]
  have halves : ∀ k < 8, 128 >>> k = 2 ^ (7 - k) := by decide
  rw [shift, halves _ small]

/-- The mask of an index is read as one bit of the byte. -/
theorem and_mask (byte index : UInt8) :
    (byte &&& mask index != 0) = byte.toNat.testBit (7 - index.toNat % 8) := by
  have zero : byte &&& mask index = 0 ↔
      (byte.toNat.testBit (7 - index.toNat % 8)).toNat * 2 ^ (7 - index.toNat % 8) = 0 := by
    rw [← UInt8.toNat_inj, UInt8.toNat_and, toNat_mask, Nat.and_two_pow]
    rfl
  cases bit : byte.toNat.testBit (7 - index.toNat % 8) with
  | false =>
    rw [bit] at zero
    rw [zero.2 (Nat.zero_mul _)]
    rfl
  | true =>
    rw [bit] at zero
    have positive : true.toNat * 2 ^ (7 - index.toNat % 8) ≠ 0 :=
      Nat.mul_ne_zero Nat.one_ne_zero (Nat.ne_of_gt (Nat.two_pow_pos _))
    exact bne_iff_ne.2 fun none => positive (zero.1 none)

/-- Setting the bit of an index sets no other bit of the byte. -/
theorem testBit_or_mask (byte index : UInt8) (k : Nat) :
    (byte ||| mask index).toNat.testBit k =
      (byte.toNat.testBit k || decide (7 - index.toNat % 8 = k)) := by
  rw [UInt8.toNat_or, Nat.testBit_or, toNat_mask, Nat.testBit_two_pow]

end Bytes

namespace Bitmap

open Bytes

variable {index : UInt8}

theorem toBytes_empty : empty.toBytes = [0, 0, 0, 0] := by decide

theorem byte_lt_length (m : Bitmap) (small : index.toNat < 32) :
    index.toNat / 8 < m.toBytes.length := by
  rw [length_toBytes]
  omega

/-- Reading the bit of an index is looking for the position. -/
theorem bit?_toBytes (m : Bitmap) (small : index.toNat < 32) :
    m.toBytes.bit? index = some (m.contains ⟨index.toNat, small⟩) := by
  have inside := m.byte_lt_length small
  have read : m.contains ⟨index.toNat, small⟩ =
      m.toBytes[index.toNat / 8].toNat.testBit (7 - index.toNat % 8) := by
    rw [Bool.eq_iff_iff, contains_iff_testBit, List.getElem?_eq_getElem inside]
    simp only [Option.some.injEq, exists_eq_left']
  rw [bit?, List.getElem?_eq_getElem inside, Option.map_some, and_mask, read]

theorem ext_contains {m m' : Bitmap} (same : ∀ i, m.contains i = m'.contains i) : m = m' := by
  have bits : m.bits = m'.bits := BitVec.eq_of_getMsbD_eq fun i small => same ⟨i, small⟩
  cases m
  cases m'
  exact congrArg mk bits

/-- Setting the bit of an index is entering the position. -/
theorem setBit?_toBytes (m : Bitmap) (small : index.toNat < 32) :
    m.toBytes.setBit? index = some (m.insert ⟨index.toNat, small⟩).toBytes := by
  have inside := m.byte_lt_length small
  let written := m.toBytes.set (index.toNat / 8) (m.toBytes[index.toNat / 8] ||| mask index)
  have four : written.length = 4 := by
    simp [written]
  -- Bit by bit, what the four bytes stand for is the bitmap with the position.
  have entered : ofBytes written = m.insert ⟨index.toNat, small⟩ := by
    apply ext_contains
    intro j
    rw [contains_insert, Bool.eq_iff_iff, contains_iff_testBit, toBytes_ofBytes four,
      Bool.or_eq_true, contains_iff_testBit, decide_eq_true_iff, Fin.ext_iff]
    by_cases byte : index.toNat / 8 = j.val / 8
    · have place : 7 - index.toNat % 8 = 7 - j.val % 8 ↔ j.val = index.toNat := by
        omega
      have there : j.val / 8 < m.toBytes.length := byte ▸ inside
      simp only [written, byte, List.getElem?_set_self there, List.getElem?_eq_getElem there,
        Option.some.injEq, exists_eq_left', testBit_or_mask, place, Bool.or_eq_true,
        decide_eq_true_iff]
    · have other : j.val ≠ index.toNat := fun equal => byte (by rw [equal])
      simp only [written, List.getElem?_set_ne byte, other, or_false]
  rw [setBit?, List.getElem?_eq_getElem inside, Option.map_some, ← entered, toBytes_ofBytes four]

end Bitmap

namespace ThresholdSignature

/-- The loop over the indices, on the four bytes. The range of an index is looked at first, then the
bit is read and then it is set. There is no result if a byte is missing. -/
def collectBytes? (bytes : Bytes) : List UInt8 → Option (Except DataError Bytes)
  | [] => some (.ok bytes)
  | index :: rest =>
    if 32 ≤ index.toNat then some (.error (.signerOutOfRange index))
    else
      match bytes.bit? index with
      | none => none
      | some true => some (.error (.duplicateSigner index))
      | some false =>
        match bytes.setBit? index with
        | none => none
        | some entered => collectBytes? entered rest

/-- On the bytes of a bitmap no byte is ever missing, and the loop does to the bytes what collecting
the indices does to the bitmap. -/
theorem collectBytes?_toBytes (m : Bitmap) (indices : List UInt8) :
    collectBytes? m.toBytes indices = some ((collect m indices).map Bitmap.toBytes) := by
  induction indices generalizing m with
  | nil => rfl
  | cons index rest ih =>
    unfold collectBytes? collect
    by_cases small : index.toNat < 32
    · rw [if_neg (Nat.not_le.2 small), dif_pos small, Bitmap.bit?_toBytes m small,
        Bitmap.setBit?_toBytes m small]
      cases m.contains ⟨index.toNat, small⟩ with
      | true => rfl
      | false => exact ih (m.insert ⟨index.toNat, small⟩)
    · rw [if_pos (Nat.not_lt.1 small), dif_neg small]
      rfl

/-- How signatures with the positions of their signers are put together, on the four bytes. -/
def ofIndexedBytes? (entries : List (Signature × UInt8)) :
    Option (Except DataError (List Signature × Bytes)) :=
  if entries.isEmpty then some (.error .noSignatures)
  else
    let sorted := entries.mergeSort fun a b => a.2 ≤ b.2
    match collectBytes? [0, 0, 0, 0] (sorted.map Prod.snd) with
    | none => none
    | some (.error e) => some (.error e)
    | some (.ok bytes) => some (.ok (sorted.map Prod.fst, bytes))

theorem ofIndexedBytes?_eq (entries : List (Signature × UInt8)) :
    ofIndexedBytes? entries =
      some ((ofIndexed entries).map fun s => (s.signatures, s.bitmap.toBytes)) := by
  unfold ofIndexedBytes? ofIndexed
  by_cases none : entries.isEmpty = true
  · rw [if_pos none, if_pos none]
    rfl
  · simp only [if_neg none, ← Bitmap.toBytes_empty, collectBytes?_toBytes]
    cases collect .empty ((entries.mergeSort fun a b => a.2 ≤ b.2).map Prod.snd) with
    | error fault => rfl
    | ok bitmap => rfl

end ThresholdSignature

end LedgerClient
