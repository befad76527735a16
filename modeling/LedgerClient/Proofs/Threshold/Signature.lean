import LedgerClient.Proofs.Threshold.Bitmap
import LedgerClient.Proofs.Threshold.Key
import LedgerClient.Threshold.Signature

/-!
# Threshold signatures on the wire

`ThresholdSignature.Made` lists the ways in which a program comes by a threshold signature. Each of
them leads to a well-formed one (`Made.wellFormed`), because a position enters the bitmap once
(`collect_eq_ok_iff`). A well-formed signature is read back from its bytes, and no other bytes are
read as it.
-/

set_option autoImplicit false

namespace LedgerClient

namespace ThresholdSignature

/-- Indices are collected when they are positions, each of them once and none in the bitmap. -/
theorem collect_eq_ok_iff {indices : List UInt8} {m m' : Bitmap} :
    collect m indices = .ok m' ↔
      ∃ positions : List Bitmap.Position,
        positions.map Fin.val = indices.map UInt8.toNat ∧ positions.Nodup
          ∧ (∀ i ∈ positions, m.contains i = false) ∧ m' = positions.foldl Bitmap.insert m := by
  induction indices generalizing m with
  | nil =>
    constructor
    · intro done
      obtain rfl := Except.ok.inj done
      exact ⟨[], rfl, .nil, nofun, rfl⟩
    · rintro ⟨positions, places, -, -, rfl⟩
      obtain rfl := List.map_eq_nil_iff.1 places
      rfl
  | cons index indices ih =>
    constructor
    · intro done
      rw [collect] at done
      split at done
      · rename_i small
        split at done
        · cases done
        rename_i new
        obtain ⟨positions, places, nodup, apart, rfl⟩ := ih.1 done
        have inserted : ∀ i ∈ positions, m.contains i = false ∧ i ≠ ⟨index.toNat, small⟩ := by
          intro i mem
          simpa using apart i mem
        refine ⟨⟨index.toNat, small⟩ :: positions, ?_, ?_, ?_, rfl⟩
        · rw [List.map_cons, List.map_cons, places]
        · exact List.nodup_cons.2 ⟨fun mem => (inserted _ mem).2 rfl, nodup⟩
        · exact List.forall_mem_cons.2
            ⟨Bool.eq_false_iff.2 new, fun i mem => (inserted i mem).1⟩
      · cases done
    · rintro ⟨positions, places, nodup, apart, rfl⟩
      cases positions with
      | nil => cases places
      | cons i positions =>
        obtain ⟨place, places⟩ := List.cons.inj places
        obtain ⟨fresh, nodup⟩ := List.nodup_cons.1 nodup
        obtain ⟨new, apart⟩ := List.forall_mem_cons.1 apart
        have small : index.toNat < 32 := place ▸ i.isLt
        have same : (⟨index.toNat, small⟩ : Bitmap.Position) = i := Fin.ext place.symm
        have others : ∀ j ∈ positions, (m.insert i).contains j = false := by
          intro j mem
          have different : j ≠ i := fun equal => fresh (equal ▸ mem)
          simp [apart j mem, different]
        rw [collect, dif_pos small, same, if_neg (Bool.eq_false_iff.1 new)]
        exact ih.2 ⟨positions, places, nodup, others, rfl⟩

theorem wellFormed_of_ofIndexed {entries : List (Signature × UInt8)} {s : ThresholdSignature}
    (made : ofIndexed entries = .ok s) : s.WellFormed := by
  unfold ofIndexed at made
  split at made
  · cases made
  rename_i some
  simp only at made
  split at made
  · cases made
  rename_i bitmap collected
  obtain rfl := Except.ok.inj made
  obtain ⟨positions, places, nodup, -, rfl⟩ := collect_eq_ok_iff.1 collected
  have count := congrArg List.length places
  have sorted : (entries.mergeSort fun a b => a.2 ≤ b.2).length = entries.length :=
    List.length_mergeSort entries
  rw [List.length_map, List.length_map, List.length_map, sorted] at count
  have positive : 0 < entries.length := by
    rw [List.length_pos_iff]
    rintro rfl
    exact some rfl
  constructor
  · rw [List.length_map, sorted]
    exact positive
  · rw [List.length_map, sorted, ← count]
    exact (Bitmap.count_ofList nodup).symm

/-- As many members sign as the threshold asks for. -/
theorem length_sign {key : ThresholdSecret} (wellFormed : key.WellFormed) (message : Bytes) :
    (key.sign message).signatures.length = key.threshold.toNat := by
  simp [ThresholdSecret.sign, Nat.min_eq_left wellFormed.2.1]

theorem wellFormed_of_sign {key : ThresholdSecret} (wellFormed : key.WellFormed)
    (message : Bytes) : (key.sign message).WellFormed := by
  have length := length_sign wellFormed message
  obtain ⟨positive, enough, few⟩ := wellFormed
  have positions : ((List.finRange 32).take key.threshold.toNat).length = key.threshold.toNat := by
    have all : key.threshold.toNat ≤ 32 := Nat.le_trans enough few
    simp [Nat.min_eq_left all]
  have nodup : ((List.finRange 32).take key.threshold.toNat).Nodup :=
    (List.nodup_finRange 32).sublist (List.take_sublist _ _)
  constructor
  · rw [length]
    exact positive
  · have bitmap : (key.sign message).bitmap =
        .ofList ((List.finRange 32).take (key.sign message).signatures.length) := rfl
    rw [bitmap, length, Bitmap.count_ofList nodup, positions]

/-- How a program comes by a threshold signature: by signing, from signatures with the positions of
their signers, from its bytes, or from the wire. -/
inductive Made : ThresholdSignature → Prop
  | sign {members : List SecretKey} {threshold : UInt8} {key : ThresholdSecret} (message : Bytes) :
    ThresholdSecret.make members threshold = .ok key → Made (key.sign message)
  | ofIndexed {entries : List (Signature × UInt8)} {s : ThresholdSignature} :
    ThresholdSignature.ofIndexed entries = .ok s → Made s
  | ofBytes {bytes : Bytes} {s : ThresholdSignature} :
    ThresholdSignature.ofBytes bytes = .ok s → Made s
  | read {unread rest : Bytes} {s : ThresholdSignature} :
    codec.read unread = (.ok s, rest) → Made s

theorem length_flatMap (signatures : List Signature) :
    (signatures.flatMap Octets.toList).length = 64 * signatures.length :=
  Bytes.length_flatMap_of_size Octets.length_toList signatures

@[simp] theorem length_toBytes (s : ThresholdSignature) :
    s.toBytes.length = 64 * s.signatures.length + 4 := by
  rw [toBytes, List.length_append, length_flatMap, Bitmap.length_toBytes]

theorem toBytes_inj {s other : ThresholdSignature} (same : s.toBytes = other.toBytes) :
    s = other := by
  obtain ⟨signatures, bitmap⟩ := List.append_inj' same (by simp)
  have equal := Bytes.flatMap_inj_of_size (by decide) Octets.length_toList
    (fun _ _ => Octets.ext) signatures
  have positions := congrArg Bitmap.ofBytes bitmap
  rw [Bitmap.ofBytes_toBytes, Bitmap.ofBytes_toBytes] at positions
  cases s
  cases other
  exact congr (congrArg mk equal) positions

/-- The bytes of a threshold signature are read back. -/
theorem ofBytes_toBytes {s : ThresholdSignature} (wellFormed : s.WellFormed) :
    ofBytes s.toBytes = .ok s := by
  obtain ⟨positive, count⟩ := wellFormed
  have few : s.signatures.length ≤ maxMembers := by
    rw [count]
    exact s.bitmap.count_le
  have length := length_toBytes s
  have cut : s.toBytes.length - 4 = (s.signatures.flatMap Octets.toList).length := by
    rw [length, length_flatMap, Nat.add_sub_cancel]
  have parts : s.toBytes.take (s.toBytes.length - 4) = s.signatures.flatMap Octets.toList := by
    rw [cut, toBytes, List.take_left]
  have bitmap : s.toBytes.drop (s.toBytes.length - 4) = s.bitmap.toBytes := by
    rw [cut, toBytes, List.drop_left]
  have whole : ¬ (s.toBytes.length < 68 ∨ (s.toBytes.length - 4) % 64 ≠ 0) := by omega
  have places : 64 * s.signatures.length / 64 = s.signatures.length := by omega
  have signatures : Octets.readEach (Octets.ofBytes .signature)
      (s.signatures.map Octets.toList) = .ok s.signatures :=
    Octets.readEach_map fun signature _ => Octets.ofBytes_toList signature
  have size : ∀ signature : Signature, signature.toList.length = 64 := Octets.length_toList
  unfold ofBytes
  simp only [if_neg whole, parts, bitmap, length_flatMap, places, Bitmap.ofBytes_toBytes, ← count,
    if_neg (Nat.not_lt.2 few), ne_eq, not_true_eq_false, if_false,
    Bytes.chunks_flatMap size, signatures]

/-- What is read as a threshold signature are its bytes, and it is well-formed. -/
theorem toBytes_of_ofBytes {bytes : Bytes} {s : ThresholdSignature} (h : ofBytes bytes = .ok s) :
    s.toBytes = bytes ∧ s.WellFormed := by
  unfold ofBytes at h
  split at h
  · cases h
  rename_i whole
  simp only at h
  split at h
  · cases h
  split at h
  · cases h
  rename_i count
  split at h
  · cases h
  rename_i signatures read
  obtain rfl := Except.ok.inj h
  obtain ⟨long, multiple⟩ := not_or.1 whole
  have front : (bytes.take (bytes.length - 4)).length = bytes.length - 4 := by
    rw [List.length_take]
    omega
  have back : (bytes.drop (bytes.length - 4)).length = 4 := by
    rw [List.length_drop]
    omega
  obtain ⟨chunks, -⟩ := Octets.eq_map_of_readEach (fun _ _ => Octets.toList_of_ofBytes) read
  have length := congrArg List.length chunks
  rw [Bytes.length_chunks, List.length_map, front] at length
  have flat : signatures.flatMap Octets.toList = bytes.take (bytes.length - 4) := by
    rw [List.flatMap_def, ← chunks, Bytes.flatten_chunks]
    rw [front]
    omega
  refine ⟨?_, ?_, ?_⟩
  · simp only [toBytes, flat, Bitmap.toBytes_ofBytes back, List.take_append_drop]
  · show 1 ≤ signatures.length
    omega
  · rw [front, length] at count
    exact (Decidable.not_not.1 count).symm

/-- A threshold signature is written with the length of its bytes in front. -/
theorem lawful_codec : codec.Lawful WellFormed := by
  refine Codec.lawful_bytes.checked ?_ ?_ fun _ _ => toBytes_inj
  · intro s wellFormed
    refine ⟨ofBytes_toBytes wellFormed, ?_⟩
    have few : s.signatures.length ≤ 32 := by
      rw [wellFormed.2]
      exact s.bitmap.count_le
    rw [length_toBytes]
    exact Nat.lt_of_le_of_lt (Nat.add_le_add_right (Nat.mul_le_mul_left 64 few) 4) (by decide)
  · intro bytes s _ accepted
    exact toBytes_of_ofBytes accepted

/-- However a program comes by a threshold signature, it is well-formed. -/
theorem Made.wellFormed {s : ThresholdSignature} (made : s.Made) : s.WellFormed := by
  cases made with
  | sign message made => exact wellFormed_of_sign (ThresholdSecret.wellFormed_of_make made) message
  | ofIndexed made => exact wellFormed_of_ofIndexed made
  | ofBytes read => exact (toBytes_of_ofBytes read).2
  | read read => exact (lawful_codec.eq_write_of_read read).2

theorem made_iff {s : ThresholdSignature} : s.Made ↔ s.WellFormed := by
  constructor
  · exact Made.wellFormed
  · intro wellFormed
    exact .ofBytes (ofBytes_toBytes wellFormed)

end ThresholdSignature

end LedgerClient
