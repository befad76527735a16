import LedgerClient.Proofs.Threshold.Signature
import Mathlib.Data.Finset.Sort
import Mathlib.Data.Fintype.Basic

/-!
# Who has signed

A threshold signature is checked by pairing the positions of its bitmap with its signatures, and the
threshold is compared with the number of positions. Neither list is cut short by the pairing,
because every threshold signature has one signature for each position. So a good one has a signature
of every member that the bitmap names, each under that member's own key, and no other signature
(`verify_iff_named_members_signed`).
-/

set_option autoImplicit false

namespace LedgerClient

namespace Bitmap

/-- The positions that the bitmap names, as a set. -/
def named (m : Bitmap) : Finset Position := Finset.univ.filter fun i => m.contains i = true

@[simp] theorem mem_named {m : Bitmap} {i : Position} : i ∈ m.named ↔ m.contains i = true := by
  simp only [named, Finset.mem_filter, Finset.mem_univ, true_and]

/-- The list of the positions is in increasing order. -/
@[simp] theorem sort_named (m : Bitmap) : m.named.sort = m.toList := by
  have same : m.toList.toFinset = m.named := by
    ext i
    simp
  have increasing : m.toList.Pairwise (· ≤ ·) := m.pairwise_toList.imp le_of_lt
  rw [← same, List.toFinset_sort _ m.nodup_toList]
  exact increasing

@[simp] theorem card_named (m : Bitmap) : m.named.card = m.count := by
  rw [← Finset.length_sort (· ≤ ·), sort_named, length_toList]

end Bitmap

namespace ThresholdSignature

variable {s : ThresholdSignature} {key : ThresholdKey} {message : Bytes}

/-- The member at the position has made this signature of the message. -/
def SignedAt (key : ThresholdKey) (message : Bytes) (i : Bitmap.Position) (signature : Signature) :
    Prop :=
  ∃ member, key.members[i.val]? = some member ∧ member.verify message signature = true

theorem SignedAt.lt {i : Bitmap.Position} {signature : Signature}
    (signed : SignedAt key message i signature) : i.val < key.members.length := by
  obtain ⟨member, at?, -⟩ := signed
  exact (List.getElem?_eq_some_iff.1 at?).1

/-- The check, by position in the two lists that it pairs. -/
theorem verify_iff_zip : s.verify message key = true ↔
    key.threshold.toNat ≤ s.signers.length ∧
      ∀ pair ∈ s.signers.zip s.signatures, SignedAt key message pair.1 pair.2 := by
  simp only [verify, Bool.and_eq_true, Bool.not_eq_true', decide_eq_false_iff_not, Nat.not_lt,
    List.all_eq_true]
  refine and_congr_right fun _ => forall₂_congr fun pair _ => ?_
  unfold SignedAt
  cases key.members[pair.1.val]? with
  | none => simp
  | some member => simp

/-- There is a signature for each position, no more and no fewer. -/
theorem card_named (wellFormed : s.WellFormed) : s.bitmap.named.card = s.signatures.length := by
  rw [Bitmap.card_named, wellFormed.2]

/-- The positions and the signatures are paired in full: the `k`-th smallest position with the
`k`-th signature. -/
theorem forall_zip_iff (count : s.bitmap.named.card = s.signatures.length)
    (P : Bitmap.Position → Signature → Prop) :
    (∀ pair ∈ s.signers.zip s.signatures, P pair.1 pair.2) ↔
      ∀ k : Fin s.signatures.length,
        P (s.bitmap.named.orderEmbOfFin count k) s.signatures[k] := by
  have length : s.signers.length = s.signatures.length := by
    simpa [signers] using count
  have smallest : ∀ (k : Nat) (inside : k < s.signers.length) (inside' : k < s.signatures.length),
      s.signers[k] = s.bitmap.named.orderEmbOfFin count ⟨k, inside'⟩ := by
    intro k inside inside'
    simp only [Finset.orderEmbOfFin_apply, Bitmap.sort_named, signers, Fin.getElem_fin]
  constructor
  · intro each k
    have inside : k.val < s.signers.length := k.isLt.trans_eq length.symm
    have inZip : k.val < (s.signers.zip s.signatures).length := by
      rw [List.length_zip, length, Nat.min_self]
      exact k.isLt
    have paired := each _ (List.getElem_mem inZip)
    rw [List.getElem_zip] at paired
    rw [← smallest k.val inside k.isLt]
    exact paired
  · intro each pair mem
    obtain ⟨k, inZip, rfl⟩ := List.getElem_of_mem mem
    have inside' : k < s.signatures.length := by
      rwa [List.length_zip, length, Nat.min_self] at inZip
    have inside : k < s.signers.length := inside'.trans_eq length.symm
    rw [List.getElem_zip, smallest k inside inside']
    exact each ⟨k, inside'⟩

/-- A threshold signature is good exactly if the bitmap names enough positions, each of them is that
of a member, and in their order each of these members has made its signature. The positions are the
bits of the bitmap, highest bit first. -/
theorem verify_iff_named_members_signed (made : s.Made) (key : ThresholdKey) (message : Bytes) :
    (∀ i, i ∈ s.bitmap.named ↔ ∃ byte, s.bitmap.toBytes[i.val / 8]? = some byte ∧
      byte.toNat.testBit (7 - i.val % 8) = true) ∧
    ∃ count : s.bitmap.named.card = s.signatures.length,
      (s.verify message key = true ↔
        key.threshold.toNat ≤ s.bitmap.named.card ∧
        (∀ i ∈ s.bitmap.named, i.val < key.members.length) ∧
        ∀ k : Fin s.signatures.length,
          SignedAt key message (s.bitmap.named.orderEmbOfFin count k) s.signatures[k]) := by
  refine ⟨fun i => ?_, card_named made.wellFormed, ?_⟩
  · rw [Bitmap.mem_named, Bitmap.contains_iff_testBit]
  have signers : s.signers.length = s.bitmap.named.card := by
    simp [ThresholdSignature.signers]
  rw [verify_iff_zip, forall_zip_iff (card_named made.wellFormed) (SignedAt key message), signers]
  constructor
  · rintro ⟨enough, each⟩
    refine ⟨enough, fun i mem => ?_, each⟩
    have placed : i ∈ Set.range (s.bitmap.named.orderEmbOfFin (card_named made.wellFormed)) := by
      rw [Finset.range_orderEmbOfFin]
      exact mem
    obtain ⟨k, rfl⟩ := placed
    exact (each k).lt
  · rintro ⟨enough, -, each⟩
    exact ⟨enough, each⟩

namespace Sample

/-- Two of three members have to sign. -/
def twoOfThree : ThresholdKey := ⟨List.replicate 3 ⟨.zero .publicKey⟩, 2⟩

/-- Signatures at a position of a member and at one beyond. -/
def signature : ThresholdSignature :=
  ⟨List.replicate 2 (.zero .signature), .ofList [5, 2]⟩

end Sample

theorem named_nonmember_is_refused :
    Sample.signature.Made ∧ Sample.signature.verify [] Sample.twoOfThree = false := by
  have made : Sample.signature.Made := made_iff.2 ⟨by decide, by decide⟩
  obtain ⟨-, count, verified⟩ := verify_iff_named_members_signed made Sample.twoOfThree []
  refine ⟨made, Bool.eq_false_iff.2 fun good => ?_⟩
  have member := (verified.1 good).2.1 5 (by decide)
  exact absurd member (by decide)

end ThresholdSignature

end LedgerClient
