import LedgerClient.Proofs.Threshold.Verification

/-!
# What a key set signs

The first members of a key set sign, as many as the threshold asks for. Their signatures stand in
their order and the bitmap names the first positions, in whichever bytes these are (`signers_sign`).
So the check finds each signature at the position of the key that made it, and accepts where every
single one is accepted (`verify_sign`).
-/

set_option autoImplicit false

namespace LedgerClient.ThresholdSecret

variable {secret : ThresholdSecret}

/-- The members that sign. -/
def contributors (secret : ThresholdSecret) : List SecretKey :=
  secret.members.take secret.threshold.toNat

theorem length_contributors (wellFormed : secret.WellFormed) :
    secret.contributors.length = secret.threshold.toNat := by
  simp [contributors, Nat.min_eq_left wellFormed.2.1]

/-- The positions of the signers are the first ones. -/
theorem signers_sign (wellFormed : secret.WellFormed) (message : Bytes) :
    (secret.sign message).signers = (List.finRange 32).take secret.threshold.toNat := by
  have bitmap : (secret.sign message).bitmap =
      .ofList ((List.finRange 32).take (secret.sign message).signatures.length) := rfl
  have increasing : ((List.finRange 32).take secret.threshold.toNat).Pairwise (· < ·) :=
    (List.pairwise_lt_finRange 32).sublist (List.take_sublist _ _)
  rw [ThresholdSignature.signers, bitmap, ThresholdSignature.length_sign wellFormed,
    Bitmap.toList_ofList increasing]

/-- A signature is good under every key set that begins with the keys of the signers and has their
threshold, if each single signature is good under its own key. -/
theorem verify_sign (wellFormed : secret.WellFormed) {key : ThresholdKey}
    (threshold : key.threshold = secret.threshold)
    (front : secret.contributors.map SecretKey.publicKey <+: key.members) {message : Bytes}
    (verified : ∀ member ∈ secret.contributors,
      member.publicKey.verify message (member.sign message) = true) :
    (secret.sign message).verify message key = true := by
  have all : secret.threshold.toNat ≤ 32 := Nat.le_trans wellFormed.2.1 wellFormed.2.2
  have length : ((List.finRange 32).take secret.threshold.toNat).length =
      secret.threshold.toNat := by
    simp [Nat.min_eq_left all]
  have signatures : (secret.sign message).signatures =
      secret.contributors.map fun member => member.sign message := rfl
  rw [ThresholdSignature.verify_iff_zip, signers_sign wellFormed, signatures, length, threshold]
  refine ⟨Nat.le_refl _, fun pair mem => ?_⟩
  -- The pair at place `k` is the position `k` and the signature of the member at that place.
  obtain ⟨k, inZip, rfl⟩ := List.getElem_of_mem mem
  have inside : k < secret.contributors.length := by
    rw [length_contributors wellFormed]
    rw [List.length_zip, length] at inZip
    exact Nat.lt_of_lt_of_le inZip (Nat.min_le_left _ _)
  obtain ⟨further, whole⟩ := front
  refine ⟨secret.contributors[k].publicKey, ?_, ?_⟩
  · have place : (((List.finRange 32).take secret.threshold.toNat).zip
        (secret.contributors.map fun member => member.sign message))[k].1.val = k := by
      simp
    rw [place, ← whole, List.getElem?_append_left (by simpa using inside), List.getElem?_map,
      List.getElem?_eq_getElem inside]
    rfl
  · rw [List.getElem_zip, List.getElem_map]
    exact verified _ (List.getElem_mem inside)

end LedgerClient.ThresholdSecret
