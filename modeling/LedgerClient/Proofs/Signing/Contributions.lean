import LedgerClient.Proofs.Signing.Delivery
import LedgerClient.Proofs.Threshold.Assembly

/-!
# What each member contributes

The members of a key set that sign could do so on their own, each handing in its signature together
with its place. `ThresholdSecret.contributions` lists these pairs. They are the pairs of the
signature that the key set makes (`indexed_sign`), so putting them together in any order gives the
same. The key set itself goes through its members and sets their bits in the four bytes of the
bitmap as it goes (`signBytes?_eq`). It never looks at a member that does not sign, and neither does
the check.
-/

set_option autoImplicit false

namespace LedgerClient.ThresholdSecret

open ThresholdSignature

variable {secret other : ThresholdSecret} {message : Bytes}

/-- What the members that sign hand in: the signature of each, with its place. -/
def contributions (secret : ThresholdSecret) (message : Bytes) : List (Signature × UInt8) :=
  secret.contributors.zipIdx.map fun (member, place) => (member.sign message, UInt8.ofNat place)

/-- The walk through the members that sign, from the given place on. Each signature is appended and
the bit of its place is set, if there is a byte that has it. -/
def walk? (message : Bytes) (signatures : List Signature) (bitmap : Bytes) (place : Nat) :
    List SecretKey → Option (List Signature × Bytes)
  | [] => some (signatures, bitmap)
  | member :: rest =>
    match bitmap.setBit? (UInt8.ofNat place) with
    | none => none
    | some entered => walk? message (signatures ++ [member.sign message]) entered (place + 1) rest

/-- How a key set signs, on the four bytes. -/
def signBytes? (secret : ThresholdSecret) (message : Bytes) : Option (List Signature × Bytes) :=
  walk? message [] [0, 0, 0, 0] 0 secret.contributors

/-- A walk that stays below place 32 never runs into a missing byte. It appends the signatures and
enters the places that it comes by. -/
theorem walk?_toBytes (signatures : List Signature) (m : Bitmap) (place : Nat)
    (members : List SecretKey) (few : place + members.length ≤ 32) :
    walk? message signatures m.toBytes place members =
      some (signatures ++ members.map fun member => member.sign message,
        ((((List.finRange 32).drop place).take members.length).foldl Bitmap.insert m).toBytes) := by
  induction members generalizing signatures m place with
  | nil =>
    rw [walk?, List.length_nil, List.take_zero, List.map_nil, List.append_nil]
    rfl
  | cons member rest ih =>
    rw [List.length_cons] at few
    have number : (UInt8.ofNat place).toNat = place := toNat_ofNat_place (by omega)
    have small : (UInt8.ofNat place).toNat < 32 := by omega
    have here : (List.finRange 32).drop place =
        ⟨(UInt8.ofNat place).toNat, small⟩ :: (List.finRange 32).drop (place + 1) := by
      have inside : place < (List.finRange 32).length := by
        rw [List.length_finRange]
        omega
      rw [List.drop_eq_getElem_cons inside, List.getElem_finRange]
      simp only [number, Fin.cast_mk]
    rw [walk?, Bitmap.setBit?_toBytes m small]
    simp only
    rw [ih _ _ _ (by omega), here, List.length_cons, List.take_succ_cons, List.foldl_cons,
      List.map_cons, List.append_assoc]
    rfl

/-- Signing on the four bytes never runs into a missing one, and makes the signature. -/
theorem signBytes?_eq (wellFormed : secret.WellFormed) (message : Bytes) :
    secret.signBytes? message =
      some ((secret.sign message).signatures, (secret.sign message).bitmap.toBytes) := by
  have few : 0 + secret.contributors.length ≤ 32 := by
    rw [length_contributors wellFormed, Nat.zero_add]
    exact Nat.le_trans wellFormed.2.1 wellFormed.2.2
  rw [signBytes?, ← Bitmap.toBytes_empty, walk?_toBytes [] .empty 0 _ few, List.nil_append,
    List.drop_zero, ThresholdSecret.sign, List.length_map]
  rfl

/-- The places of the signers are the first ones, as many as the threshold asks for. -/
theorem indices_sign (wellFormed : secret.WellFormed) (message : Bytes) :
    (secret.sign message).indices = (List.range secret.threshold.toNat).map UInt8.ofNat := by
  have all : secret.threshold.toNat ≤ 32 := Nat.le_trans wellFormed.2.1 wellFormed.2.2
  have places : (List.finRange 32).map Fin.val = List.range 32 := List.map_coe_finRange_eq_range
  rw [indices, signers_sign wellFormed, ← Function.comp_def UInt8.ofNat Fin.val, ← List.map_map,
    List.map_take, places, List.take_range, Nat.min_eq_left all]

/-- The signature has the pairs that are handed in. -/
theorem indexed_sign (wellFormed : secret.WellFormed) (message : Bytes) :
    (secret.sign message).indexed = secret.contributions message := by
  have signatures : (secret.sign message).signatures =
      secret.contributors.map fun member => member.sign message := rfl
  rw [indexed, indices_sign wellFormed, signatures, contributions, List.zipIdx_eq_zip_range',
    length_contributors wellFormed, List.range_eq_range', List.zip_map]
  rfl

/-- Putting together what is handed in gives the signature, in whatever order it comes. -/
theorem ofIndexed_contributions (wellFormed : secret.WellFormed)
    {entries : List (Signature × UInt8)} (perm : entries.Perm (secret.contributions message)) :
    ofIndexed entries = .ok (secret.sign message) := by
  refine ofIndexed_eq_ok_iff.2 ⟨wellFormed_of_sign wellFormed message, ?_⟩
  rw [indexed_sign wellFormed]
  exact perm.symm

/-- The signature is that of the members that sign, and of no other. -/
theorem sign_congr (threshold : other.threshold = secret.threshold)
    (front : other.members.take secret.threshold.toNat = secret.contributors) :
    other.sign message = secret.sign message := by
  unfold ThresholdSecret.sign
  rw [threshold, front]
  rfl

/-- What a key set signs is what its first members hand in, put together in any order. It has the
first places, at each the signature of the member there, and a length that depends on the threshold
alone. Any two key sets with the same threshold and the same first members make the same signature.
And it is good under the public half of any key set with that threshold and these first members, if
each single signature is good under its own key. -/
theorem sign_is_assembled (wellFormed : secret.WellFormed) (message : Bytes) :
    (∀ entries, entries.Perm (secret.contributions message) →
      ofIndexed entries = .ok (secret.sign message)) ∧
    secret.signBytes? message =
      some ((secret.sign message).signatures, (secret.sign message).bitmap.toBytes) ∧
    (secret.sign message).indices = (List.range secret.threshold.toNat).map UInt8.ofNat ∧
    (secret.sign message).signatures.length = secret.threshold.toNat ∧
    (∀ k < secret.threshold.toNat, ∃ member, secret.members[k]? = some member ∧
      (secret.sign message).signatures[k]? = some (member.sign message)) ∧
    (secret.sign message).toBytes.length = 64 * secret.threshold.toNat + 4 ∧
    (∀ other : ThresholdSecret, other.threshold = secret.threshold →
      other.members.take secret.threshold.toNat = secret.members.take secret.threshold.toNat →
      other.sign message = secret.sign message) ∧
    ∀ key : ThresholdKey, key.threshold = secret.threshold →
      key.members.take secret.threshold.toNat =
        secret.publicKey.members.take secret.threshold.toNat →
      (∀ member ∈ secret.members.take secret.threshold.toNat,
        member.publicKey.verify message (member.sign message) = true) →
      (secret.sign message).verify message key = true := by
  have length := length_sign wellFormed message
  refine ⟨fun _ => ofIndexed_contributions wellFormed, signBytes?_eq wellFormed message,
    indices_sign wellFormed message, length, ?_, ?_, ?_, ?_⟩
  · intro k inside
    have place : k < secret.members.length := Nat.lt_of_lt_of_le inside wellFormed.2.1
    refine ⟨secret.members[k], List.getElem?_eq_getElem place, ?_⟩
    unfold ThresholdSecret.sign
    rw [List.getElem?_map, List.getElem?_take_of_lt inside, List.getElem?_eq_getElem place]
    rfl
  · rw [length_toBytes, length]
  · intro other threshold front
    exact sign_congr threshold front
  · intro key threshold front verified
    apply verify_sign wellFormed threshold ?_ verified
    have keys : secret.contributors.map SecretKey.publicKey =
        key.members.take secret.threshold.toNat := by
      rw [front, contributors, publicKey, List.map_take]
    rw [keys]
    exact List.take_prefix _ _

section Sample

open Signer.Sample

/-- The sample key set as it is published with one more member. -/
def Sample.larger : ThresholdKey := ⟨List.replicate 3 key.publicKey ++ [⟨.zero .publicKey⟩], 2⟩

theorem key_set_signature_is_assembled :
    ofIndexed [(key.sign [], 1), (key.sign [], 0)] = .ok (keySet.sign []) ∧
      (keySet.sign publication.signingMessage).verify publication.signingMessage Sample.larger =
        true := by
  have wellFormed : keySet.WellFormed := ⟨by decide, by decide, by decide⟩
  obtain ⟨assembled, -⟩ := sign_is_assembled wellFormed []
  obtain ⟨-, -, -, -, -, -, -, verified⟩ := sign_is_assembled wellFormed publication.signingMessage
  refine ⟨assembled _ (List.Perm.swap _ _ []), verified _ rfl rfl ?_⟩
  intro member mem
  rw [List.eq_of_mem_replicate (List.mem_of_mem_take mem)]
  exact verify_key

end Sample

end LedgerClient.ThresholdSecret
