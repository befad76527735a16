import LedgerClient.Proofs.Octets.Parts
import LedgerClient.Proofs.Wire.Lawful
import LedgerClient.Threshold.Key

/-!
# Key sets on the wire

`ThresholdKey.Made` lists the ways in which a program comes by the public half of a key set. Each
of them leads to a well-formed one (`Made.wellFormed`). A well-formed key set whose members are
points is read back from its bytes, and no other bytes are read as it.
-/

set_option autoImplicit false

namespace LedgerClient

@[simp] theorem checkKeySet_eq_ok_iff {count : Nat} {threshold : UInt8} :
    checkKeySet count threshold = .ok () ↔
      1 ≤ threshold.toNat ∧ threshold.toNat ≤ count ∧ count ≤ maxMembers := by
  have zero : threshold = 0 ↔ threshold.toNat = 0 := UInt8.toNat_inj.symm
  unfold checkKeySet
  simp only [zero]
  constructor
  · intro passed
    split at passed
    · cases passed
    split at passed
    · cases passed
    split at passed
    · cases passed
    · omega
  · intro wellFormed
    rw [if_neg (by omega), if_neg (by omega), if_neg (by omega)]

namespace PublicKey

theorem toList_inj {key other : PublicKey} (same : key.toList = other.toList) : key = other := by
  cases key
  cases other
  exact congrArg PublicKey.mk (Octets.ext same)

@[simp] theorem length_toList (key : PublicKey) : key.toList.length = 32 := key.encoding.length_toList

theorem ofBytes_toList (key : PublicKey) :
    ofBytes key.toList = if key.IsPoint then .ok key else .error .notPoint := by
  have encoding : Octets.ofBytes .publicKey key.toList = .ok key.encoding :=
    Octets.ofBytes_toList key.encoding
  unfold ofBytes
  rw [encoding]

/-- The bytes of a key are read as the key where they encode a point. -/
@[simp] theorem ofBytes_toList_iff {key : PublicKey} : ofBytes key.toList = .ok key ↔ key.IsPoint := by
  rw [ofBytes_toList]
  by_cases point : key.IsPoint
  · rw [if_pos point]
    exact iff_of_true rfl point
  · rw [if_neg point]
    exact iff_of_false nofun point

theorem toList_of_ofBytes {bytes : Bytes} {key : PublicKey} (h : ofBytes bytes = .ok key) :
    key.toList = bytes := by
  unfold ofBytes at h
  split at h
  · cases h
  rename_i encoding found
  split at h
  · obtain rfl := Except.ok.inj h
    exact Octets.toList_of_ofBytes found
  · cases h

/-- A key is written with its length in front, and read where it encodes a point. -/
theorem lawful_codec : codec.Lawful IsPoint := by
  refine Codec.lawful_bytes.checked ?_ ?_ fun _ _ => toList_inj
  · intro key point
    refine ⟨ofBytes_toList_iff.2 point, ?_⟩
    rw [length_toList]
    decide
  · intro bytes key _ accepted
    have same := toList_of_ofBytes accepted
    rw [← same] at accepted
    exact ⟨same, ofBytes_toList_iff.1 accepted⟩

end PublicKey

namespace ThresholdSecret

theorem wellFormed_of_make {members : List SecretKey} {threshold : UInt8} {key : ThresholdSecret}
    (made : make members threshold = .ok key) : key.WellFormed := by
  unfold make at made
  split at made
  · cases made
  · rename_i passed
    obtain rfl := Except.ok.inj made
    exact checkKeySet_eq_ok_iff.1 passed

end ThresholdSecret

namespace ThresholdKey

/-- How a program comes by a key set: from its members, from its bytes, from the wire, or as the
public half of a secret key set. -/
inductive Made : ThresholdKey → Prop
  | make {members : List PublicKey} {threshold : UInt8} {key : ThresholdKey} :
    ThresholdKey.make members threshold = .ok key → Made key
  | ofBytes {bytes : Bytes} {key : ThresholdKey} : ThresholdKey.ofBytes bytes = .ok key → Made key
  | read {unread rest : Bytes} {key : ThresholdKey} :
    codec.read unread = (.ok key, rest) → Made key
  | publicKey {members : List SecretKey} {threshold : UInt8} {key : ThresholdSecret} :
    ThresholdSecret.make members threshold = .ok key → Made key.publicKey

/-- The members can be read from their own bytes. -/
def Points (key : ThresholdKey) : Prop := ∀ member ∈ key.members, member.IsPoint

@[simp] theorem length_toBytes (key : ThresholdKey) :
    key.toBytes.length = 32 * key.members.length + 1 := by
  rw [toBytes, List.length_append, Bytes.length_flatMap_of_size PublicKey.length_toList]
  rfl

theorem toBytes_inj {key other : ThresholdKey} (same : key.toBytes = other.toBytes) :
    key = other := by
  obtain ⟨members, threshold⟩ := List.append_inj' same rfl
  have equal := Bytes.flatMap_inj_of_size (by decide) PublicKey.length_toList
    (fun _ _ => PublicKey.toList_inj) members
  cases key
  cases other
  exact congr (congrArg mk equal) (List.cons.inj threshold).1

/-- The bytes of some members and a threshold are judged by their number and the threshold first, and
then member by member. -/
theorem ofBytes_toBytes_eq (key : ThresholdKey) :
    ofBytes key.toBytes =
      (checkKeySet key.members.length key.threshold).bind fun _ =>
        (Octets.readEach PublicKey.ofBytes (key.members.map PublicKey.toList)).map
          fun members => { members, threshold := key.threshold } := by
  have last : key.toBytes.getLast? = some key.threshold := List.getLast?_concat
  have parts : key.toBytes.dropLast = key.members.flatMap PublicKey.toList := List.dropLast_concat
  have length : (key.members.flatMap PublicKey.toList).length = 32 * key.members.length :=
    Bytes.length_flatMap_of_size PublicKey.length_toList _
  have count : 32 * key.members.length / 32 = key.members.length := by omega
  unfold ofBytes
  simp only [last, parts, length, count, Nat.mul_mod_right, ne_eq, not_true_eq_false, if_false,
    Bytes.chunks_flatMap PublicKey.length_toList]
  cases checkKeySet key.members.length key.threshold with
  | error e => rfl
  | ok passed =>
    cases Octets.readEach PublicKey.ofBytes (key.members.map PublicKey.toList) with
    | error e => rfl
    | ok members => rfl

/-- The bytes of a key set are read back. -/
theorem ofBytes_toBytes {key : ThresholdKey} (wellFormed : key.WellFormed) (points : key.Points) :
    ofBytes key.toBytes = .ok key := by
  have members : Octets.readEach PublicKey.ofBytes (key.members.map PublicKey.toList) =
      .ok key.members :=
    Octets.readEach_map fun member mem => PublicKey.ofBytes_toList_iff.2 (points member mem)
  rw [ofBytes_toBytes_eq, checkKeySet_eq_ok_iff.2 wellFormed, members]
  rfl

/-- What is read as a key set are its bytes; it is well-formed, and its members are points. -/
theorem toBytes_of_ofBytes {bytes : Bytes} {key : ThresholdKey} (h : ofBytes bytes = .ok key) :
    key.toBytes = bytes ∧ key.WellFormed ∧ key.Points := by
  unfold ofBytes at h
  split at h
  · cases h
  rename_i threshold last
  obtain ⟨parts, rfl⟩ := List.getLast?_eq_some_iff.1 last
  rw [List.dropLast_concat] at h
  simp only at h
  split at h
  · cases h
  rename_i whole
  split at h
  · cases h
  rename_i passed
  split at h
  · cases h
  rename_i members read
  obtain rfl := Except.ok.inj h
  obtain ⟨chunks, each⟩ := Octets.eq_map_of_readEach (fun _ _ => PublicKey.toList_of_ofBytes) read
  have count := congrArg List.length chunks
  rw [Bytes.length_chunks, List.length_map] at count
  have flat : members.flatMap PublicKey.toList = parts := by
    rw [List.flatMap_def, ← chunks, Bytes.flatten_chunks (by omega)]
  refine ⟨congrArg (· ++ [threshold]) flat, ?_, fun member mem => ?_⟩
  · rw [count] at passed
    exact checkKeySet_eq_ok_iff.1 passed
  · exact PublicKey.ofBytes_toList_iff.1 (each member mem)

/-- A key set is written with the length of its bytes in front. -/
theorem lawful_codec : codec.Lawful fun key => key.WellFormed ∧ key.Points := by
  refine Codec.lawful_bytes.checked ?_ ?_ fun _ _ => toBytes_inj
  · rintro key ⟨wellFormed, points⟩
    refine ⟨ofBytes_toBytes wellFormed points, ?_⟩
    have few : key.members.length ≤ 32 := wellFormed.2.2
    rw [length_toBytes]
    exact Nat.lt_of_le_of_lt (Nat.succ_le_succ (Nat.mul_le_mul_left 32 few)) (by decide)
  · intro bytes key _ accepted
    exact toBytes_of_ofBytes accepted

theorem wellFormed_of_make {members : List PublicKey} {threshold : UInt8} {key : ThresholdKey}
    (made : make members threshold = .ok key) : key.WellFormed := by
  unfold make at made
  split at made
  · cases made
  · rename_i passed
    obtain rfl := Except.ok.inj made
    exact checkKeySet_eq_ok_iff.1 passed

/-- However a program comes by a key set, the key set is well-formed. -/
theorem Made.wellFormed {key : ThresholdKey} (made : key.Made) : key.WellFormed := by
  cases made with
  | make made => exact wellFormed_of_make made
  | ofBytes read => exact (toBytes_of_ofBytes read).2.1
  | read read => exact (lawful_codec.eq_write_of_read read).2.1
  | @publicKey members threshold secret made =>
    have whole := ThresholdSecret.wellFormed_of_make made
    have length : secret.publicKey.members.length = secret.members.length := List.length_map _
    unfold WellFormed
    rw [length]
    exact whole

theorem made_iff {key : ThresholdKey} : key.Made ↔ key.WellFormed := by
  constructor
  · exact Made.wellFormed
  · intro wellFormed
    apply Made.make
    rw [make, checkKeySet_eq_ok_iff.2 wellFormed]

end ThresholdKey

end LedgerClient
