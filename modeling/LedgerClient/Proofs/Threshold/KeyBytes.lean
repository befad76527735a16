import LedgerClient.Proofs.Threshold.Key

/-!
# Which bytes are a key set

Every byte string whose length is one more than a multiple of 32 is what some members and a threshold
would be written as (`exists_toBytes`); the members need not be points, nor the threshold fit. So the
bytes of a key set are judged like the key set itself. First its size and its threshold count, as
they do where a program puts members together, and then the first member that is no point
(`ofBytes_toBytes_eq`). `Refused` lists the byte strings that are no key set, each with its fault.
-/

set_option autoImplicit false

namespace LedgerClient

section Check

variable {count : Nat} {threshold : UInt8}

theorem checkKeySet_zero (threshold : UInt8) : checkKeySet 0 threshold = .error .noKeys := rfl

theorem checkKeySet_of_many (many : maxMembers < count) :
    checkKeySet count threshold = .error (.tooManyKeys count) := by
  rw [checkKeySet, if_neg (by omega), if_pos many]

theorem checkKeySet_of_outside (fits : 1 ≤ count ∧ count ≤ maxMembers)
    (outside : ¬ (1 ≤ threshold.toNat ∧ threshold.toNat ≤ count)) :
    checkKeySet count threshold = .error (.badThreshold threshold count) := by
  have zero : threshold = 0 ↔ threshold.toNat = 0 := UInt8.toNat_inj.symm
  rw [checkKeySet, if_neg (by omega), if_neg (by omega), if_pos (by rw [zero]; omega)]

end Check

/-- Bytes of which 32 make an encoding are the encodings of some keys. -/
theorem PublicKey.exists_flatMap_toList {count : Nat} {bytes : Bytes}
    (length : bytes.length = 32 * count) :
    ∃ keys : List PublicKey, keys.flatMap toList = bytes := by
  induction count generalizing bytes with
  | zero => exact ⟨[], (List.length_eq_zero_iff.1 length).symm⟩
  | succ count ih =>
    have first : (bytes.take 32).length = Octets.Kind.publicKey.size := by
      rw [List.length_take, length]
      exact Nat.min_eq_left (by omega)
    have others : (bytes.drop 32).length = 32 * count := by
      rw [List.length_drop, length]
      omega
    obtain ⟨keys, spelled⟩ := ih others
    refine ⟨⟨⟨bytes.take 32, first⟩⟩ :: keys, ?_⟩
    rw [List.flatMap_cons, spelled]
    exact List.take_append_drop 32 bytes

namespace ThresholdKey

theorem exists_toBytes {count : Nat} {bytes : Bytes} (length : bytes.length = 32 * count + 1) :
    ∃ key : ThresholdKey, key.toBytes = bytes := by
  obtain ⟨front, threshold, rfl⟩ : ∃ front threshold, bytes = front ++ [threshold] := by
    have some : bytes ≠ [] := List.length_pos_iff.1 (by omega)
    exact ⟨_, _, (List.dropLast_concat_getLast some).symm⟩
  rw [List.length_append, List.length_singleton] at length
  obtain ⟨members, spelled⟩ := PublicKey.exists_flatMap_toList (Nat.succ.inj length)
  exact ⟨⟨members, threshold⟩, by rw [toBytes, spelled]⟩

/-- The bytes that are no key set, with the first fault that they have. -/
inductive Refused : Bytes → DataError → Prop
  | empty : Refused [] .noKeys
  /-- They are not divided into encodings and a threshold. -/
  | undivided {bytes : Bytes} (some : bytes ≠ []) (length : ∀ n, bytes.length ≠ 32 * n + 1) :
    Refused bytes (.keySetLength bytes.length)
  /-- They are a threshold alone. -/
  | noMembers (threshold : UInt8) : Refused [threshold] .noKeys
  | tooMany {key : ThresholdKey} (many : maxMembers < key.members.length) :
    Refused key.toBytes (.tooManyKeys key.members.length)
  | badThreshold {key : ThresholdKey}
    (count : 1 ≤ key.members.length ∧ key.members.length ≤ maxMembers)
    (outside : ¬ (1 ≤ key.threshold.toNat ∧ key.threshold.toNat ≤ key.members.length)) :
    Refused key.toBytes (.badThreshold key.threshold key.members.length)
  /-- A member cannot be read, and those before it can. -/
  | badMember {key : ThresholdKey} (wellFormed : key.WellFormed) {earlier later : List PublicKey}
    {member : PublicKey} (members : key.members = earlier ++ member :: later)
    (good : ∀ other ∈ earlier, PublicKey.ofBytes other.toList = .ok other) {e : DataError}
    (bad : PublicKey.ofBytes member.toList = .error e) : Refused key.toBytes e

variable {key : ThresholdKey} {bytes : Bytes} {e : DataError}

/-- The bytes of a set of members that is no key set are refused as such a set is. -/
theorem ofBytes_toBytes_of_error
    (failed : checkKeySet key.members.length key.threshold = .error e) :
    ofBytes key.toBytes = .error e := by
  rw [ofBytes_toBytes_eq, failed]
  rfl

/-- The bytes of a key set are refused for the first member that cannot be read. -/
theorem ofBytes_toBytes_of_badMember (wellFormed : key.WellFormed)
    {earlier later : List PublicKey} {member : PublicKey}
    (members : key.members = earlier ++ member :: later)
    (good : ∀ other ∈ earlier, PublicKey.ofBytes other.toList = .ok other)
    (bad : PublicKey.ofBytes member.toList = .error e) : ofBytes key.toBytes = .error e := by
  have parts : key.members.map PublicKey.toList =
      earlier.map PublicKey.toList ++ member.toList :: later.map PublicKey.toList := by
    rw [members, List.map_append, List.map_cons]
  rw [ofBytes_toBytes_eq, checkKeySet_eq_ok_iff.2 wellFormed, parts,
    Octets.readEach_of_error (Octets.readEach_map good) bad]
  rfl

theorem ofBytes_of_undivided (some : bytes ≠ []) (length : ∀ n, bytes.length ≠ 32 * n + 1) :
    ofBytes bytes = .error (.keySetLength bytes.length) := by
  obtain ⟨front, threshold, rfl⟩ : ∃ front threshold, bytes = front ++ [threshold] :=
    ⟨_, _, (List.dropLast_concat_getLast some).symm⟩
  have last : (front ++ [threshold]).getLast? = .some threshold := List.getLast?_concat
  have odd : front.length % 32 ≠ 0 := by
    intro whole
    have divided := length (front.length / 32)
    rw [List.length_append, List.length_singleton] at divided
    omega
  unfold ofBytes
  simp only [last, List.dropLast_concat, ne_eq, odd, not_false_eq_true, if_true]

theorem ofBytes_of_refused (refused : Refused bytes e) : ofBytes bytes = .error e := by
  cases refused with
  | empty => rfl
  | undivided some length => exact ofBytes_of_undivided some length
  | noMembers threshold =>
    have failed := checkKeySet_zero threshold
    exact (ofBytes_toBytes_of_error failed : ofBytes (toBytes ⟨[], threshold⟩) = _)
  | tooMany many => exact ofBytes_toBytes_of_error (checkKeySet_of_many many)
  | badThreshold count outside =>
    exact ofBytes_toBytes_of_error (checkKeySet_of_outside count outside)
  | badMember wellFormed members good bad =>
    exact ofBytes_toBytes_of_badMember wellFormed members good bad

/-- Members are read up to the first that is refused. -/
theorem points_or_badMember (members : List PublicKey) :
    (∀ member ∈ members, PublicKey.ofBytes member.toList = .ok member) ∨
      ∃ earlier member later e, members = earlier ++ member :: later ∧
        (∀ other ∈ earlier, PublicKey.ofBytes other.toList = .ok other) ∧
        PublicKey.ofBytes member.toList = .error e := by
  induction members with
  | nil => exact .inl nofun
  | cons first others ih =>
    cases read : PublicKey.ofBytes first.toList with
    | error e => exact .inr ⟨[], first, others, e, rfl, nofun, read⟩
    | ok key =>
      obtain rfl : key = first := PublicKey.toList_inj (PublicKey.toList_of_ofBytes read)
      rcases ih with all | ⟨earlier, member, later, e, rfl, good, bad⟩
      · exact .inl (List.forall_mem_cons.2 ⟨read, all⟩)
      · exact .inr ⟨key :: earlier, member, later, e, rfl, List.forall_mem_cons.2 ⟨read, good⟩,
          bad⟩

/-- Bytes that are not refused are those of a key set that can be read. The cases are the checks, in
their order. -/
theorem refused_or_toBytes (bytes : Bytes) :
    (∃ e, Refused bytes e) ∨
      ∃ key : ThresholdKey, key.toBytes = bytes ∧ key.WellFormed ∧
        ∀ member ∈ key.members, PublicKey.ofBytes member.toList = .ok member := by
  by_cases nothing : bytes = []
  · subst nothing
    exact .inl ⟨_, .empty⟩
  by_cases divided : ∃ n, bytes.length = 32 * n + 1
  · obtain ⟨n, length⟩ := divided
    obtain ⟨key, rfl⟩ := exists_toBytes length
    by_cases none : key.members.length = 0
    · obtain ⟨members, threshold⟩ := key
      obtain rfl := List.length_eq_zero_iff.1 none
      exact .inl ⟨_, .noMembers threshold⟩
    by_cases many : maxMembers < key.members.length
    · exact .inl ⟨_, .tooMany many⟩
    have count : 1 ≤ key.members.length ∧ key.members.length ≤ maxMembers := by omega
    by_cases inside : 1 ≤ key.threshold.toNat ∧ key.threshold.toNat ≤ key.members.length
    · have wellFormed : key.WellFormed := ⟨inside.1, inside.2, count.2⟩
      rcases points_or_badMember key.members with
        points | ⟨earlier, member, later, e, members, good, bad⟩
      · exact .inr ⟨key, rfl, wellFormed, points⟩
      · exact .inl ⟨e, .badMember wellFormed members good bad⟩
    · exact .inl ⟨_, .badThreshold count inside⟩
  · exact .inl ⟨_, .undivided nothing fun n length => divided ⟨n, length⟩⟩

theorem ofBytes_eq_ok_iff :
    ofBytes bytes = .ok key ↔
      key.toBytes = bytes ∧ key.WellFormed ∧
        ∀ member ∈ key.members, PublicKey.ofBytes member.toList = .ok member := by
  constructor
  · intro read
    obtain ⟨spelled, wellFormed, points⟩ := toBytes_of_ofBytes read
    exact ⟨spelled, wellFormed, fun member mem => PublicKey.ofBytes_toList_iff.2 (points member mem)⟩
  · rintro ⟨rfl, wellFormed, points⟩
    exact ofBytes_toBytes wellFormed fun member mem =>
      PublicKey.ofBytes_toList_iff.1 (points member mem)

theorem ofBytes_eq_error_iff : ofBytes bytes = .error e ↔ Refused bytes e := by
  constructor
  · intro failed
    rcases refused_or_toBytes bytes with ⟨fault, refused⟩ | ⟨key, accepted⟩
    · obtain rfl : e = fault := Except.error.inj (failed.symm.trans (ofBytes_of_refused refused))
      exact refused
    · cases failed.symm.trans (ofBytes_eq_ok_iff.2 accepted)
  · exact ofBytes_of_refused

/-- Bytes are a key set if they are those of one, that is between one and 32 encodings of points and a
threshold that these members reach; all other bytes are refused with the first fault that they
have. Members that can be read are put together to a key set just where their bytes are read as
one, and are refused with the same fault elsewhere. -/
theorem bytes_are_judged_as_key_set :
    (∀ (bytes : Bytes) (key : ThresholdKey), ofBytes bytes = .ok key ↔
        key.toBytes = bytes ∧ key.WellFormed ∧
          ∀ member ∈ key.members, PublicKey.ofBytes member.toList = .ok member) ∧
      (∀ (bytes : Bytes) (e : DataError), ofBytes bytes = .error e ↔ Refused bytes e) ∧
      ∀ (members : List PublicKey) (threshold : UInt8),
        (∀ member ∈ members, PublicKey.ofBytes member.toList = .ok member) →
        make members threshold = ofBytes (members.flatMap PublicKey.toList ++ [threshold]) := by
  refine ⟨fun bytes key => ofBytes_eq_ok_iff, fun bytes e => ofBytes_eq_error_iff, ?_⟩
  intro members threshold points
  have bytes := ofBytes_toBytes_eq ⟨members, threshold⟩
  rw [toBytes, Octets.readEach_map points] at bytes
  rw [bytes, make]
  cases checkKeySet members.length threshold with
  | error e => rfl
  | ok passed => rfl

namespace Sample

/-- The encoding of the neutral point. -/
def neutral : PublicKey := ⟨⟨1 :: List.replicate 31 0, rfl⟩⟩

/-- No point of the curve has the ordinate two. -/
def stray : PublicKey := ⟨⟨2 :: List.replicate 31 0, rfl⟩⟩

theorem ofBytes_neutral : PublicKey.ofBytes neutral.toList = .ok neutral :=
  PublicKey.ofBytes_toList_iff.2 (by decide +kernel)

theorem ofBytes_stray : PublicKey.ofBytes stray.toList = .error .notPoint := by
  rw [PublicKey.ofBytes_toList, if_neg (by decide +kernel)]

end Sample

/-- Two good members do not reach the threshold three, however the set is made; and a key set whose
second member is no point is refused for this member. -/
theorem unreached_threshold_is_refused :
    (∀ member ∈ [Sample.neutral, Sample.neutral],
        PublicKey.ofBytes member.toList = .ok member) ∧
      make [Sample.neutral, Sample.neutral] 3 = .error (.badThreshold 3 2) ∧
      ofBytes ([Sample.neutral, Sample.neutral].flatMap PublicKey.toList ++ [3]) =
        .error (.badThreshold 3 2) ∧
      ofBytes (toBytes ⟨[Sample.neutral, Sample.stray], 1⟩) = .error .notPoint := by
  have good : ∀ member ∈ [Sample.neutral], PublicKey.ofBytes member.toList = .ok member :=
    List.forall_mem_singleton.2 Sample.ofBytes_neutral
  have members : ∀ member ∈ [Sample.neutral, Sample.neutral],
      PublicKey.ofBytes member.toList = .ok member :=
    List.forall_mem_cons.2 ⟨Sample.ofBytes_neutral, good⟩
  obtain ⟨-, refused, same⟩ := bytes_are_judged_as_key_set
  have made : make [Sample.neutral, Sample.neutral] 3 = .error (.badThreshold 3 2) := rfl
  have wellFormed : WellFormed ⟨[Sample.neutral, Sample.stray], 1⟩ := by
    refine ⟨?_, ?_, ?_⟩ <;> decide
  exact ⟨members, made, (same _ 3 members).symm.trans made,
    (refused _ _).2 (.badMember wellFormed rfl good Sample.ofBytes_stray)⟩

end ThresholdKey

end LedgerClient
