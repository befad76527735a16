import LedgerClient.Proofs.Wire.Reader
import LedgerClient.Wire.Uleb128

/-!
# Numbers on the wire

A number of fixed width and the bytes that spell it determine each other
(`ofLittleEndian_littleEndian`, `littleEndian_ofLittleEndian`). The variable-length form is read
back where the number has at most 32 bits (`read_encode`), is the only form that the reader takes
(`eq_encode_of_read`), and shows where it ends, for numbers of any size (`encode_append_inj`).
-/

set_option autoImplicit false

namespace LedgerClient

namespace Bytes

theorem ofLittleEndian_littleEndian {width n : Nat} (h : n < Nat.pow 256 width) :
    ofLittleEndian (littleEndian width n) = n := by
  induction width generalizing n with
  | zero => exact (Nat.lt_one_iff.1 h).symm
  | succ width ih =>
    have high : n / 256 < Nat.pow 256 width := Nat.div_lt_of_lt_mul (by rwa [Nat.mul_comm])
    rw [littleEndian, ofLittleEndian, ih high, UInt8.toNat_ofNat']
    omega

theorem ofLittleEndian_lt (bytes : Bytes) : ofLittleEndian bytes < Nat.pow 256 bytes.length := by
  induction bytes with
  | nil => exact Nat.zero_lt_one
  | cons b rest ih =>
    have byte := b.toNat_lt
    have grown : Nat.pow 256 (b :: rest).length = Nat.pow 256 rest.length * 256 := rfl
    rw [ofLittleEndian, grown]
    omega

theorem littleEndian_ofLittleEndian {width : Nat} {bytes : Bytes} (h : bytes.length = width) :
    littleEndian width (ofLittleEndian bytes) = bytes := by
  subst h
  induction bytes with
  | nil => rfl
  | cons b rest ih =>
    have byte := b.toNat_lt
    have low : UInt8.ofNat (b.toNat + 256 * ofLittleEndian rest) = b := by
      apply UInt8.toNat_inj.1
      rw [UInt8.toNat_ofNat']
      omega
    have high : (b.toNat + 256 * ofLittleEndian rest) / 256 = ofLittleEndian rest := by omega
    rw [List.length_cons, littleEndian, ofLittleEndian, low, high, ih]

end Bytes

namespace Uleb128

theorem encode_of_lt {n : Nat} (h : n < 128) : encode n = [UInt8.ofNat n] := by
  rw [encode, if_pos h]

theorem encode_of_le {n : Nat} (h : 128 ≤ n) :
    encode n = UInt8.ofNat (128 + n % 128) :: encode (n / 128) := by
  rw [encode, if_neg (by omega)]

/-- The first byte of a number says whether others follow. -/
theorem toNat_last {n : Nat} (h : n < 128) : (UInt8.ofNat n).toNat = n := by
  rw [UInt8.toNat_ofNat']
  omega

theorem toNat_continued (n : Nat) : (UInt8.ofNat (128 + n % 128)).toNat = 128 + n % 128 := by
  rw [UInt8.toNat_ofNat']
  omega

theorem readGroups_last {groups : Nat} {first : Bool} {b : UInt8} {rest : Bytes}
    (last : b.toNat < 128) (shortest : first = true ∨ b.toNat ≠ 0) :
    readGroups (groups + 1) first (b :: rest) = (.ok b.toNat, rest) := by
  have zero : (!first && b == 0) = false := by
    rcases shortest with rfl | nonzero
    · rfl
    · have : b ≠ 0 := fun same => nonzero (by rw [same]; rfl)
      simp [this]
  rw [readGroups, Reader.andThen_of_ok (Reader.byte_cons b rest),
    if_pos (UInt8.lt_iff_toNat_lt.2 last), zero]
  rfl

theorem readGroups_continued {groups : Nat} {first : Bool} {b : UInt8} {rest : Bytes}
    (continued : 128 ≤ b.toNat) :
    readGroups (groups + 1) first (b :: rest) =
      Reader.andThen (readGroups groups false) (fun high => .ok (b.toNat - 128 + 128 * high))
        rest := by
  have goesOn : ¬ b < 128 := fun last => absurd (UInt8.lt_iff_toNat_lt.1 last)
    (Nat.not_lt.2 continued)
  rw [readGroups, Reader.andThen_of_ok (Reader.byte_cons b rest), if_neg goesOn]

/-- The shortest form is read back as far as the groups reach. -/
theorem readGroups_encode {groups n : Nat} (h : n < Nat.pow 128 (groups + 1)) (first : Bool)
    (shortest : first = true ∨ n ≠ 0) (rest : Bytes) :
    readGroups (groups + 1) first (encode n ++ rest) = (.ok n, rest) := by
  induction groups generalizing n first with
  | zero =>
    have small : n < 128 := h
    have last := toNat_last small
    rw [encode_of_lt small, List.singleton_append,
      readGroups_last (by omega) (shortest.imp_right (by omega)), last]
  | succ groups ih =>
    by_cases small : n < 128
    · have last := toNat_last small
      rw [encode_of_lt small, List.singleton_append,
        readGroups_last (by omega) (shortest.imp_right (by omega)), last]
    · have high : n / 128 < Nat.pow 128 (groups + 1) :=
        Nat.div_lt_of_lt_mul (by rwa [Nat.mul_comm])
      have continued := toNat_continued n
      rw [encode_of_le (by omega), List.cons_append, readGroups_continued (by omega),
        Reader.andThen_of_ok (ih high false (.inr (by omega))), continued]
      exact congrArg (fun m => (Except.ok m, rest)) (by omega)

/-- What the groups read is the shortest form of a number. -/
theorem eq_encode_of_readGroups {groups n : Nat} {first : Bool} {unread rest : Bytes}
    (h : readGroups groups first unread = (.ok n, rest)) :
    unread = encode n ++ rest ∧ (first = true ∨ n ≠ 0) := by
  induction groups generalizing n first unread with
  | zero => cases (Prod.mk.inj h).1
  | succ groups ih =>
    cases unread with
    | nil => cases (Prod.mk.inj h).1
    | cons b tail =>
      by_cases last : b.toNat < 128
      · by_cases shortest : first = true ∨ b.toNat ≠ 0
        · rw [readGroups_last last shortest] at h
          obtain ⟨rfl, rfl⟩ := Reader.ok_inj h
          rw [encode_of_lt last, UInt8.ofNat_toNat]
          exact ⟨rfl, shortest⟩
        · obtain ⟨later, zero⟩ := not_or.1 shortest
          obtain rfl : b = 0 := UInt8.toNat_inj.1 (Decidable.not_not.1 zero)
          simp [readGroups, Reader.andThen, Reader.byte, later, Reader.fail] at h
      · rw [readGroups_continued (by omega)] at h
        obtain ⟨high, mid, read, value⟩ := Reader.andThen_eq_ok.1 h
        obtain ⟨rfl, rfl⟩ := Reader.ok_inj value
        obtain ⟨tailEq, nonzero⟩ := ih read
        have byte := b.toNat_lt
        have positive : high ≠ 0 := by simpa using nonzero
        have low : UInt8.ofNat (128 + (b.toNat - 128 + 128 * high) % 128) = b := by
          apply UInt8.toNat_inj.1
          rw [toNat_continued]
          omega
        have rest : (b.toNat - 128 + 128 * high) / 128 = high := by omega
        refine ⟨?_, .inr (by omega)⟩
        rw [encode_of_le (by omega), low, rest, List.cons_append, tailEq]

/-- A number of at most 32 bits is read back, and nothing behind it. -/
theorem read_encode {n : Nat} (h : n < UInt32.size) (rest : Bytes) :
    read (encode n ++ rest) = (.ok n, rest) := by
  have groups : n < Nat.pow 128 5 := Nat.lt_of_lt_of_le h (by decide)
  rw [read, Reader.andThen_of_ok (readGroups_encode groups true (.inl rfl) rest), if_pos h]
  rfl

/-- The reader takes no form but the shortest, and no number of more than 32 bits. -/
theorem eq_encode_of_read {n : Nat} {unread rest : Bytes} (h : read unread = (.ok n, rest)) :
    unread = encode n ++ rest ∧ n < UInt32.size := by
  obtain ⟨m, mid, groups, value⟩ := Reader.andThen_eq_ok.1 h
  split at value
  · rename_i small
    obtain ⟨rfl, rfl⟩ := Reader.ok_inj value
    exact ⟨(eq_encode_of_readGroups groups).1, small⟩
  · exact (Reader.not_fail_eq_ok value).elim

/-- The form of a number shows where it ends: equal first bytes say whether both forms go on. -/
theorem encode_append_inj {m n : Nat} {s t : Bytes} (h : encode m ++ s = encode n ++ t) :
    m = n ∧ s = t := by
  induction m using Nat.strongRecOn generalizing n with
  | ind m ih =>
    by_cases small : m < 128 <;> by_cases small' : n < 128
    · rw [encode_of_lt small, encode_of_lt small'] at h
      obtain ⟨byte, tails⟩ := List.cons.inj h
      have same := congrArg UInt8.toNat byte
      rw [toNat_last small, toNat_last small'] at same
      exact ⟨same, tails⟩
    · rw [encode_of_lt small, encode_of_le (by omega)] at h
      have same := congrArg UInt8.toNat (List.cons.inj h).1
      rw [toNat_last small, toNat_continued] at same
      omega
    · rw [encode_of_le (by omega), encode_of_lt small'] at h
      have same := congrArg UInt8.toNat (List.cons.inj h).1
      rw [toNat_last small', toNat_continued] at same
      omega
    · rw [encode_of_le (Nat.not_lt.1 small), encode_of_le (Nat.not_lt.1 small')] at h
      obtain ⟨byte, tails⟩ := List.cons.inj h
      have same := congrArg UInt8.toNat byte
      rw [toNat_continued, toNat_continued] at same
      obtain ⟨high, rest⟩ := ih (m / 128) (by omega) tails
      exact ⟨by omega, rest⟩

theorem steady_readGroups (groups : Nat) (first : Bool) : (readGroups groups first).Steady := by
  induction groups generalizing first with
  | zero => exact .fail _
  | succ groups ih =>
    refine .andThen .byte fun b => ?_
    split
    · split
      · exact .fail _
      · exact .ok _
    · exact .andThen (ih false) fun high => .ok _

theorem steady_read : read.Steady :=
  .andThen (steady_readGroups 5 true) fun n => by
    split
    · exact .ok n
    · exact .fail _

end Uleb128

end LedgerClient
