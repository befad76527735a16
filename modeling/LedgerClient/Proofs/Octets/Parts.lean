import LedgerClient.Octets.Forms

/-!
# Octets and parts of one size

Octets are accepted from their own bytes and from no others. Values whose forms have one size can
be told apart when the forms stand one after the other: cutting at the size gives the forms back
(`chunks_flatMap`), and putting the parts together gives the bytes back (`flatten_chunks`).
-/

set_option autoImplicit false

namespace LedgerClient

namespace Octets

variable {α : Type} {kind : Kind} {read : Bytes → Except DataError α} {form : α → Bytes}

@[simp] theorem ofBytes_toList (x : Octets kind) : ofBytes kind x.toList = .ok x := by
  simp [ofBytes]

theorem toList_of_ofBytes {bytes : Bytes} {x : Octets kind} (h : ofBytes kind bytes = .ok x) :
    x.toList = bytes := by
  unfold ofBytes ofList? at h
  split at h
  · rename_i found
    obtain rfl := Except.ok.inj h
    split at found
    · rw [← Option.some.inj found]
    · cases found
  · cases h

/-- The forms of values that are read back are read back as these values. -/
theorem readEach_map {values : List α} (h : ∀ v ∈ values, read (form v) = .ok v) :
    readEach read (values.map form) = .ok values := by
  induction values with
  | nil => rfl
  | cons v values ih =>
    obtain ⟨first, others⟩ := List.forall_mem_cons.1 h
    simp [readEach, first, ih others]

theorem eq_map_of_readEach {parts : List Bytes} {values : List α}
    (sound : ∀ part v, read part = .ok v → form v = part)
    (h : readEach read parts = .ok values) :
    parts = values.map form ∧ ∀ v ∈ values, read (form v) = .ok v := by
  induction parts generalizing values with
  | nil =>
    obtain rfl := Except.ok.inj h
    exact ⟨rfl, nofun⟩
  | cons part parts ih =>
    rw [readEach] at h
    split at h
    · cases h
    rename_i v first
    split at h
    · cases h
    rename_i others more
    obtain rfl := Except.ok.inj h
    obtain ⟨rfl, each⟩ := ih more
    have same := sound part v first
    rw [← same] at first
    rw [List.map_cons, same]
    exact ⟨rfl, List.forall_mem_cons.2 ⟨first, each⟩⟩

/-- The first part that is refused decides. -/
theorem readEach_of_error {earlier later : List Bytes} {part : Bytes} {values : List α}
    {e : DataError} (good : readEach read earlier = .ok values) (bad : read part = .error e) :
    readEach read (earlier ++ part :: later) = .error e := by
  induction earlier generalizing values with
  | nil => simp [readEach, bad]
  | cons first earlier ih =>
    rw [readEach] at good
    split at good
    · cases good
    rename_i v read
    split at good
    · cases good
    rename_i others more
    simp [readEach, read, ih more]

end Octets

namespace Bytes

variable {α : Type} {size : Nat} {form : α → Bytes}

theorem length_flatMap_of_size (length : ∀ v, (form v).length = size) (values : List α) :
    (values.flatMap form).length = size * values.length := by
  induction values with
  | nil => rfl
  | cons v values ih => simp [length, ih, Nat.mul_succ, Nat.add_comm]

theorem chunks_flatMap (length : ∀ v, (form v).length = size) (values : List α) :
    chunks size values.length (values.flatMap form) = values.map form := by
  induction values with
  | nil => rfl
  | cons v values ih =>
    have front : (form v ++ values.flatMap form).take size = form v := by
      rw [← length v, List.take_left]
    have back : (form v ++ values.flatMap form).drop size = values.flatMap form := by
      rw [← length v, List.drop_left]
    simp [chunks, front, back, ih]

@[simp] theorem length_chunks (size count : Nat) (bytes : Bytes) :
    (chunks size count bytes).length = count := by
  induction count generalizing bytes with
  | zero => rfl
  | succ count ih => simp [chunks, ih]

theorem flatten_chunks {count : Nat} {bytes : Bytes} (h : bytes.length = size * count) :
    (chunks size count bytes).flatten = bytes := by
  induction count generalizing bytes with
  | zero => exact (List.length_eq_zero_iff.1 h).symm
  | succ count ih =>
    have rest : (bytes.drop size).length = size * count := by simp [h, Nat.mul_succ]
    simp [chunks, ih rest]

/-- Equal bytes come from equal values, one by one. -/
theorem flatMap_inj_of_size (positive : 0 < size) (length : ∀ v, (form v).length = size)
    (injective : ∀ v w, form v = form w → v = w) {values others : List α}
    (same : values.flatMap form = others.flatMap form) : values = others := by
  have lengths : values.length = others.length := by
    have total := congrArg List.length same
    rw [length_flatMap_of_size length, length_flatMap_of_size length] at total
    exact Nat.eq_of_mul_eq_mul_left positive total
  have forms : values.map form = others.map form := by
    rw [← chunks_flatMap length, ← chunks_flatMap length, same, lengths]
  exact List.map_inj_right injective |>.1 forms

end Bytes

end LedgerClient
