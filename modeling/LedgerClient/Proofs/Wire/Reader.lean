import LedgerClient.Wire.Reader

/-!
# What readers do with their input

`andThen_eq_ok` takes a reading that succeeds apart into its steps. A reader is `Steady` if it only
ever drops a front part of its input, and if nothing that stands behind the input changes an answer
other than the end of the input. Every reader that is put together from steady ones is steady.
-/

set_option autoImplicit false

namespace LedgerClient.Reader

variable {α β : Type} {r : Reader α} {f : α → Reader β} {unread rest mid : Bytes} {a : α} {b : β}

theorem andThen_of_ok (h : r unread = (.ok a, mid)) : andThen r f unread = f a mid := by
  simp only [andThen, h]

theorem andThen_of_error {e : DataError} (h : r unread = (.error e, mid)) :
    andThen r f unread = (.error e, mid) := by
  simp only [andThen, h]

/-- A fault of the first step is the answer. -/
theorem fault_first {e : DataError} (h : (r unread).1 = .error e) :
    (andThen r f unread).1 = .error e := by
  rcases read : r unread with ⟨answer, rest⟩
  rw [read] at h
  obtain rfl : answer = .error e := h
  rw [andThen_of_error read]

/-- A fault of the second step is the answer when the first step succeeds. -/
theorem fault_second {e : DataError} (read : r unread = (.ok a, mid))
    (h : (f a mid).1 = .error e) : (andThen r f unread).1 = .error e := by
  rw [andThen_of_ok read, h]

/-- A reading in two steps succeeds only by both. -/
theorem andThen_eq_ok :
    andThen r f unread = (.ok b, rest) ↔
      ∃ a mid, r unread = (.ok a, mid) ∧ f a mid = (.ok b, rest) := by
  constructor
  · intro h
    rcases read : r unread with ⟨e | a, mid⟩
    · rw [andThen_of_error read] at h
      cases h
    · rw [andThen_of_ok read] at h
      exact ⟨a, mid, rfl, h⟩
  · rintro ⟨a, mid, read, h⟩
    rw [andThen_of_ok read, h]

theorem andThen_assoc {γ : Type} (r : Reader α) (f : α → Reader β) (g : β → Reader γ) :
    andThen (andThen r f) g = andThen r fun a => andThen (f a) g := by
  funext unread
  rcases read : r unread with ⟨e | a, mid⟩
  · simp only [andThen, read]
  · simp only [andThen, read]

theorem ok_inj {a' : α} (h : ok a unread = (.ok a', rest)) : a = a' ∧ unread = rest := by
  obtain ⟨value, left⟩ := Prod.mk.inj h
  exact ⟨Except.ok.inj value, left⟩

theorem not_fail_eq_ok {e : DataError} (h : (fail e : Reader α) unread = (.ok a, rest)) :
    False := by
  cases (Prod.mk.inj h).1

theorem take_append {count : Nat} {bytes : Bytes} (h : bytes.length = count) (rest : Bytes) :
    take count (bytes ++ rest) = (.ok bytes, rest) := by
  subst h
  simp [take]

theorem take_of_short {count : Nat} (short : unread.length < count) :
    take count unread = (.error .endOfInput, unread) := by
  have few : (unread.take count).length ≠ count := by
    rw [List.length_take]
    omega
  simp only [take, if_neg few]

theorem eq_append_of_take {count : Nat} {bytes : Bytes}
    (h : take count unread = (.ok bytes, rest)) :
    bytes.length = count ∧ unread = bytes ++ rest := by
  unfold take at h
  split at h
  · rename_i len
    obtain ⟨front, back⟩ := Prod.mk.inj h
    obtain rfl := Except.ok.inj front
    rw [← back, List.take_append_drop]
    exact ⟨len, rfl⟩
  · cases (Prod.mk.inj h).1

theorem eq_cons_of_byte {x : UInt8} (h : byte unread = (.ok x, rest)) : unread = x :: rest := by
  cases unread with
  | nil => cases (Prod.mk.inj h).1
  | cons y tail =>
    obtain ⟨head, rfl⟩ := Prod.mk.inj h
    rw [Except.ok.inj head]

/-- The reader drops a front part of its input, and bytes behind the input change its answer only
where that is the end of the input. -/
structure Steady (r : Reader α) : Prop where
  suffix : ∀ unread, (r unread).2 <:+ unread
  extend : ∀ unread more, (r unread).1 ≠ .error .endOfInput →
    r (unread ++ more) = ((r unread).1, (r unread).2 ++ more)

namespace Steady

protected theorem ofExcept (e : Except DataError α) : (ofExcept e).Steady where
  suffix _ := List.suffix_rfl
  extend _ _ _ := rfl

protected theorem ok (a : α) : (Reader.ok a).Steady := .ofExcept (.ok a)

protected theorem fail (e : DataError) : (Reader.fail e : Reader α).Steady := .ofExcept (.error e)

protected theorem byte : byte.Steady where
  suffix
    | [] => List.suffix_rfl
    | x :: rest => List.suffix_cons x rest
  extend
    | [], _, h => absurd rfl h
    | _ :: _, _, _ => rfl

protected theorem take (count : Nat) : (take count).Steady where
  suffix unread := by
    unfold take
    split
    · exact List.drop_suffix count unread
    · exact List.suffix_rfl
  extend unread more h := by
    by_cases len : (unread.take count).length = count
    · have split : unread ++ more = unread.take count ++ (unread.drop count ++ more) := by
        rw [← List.append_assoc, List.take_append_drop]
      rw [split, take_append len, take, if_pos len]
    · rw [take, if_neg len] at h
      exact absurd rfl h

protected theorem andThen (first : r.Steady) (second : ∀ a, (f a).Steady) :
    (andThen r f).Steady where
  suffix unread := by
    rcases read : r unread with ⟨e | a, mid⟩
    · rw [andThen_of_error read]
      simpa only [read] using first.suffix unread
    · rw [andThen_of_ok read]
      exact ((second a).suffix mid).trans (by simpa only [read] using first.suffix unread)
  extend unread more h := by
    rcases read : r unread with ⟨e | a, mid⟩
    · rw [andThen_of_error read] at h ⊢
      have other : e ≠ .endOfInput := fun same => h (by rw [same])
      have extended := first.extend unread more
        (by rw [read]; exact fun same => other (Except.error.inj same))
      rw [andThen_of_error (by rw [extended, read])]
    · rw [andThen_of_ok read] at h ⊢
      have extended := first.extend unread more (by rw [read]; exact nofun)
      rw [andThen_of_ok (by rw [extended, read])]
      exact (second a).extend mid more h

protected theorem times (h : r.Steady) (count : Nat) : (times count r).Steady := by
  induction count with
  | zero => exact .ok []
  | succ count ih => exact .andThen h fun a => .andThen ih fun rest => .ok (a :: rest)

end Steady

end LedgerClient.Reader
