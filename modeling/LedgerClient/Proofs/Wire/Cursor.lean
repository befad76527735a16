import LedgerClient.Wire.Cursor

/-!
# Readings stay inside the input

From a position inside the input, what a reading does on a cursor is what it does on the unread bytes
(`onCursor_eq_ok_iff`): nothing goes wrong, the position moves forward only, and it does not leave the
input. This holds of every reading, whatever it asks for.
-/

set_option autoImplicit false

namespace LedgerClient

namespace Cursor

variable {c after : Cursor} {count : Nat}

/-- The position is not behind the end of the input. -/
def Inside (c : Cursor) : Prop := c.position ≤ c.data.length

/-- The same input has been read as far or further, and not behind its end. -/
structure Reaches (c after : Cursor) : Prop where
  data_eq : after.data = c.data
  forward : c.position ≤ after.position
  inside : after.Inside

theorem Inside.reaches_self (h : c.Inside) : c.Reaches c := ⟨rfl, Nat.le_refl _, h⟩

theorem Reaches.trans {last : Cursor} (h : c.Reaches after) (h' : after.Reaches last) :
    c.Reaches last :=
  ⟨h'.data_eq.trans h.data_eq, Nat.le_trans h.forward h'.forward, h'.inside⟩

/-- What is unread tells how much has been read. -/
theorem eq_of_unread_eq {c' : Cursor} (same : c.data = c'.data) (h : c.Inside) (h' : c'.Inside)
    (unread : c.unread = c'.unread) : c = c' := by
  rcases c with ⟨data, position⟩
  rcases c' with ⟨data', position'⟩
  obtain rfl : data = data' := same
  have length := congrArg List.length unread
  simp only [Cursor.unread, List.length_drop] at length
  simp only [Inside] at h h'
  obtain rfl : position = position' := by omega
  rfl

theorem Inside.remaining_eq (h : c.Inside) : c.remaining = .ok c.unread.length := by
  have inside : c.position ≤ c.data.length := h
  rw [remaining, if_pos inside, unread, List.length_drop]

/-- Bytes that are there are taken, and the position moves behind them. -/
theorem Inside.take_of_enough (h : c.Inside) (enough : (c.unread.take count).length = count) :
    c.take count = .ok (.ok ⟨c.unread.take count, enough⟩,
      { c with position := c.position + count }) := by
  have long : ¬ c.unread.length < count := by
    rw [List.length_take] at enough
    omega
  have within : c.position + count ≤ c.data.length := by
    rw [Inside] at h
    rw [unread, List.length_drop] at long
    omega
  simp only [take, h.remaining_eq, if_neg long, slice, dif_pos within]
  rfl

theorem Inside.take_of_short (h : c.Inside) (short : (c.unread.take count).length ≠ count) :
    c.take count = .ok (.error .endOfInput, c) := by
  have few : c.unread.length < count := by
    rw [List.length_take] at short
    omega
  simp only [take, h.remaining_eq, if_pos few]

theorem Inside.reaches_add (h : c.Inside) (enough : (c.unread.take count).length = count) :
    c.Reaches { c with position := c.position + count } := by
  refine ⟨rfl, Nat.le_add_right _ _, ?_⟩
  simp only [Inside, unread, List.length_take, List.length_drop] at h enough ⊢
  omega

end Cursor

namespace Reading

variable {α : Type}

theorem exists_onCursor (p : Reading α) {c : Cursor} (h : c.Inside) :
    ∃ after, p.onCursor c = .ok ((p.onUnread c.unread).1, after) ∧ c.Reaches after ∧
      after.unread = (p.onUnread c.unread).2 := by
  induction p generalizing c with
  | answer result => exact ⟨c, rfl, h.reaches_self, rfl⟩
  | take count next ih =>
    by_cases enough : (c.unread.take count).length = count
    · have moved := h.reaches_add enough
      obtain ⟨after, run, reaches, unread⟩ := ih ⟨c.unread.take count, enough⟩ moved.inside
      have left : Cursor.unread { c with position := c.position + count } = c.unread.drop count := by
        simp only [Cursor.unread, List.drop_drop]
      rw [left] at run unread
      refine ⟨after, ?_, moved.trans reaches, ?_⟩
      · simp only [onCursor, h.take_of_enough enough, onUnread, dif_pos enough, run]
      · simp only [onUnread, dif_pos enough, unread]
    · refine ⟨c, ?_, h.reaches_self, ?_⟩
      · simp only [onCursor, h.take_of_short enough, onUnread, dif_neg enough]
      · simp only [onUnread, dif_neg enough]
  | remaining next ih =>
    obtain ⟨after, run, reaches, unread⟩ := ih c.unread.length h
    refine ⟨after, ?_, reaches, unread⟩
    simp only [onCursor, h.remaining_eq, run, onUnread]

/-- How a reading ends on a cursor, and where. -/
theorem onCursor_eq_ok_iff (p : Reading α) {c after : Cursor} (h : c.Inside)
    {answer : Except DataError α} :
    p.onCursor c = .ok (answer, after) ↔
      c.Reaches after ∧ p.onUnread c.unread = (answer, after.unread) := by
  obtain ⟨found, run, reaches, unread⟩ := p.exists_onCursor h
  rw [run]
  constructor
  · intro same
    obtain ⟨rfl, rfl⟩ := Prod.mk.inj (Except.ok.inj same)
    exact ⟨reaches, Prod.ext rfl unread.symm⟩
  · rintro ⟨reaches', read⟩
    rw [read] at unread ⊢
    obtain rfl : found = after :=
      Cursor.eq_of_unread_eq (reaches.data_eq.trans reaches'.data_eq.symm) reaches.inside
        reaches'.inside unread
    rfl

end Reading

end LedgerClient
