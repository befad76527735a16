import LedgerClient.Proofs.Schema.Lawful

/-!
# Input that ends too early

The end of the input is the only answer of a reader that more input can change. Any other answer,
a value or a fault, is final, and so is the place where the reader stops: it never speaks about
bytes that it has not seen, and never looks past the bytes that decide. A form whose end is missing
can therefore be neither read nor found faulty, wherever the cut falls (`answers_are_final`).
-/

set_option autoImplicit false

namespace LedgerClient

namespace Reader

variable {α : Type} {r : Reader α} {unread rest : Bytes} {answer : Except DataError α}

/-- A steady reader stops at the same place, with the same answer, when more follows. -/
theorem Steady.final (h : r.Steady) (read : r unread = (answer, rest))
    (other : answer ≠ .error .endOfInput) (more : Bytes) :
    (∃ front, unread = front ++ rest) ∧ r (unread ++ more) = (answer, rest ++ more) := by
  obtain ⟨front, whole⟩ := h.suffix unread
  have extended := h.extend unread more (by rw [read]; exact other)
  rw [read] at whole extended
  exact ⟨⟨front, whole.symm⟩, extended⟩

/-- What ends the reading ends the decoding. -/
theorem whole_of_error {bytes : Bytes} {e : DataError} (h : (r bytes).1 = .error e) :
    r.whole bytes = .error e :=
  fault_first h

end Reader

/-- The form of a value that fits is missed as long as its last byte is. -/
theorem Codec.Lawful.read_cut {α : Type} {c : Codec α} {Fits : α → Prop} (h : c.Lawful Fits) {v : α}
    (fits : Fits v) {cut : Bytes} (front : cut <+: c.write v) (short : cut ≠ c.write v) :
    (c.read cut).1 = .error .endOfInput := by
  obtain ⟨more, whole⟩ := front
  -- Any other answer is also the answer to the whole form, of which it leaves `more` unread.
  apply Classical.byContradiction
  intro final
  have form := h.read_write fits []
  rw [List.append_nil, ← whole, h.steady.extend cut more final] at form
  have unread : (c.read cut).2 ++ more = [] := (Prod.mk.inj form).2
  have empty : more = [] := (List.append_eq_nil_iff.1 unread).2
  rw [empty, List.append_nil] at whole
  exact short whole

namespace Schema

/-- An answer other than the end of the input stands, at the place where the reader stopped,
whatever comes behind the input. And where the form of a value that can be decoded is cut short,
the answer is the end of the input, wherever the cut is. -/
theorem answers_are_final (s : Schema) :
    (∀ bytes answer rest, s.codec.read bytes = (answer, rest) → answer ≠ .error .endOfInput →
      ∀ more, (∃ front, bytes = front ++ rest) ∧
        s.codec.read (bytes ++ more) = (answer, rest ++ more)) ∧
      ∀ bytes v, s.decode bytes = .ok v → ∀ cut, cut <+: s.write v → cut ≠ s.write v →
        (s.codec.read cut).1 = .error .endOfInput ∧ s.decode cut = .error .endOfInput := by
  have lawful := s.lawful_codec
  constructor
  · intro bytes answer rest read other more
    exact lawful.steady.final read other more
  · intro bytes v decoded cut front short
    have fits : s.Fits v := (lawful.eq_write_of_decode decoded).2
    have cut_read := lawful.read_cut fits front short
    exact ⟨cut_read, Reader.whole_of_error cut_read⟩

/-- A flag of two is refused with or without the rest of the pair behind it, and a script whose
second type argument has no element type yet is not refused. -/
theorem fault_kept_and_script_cut :
    ((pair bool u16).codec.read [2] = (.error (.notBool 2), []) ∧
        (pair bool u16).codec.read [2, 7, 0] = (.error (.notBool 2), [7, 0])) ∧
      script.decode [1, 0xA1, 2, 4, 6, 1, 0] =
          .ok ⟨[0xA1], [.address, .vector .u8], []⟩ ∧
        script.decode [1, 0xA1, 2, 4, 6] = .error .endOfInput :=
  have fault : (pair bool u16).codec.read [2] = (.error (.notBool 2), []) := rfl
  have read : script.decode [1, 0xA1, 2, 4, 6, 1, 0] =
      .ok ⟨[0xA1], [.address, .vector .u8], []⟩ := rfl
  have form := (script.lawful_codec.eq_write_of_decode read).1
  have front : [1, 0xA1, 2, 4, 6] <+: script.write ⟨[0xA1], [.address, .vector .u8], []⟩ :=
    ⟨[1, 0], form⟩
  have short : [1, 0xA1, 2, 4, 6] ≠ script.write ⟨[0xA1], [.address, .vector .u8], []⟩ :=
    fun same => absurd (same.trans form.symm) (by decide)
  ⟨⟨fault, ((answers_are_final (pair bool u16)).1 [2] _ [] fault nofun [7, 0]).2⟩, read,
    ((answers_are_final script).2 _ _ read _ front short).2⟩

end Schema

end LedgerClient
