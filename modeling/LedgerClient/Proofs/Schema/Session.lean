import LedgerClient.Proofs.Octets.Parts
import LedgerClient.Proofs.Schema.Plan
import LedgerClient.Proofs.Wire.Cursor

/-!
# Sessions stay inside the input

A session that is carried out on a cursor is the session on unread bytes, whatever is read and whichever
steps fail: no number of remaining bytes falls below zero, no slice ends behind the input, and the
position only moves forward (`cursor_stays_inside`). A failure leaves the position alone where the
bytes of a value are taken in one piece, and behind the length where a byte string is cut short.
-/

set_option autoImplicit false

namespace LedgerClient

namespace Reader

variable {α β : Type} {r : Reader α}

/-- The reader takes what it reads in one piece, and fails only for want of bytes. -/
def Indivisible (r : Reader α) : Prop :=
  ∀ unread e rest, r unread = (.error e, rest) → e = .endOfInput ∧ rest = unread

theorem indivisible_take (count : Nat) : (take count).Indivisible := by
  intro unread e rest read
  unfold take at read
  split at read
  · cases (Prod.mk.inj read).1
  · obtain ⟨same, rfl⟩ := Prod.mk.inj read
    exact ⟨(Except.error.inj same).symm, rfl⟩

theorem indivisible_byte : byte.Indivisible := by
  intro unread e rest read
  cases unread with
  | nil =>
    obtain ⟨same, rfl⟩ := Prod.mk.inj read
    exact ⟨(Except.error.inj same).symm, rfl⟩
  | cons b tail => cases (Prod.mk.inj read).1

/-- What is made of the bytes afterwards must not fail. -/
theorem Indivisible.andThen_ofExcept (h : r.Indivisible) {f : α → Except DataError β}
    (total : ∀ unread a rest, r unread = (.ok a, rest) → ∃ b, f a = .ok b) :
    (andThen r fun a => ofExcept (f a)).Indivisible := by
  intro unread e rest read
  rcases first : r unread with ⟨e' | a, mid⟩
  · rw [andThen_of_error first] at read
    obtain ⟨same, rfl⟩ := Prod.mk.inj read
    obtain rfl := Except.error.inj same
    exact h unread e' mid first
  · obtain ⟨b, made⟩ := total unread a mid first
    rw [andThen_of_ok first, made] at read
    cases (Prod.mk.inj read).1

end Reader

namespace Codec

theorem indivisible_bare (kind : Octets.Kind) : (bare kind).read.Indivisible := by
  apply (Reader.indivisible_take kind.size).andThen_ofExcept
  intro unread bytes rest taken
  have length := (Reader.eq_append_of_take taken).1
  exact ⟨⟨bytes, length⟩, Octets.ofBytes_toList ⟨bytes, length⟩⟩

theorem indivisible_word {α : Type} (width : Nat) (build : Nat → α) (forget : α → Nat) :
    ((littleEndian width).via build forget).read.Indivisible := by
  have number : (littleEndian width).read.Indivisible :=
    (Reader.indivisible_take width).andThen_ofExcept fun _ _ _ _ => ⟨_, rfl⟩
  exact number.andThen_ofExcept fun _ _ _ _ => ⟨_, rfl⟩

/-- A byte string that is cut short is read up to its length. -/
theorem read_bytes_of_cut {unread mid : Bytes} {length : Nat}
    (read : Uleb128.read unread = (.ok length, mid)) (cut : mid.length < length) :
    bytes.read unread = (.error .endOfInput, mid) :=
  (Reader.andThen_of_ok read).trans (Reader.take_of_short cut)

theorem read_text_of_cut {unread mid : Bytes} {length : Nat}
    (read : Uleb128.read unread = (.ok length, mid)) (cut : mid.length < length) :
    text.read unread = (.error .endOfInput, mid) :=
  Reader.andThen_of_error (read_bytes_of_cut read cut)

end Codec

namespace Step

/-- What is read is a number of fixed width, an array of bytes, or so many bytes as they are. A flag
is none of these: its byte is taken before it is looked at. -/
def IsFixed : Step → Prop
  | raw _ => True
  | value .u8 => True
  | value .u16 => True
  | value .u32 => True
  | value .u64 => True
  | value .u128 => True
  | value (.plain _) => True
  | value .address => True
  | _ => False

theorem IsFixed.indivisible {step : Step} (h : step.IsFixed) : step.read.Indivisible := by
  cases step with
  | raw count => exact Reader.indivisible_take count
  | value s =>
    cases s with
    | u8 => exact Reader.indivisible_byte
    | u16 => exact Codec.indivisible_word 2 _ _
    | u32 => exact Codec.indivisible_word 4 _ _
    | u64 => exact Codec.indivisible_word 8 _ _
    | u128 => exact Codec.indivisible_word 16 _ _
    | plain count => exact Codec.indivisible_bare _
    | address => exact Codec.indivisible_bare _
    | _ => exact h.elim
  | _ => exact h.elim

section

variable {step : Step} {c after : Cursor} {answer : Except DataError step.Answer}

/-- Where a step ends on a cursor is told by what it leaves unread. -/
theorem onCursor_eq_ok_iff (h : c.Inside) :
    step.onCursor c = .ok (answer, after) ↔
      c.Reaches after ∧ step.read c.unread = (answer, after.unread) := by
  rw [onCursor, step.plan.reading.onCursor_eq_ok_iff h, step.plan.faithful]

theorem exists_onCursor (step : Step) (h : c.Inside) :
    ∃ answer after, step.onCursor c = .ok (answer, after) := by
  obtain ⟨after, run, -⟩ := step.plan.reading.exists_onCursor h
  exact ⟨_, after, run⟩

end

end Step

namespace Session

/-- What one step keeps, a session keeps. -/
theorem exists_onCursor (steps : List Step) {c : Cursor} (h : c.Inside) :
    ∃ cursors, onCursor steps c = .ok cursors ∧
      cursors.map Cursor.unread = unread steps c.unread ∧
      (c :: cursors).Pairwise Cursor.Reaches := by
  induction steps generalizing c with
  | nil => exact ⟨[], rfl, rfl, List.pairwise_singleton _ _⟩
  | cons step steps ih =>
    obtain ⟨answer, after, run⟩ := step.exists_onCursor h
    obtain ⟨reaches, read⟩ := (Step.onCursor_eq_ok_iff h).1 run
    obtain ⟨cursors, more, left, chain⟩ := ih reaches.inside
    refine ⟨after :: cursors, ?_, ?_, ?_⟩
    · rw [onCursor, run]
      simp only [more, Except.map]
    · simp only [List.map_cons, unread, read, left]
    · refine List.pairwise_cons.2 ⟨?_, chain⟩
      refine List.forall_mem_cons.2 ⟨reaches, ?_⟩
      intro last mem
      exact reaches.trans ((List.pairwise_cons.1 chain).1 last mem)

/-- A session on a cursor never goes wrong, and leaves unread after each step what the session on
unread bytes does. Its positions never decrease and never exceed the length of the input. A number of
fixed width, an array and bytes as they are leave the cursor alone when they fail, and a byte string or
a text whose bytes are cut short leaves it behind its length. -/
theorem cursor_stays_inside :
    (∀ data steps, ∃ cursors, onCursor steps (.start data) = .ok cursors ∧
        cursors.map Cursor.unread = unread steps data ∧
        (0 :: cursors.map Cursor.position).Pairwise (· ≤ ·) ∧
        ∀ c ∈ cursors, c.data = data ∧ c.position ≤ data.length ∧
          c.remaining = .ok c.unread.length) ∧
      (∀ c : Cursor, c.position ≤ c.data.length → ∀ step : Step, step.IsFixed →
        ∀ e after, step.onCursor c = .ok (.error e, after) → after = c) ∧
      ∀ c : Cursor, c.position ≤ c.data.length → ∀ (length : Nat) (mid : Cursor),
        Step.number.onCursor c = .ok (.ok length, mid) → mid.unread.length < length →
          Step.bytes.onCursor c = .ok (.error .endOfInput, mid) ∧
          (Step.value .text).onCursor c = .ok (.error .endOfInput, mid) := by
  refine ⟨?_, ?_, ?_⟩
  · intro data steps
    have inside : (Cursor.start data).Inside := Nat.zero_le _
    obtain ⟨cursors, run, left, chain⟩ := exists_onCursor steps inside
    refine ⟨cursors, run, left, ?_, ?_⟩
    · exact chain.map Cursor.position fun _ _ reaches => reaches.forward
    · intro c mem
      have reaches := (List.pairwise_cons.1 chain).1 c mem
      have same : c.data = data := reaches.data_eq
      have within : c.position ≤ c.data.length := reaches.inside
      rw [same] at within
      exact ⟨same, within, reaches.inside.remaining_eq⟩
  · intro c inside step fixed e after run
    obtain ⟨reaches, read⟩ := (Step.onCursor_eq_ok_iff inside).1 run
    have left := (fixed.indivisible _ _ _ read).2
    exact Cursor.eq_of_unread_eq reaches.data_eq reaches.inside inside left
  · intro c inside length mid run cut
    obtain ⟨reaches, read⟩ := (Step.onCursor_eq_ok_iff inside).1 run
    have bytes := Codec.read_bytes_of_cut read cut
    have text := Codec.read_text_of_cut read cut
    exact ⟨(Step.onCursor_eq_ok_iff inside).2 ⟨reaches, bytes⟩,
      (Step.onCursor_eq_ok_iff inside).2 ⟨reaches, text⟩⟩

/-- Three bytes are too few for a number of eight, and two for a text of three. -/
theorem short_input_stops_the_cursor :
    (∃ after, (Step.value .u64).onCursor ⟨[7, 3, 0x41, 0x42], 1⟩ =
        .ok (.error .endOfInput, after) ∧ after = ⟨[7, 3, 0x41, 0x42], 1⟩) ∧
      Step.number.onCursor ⟨[7, 3, 0x41, 0x42], 1⟩ = .ok (.ok (3 : Nat), ⟨[7, 3, 0x41, 0x42], 2⟩) ∧
      Step.bytes.onCursor ⟨[7, 3, 0x41, 0x42], 1⟩ =
        .ok (.error .endOfInput, ⟨[7, 3, 0x41, 0x42], 2⟩) ∧
      (Step.value .text).onCursor ⟨[7, 3, 0x41, 0x42], 1⟩ =
        .ok (.error .endOfInput, ⟨[7, 3, 0x41, 0x42], 2⟩) := by
  have inside : 1 ≤ [(7 : UInt8), 3, 0x41, 0x42].length := by decide
  have few : (Step.value .u64).onCursor ⟨[7, 3, 0x41, 0x42], 1⟩ =
      .ok (.error .endOfInput, ⟨[7, 3, 0x41, 0x42], 1⟩) := rfl
  have length : Step.number.onCursor ⟨[7, 3, 0x41, 0x42], 1⟩ =
      .ok (.ok (3 : Nat), ⟨[7, 3, 0x41, 0x42], 2⟩) := rfl
  obtain ⟨-, fixed, cut⟩ := cursor_stays_inside
  have unmoved := fixed _ inside (.value .u64) trivial _ _ few
  exact ⟨⟨_, few, unmoved⟩, length, cut _ inside _ _ length (by decide)⟩

end Session

end LedgerClient
