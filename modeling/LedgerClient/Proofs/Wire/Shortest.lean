import LedgerClient.Proofs.Wire.Append
import LedgerClient.Proofs.Wire.Number

/-!
# Numbers and their shortest forms

A number has a form for every count of groups that is large enough, because groups of zero may stand
at its end (`Spells`). The writer gives the shortest of them (`shortest_iff`). The reader goes by
the marks for a further group: its input ends among the first five groups, goes on behind them, or
begins with a form (`begins`), and a form that is not the shortest one ends in a group of zero
(`Spells.endsInZero`). So each answer of the reader has its own inputs
(`numbers_have_one_accepted_form`).
-/

set_option autoImplicit false

namespace LedgerClient.Uleb128

/-- The byte is marked: another group follows. -/
def Continues (b : UInt8) : Prop := 128 ≤ b.toNat

/-- The bytes are groups of seven bits that spell the number, low group first. All but the last are
marked. The last ones may be zero. -/
inductive Spells : Bytes → Nat → Prop
  | last {b : UInt8} (unmarked : b.toNat < 128) : Spells [b] b.toNat
  | more {b : UInt8} {rest : Bytes} {high : Nat} (marked : Continues b)
    (others : Spells rest high) : Spells (b :: rest) (b.toNat - 128 + 128 * high)

/-- No other form of the number has fewer bytes. -/
structure Shortest (form : Bytes) (n : Nat) : Prop where
  spelled : Spells form n
  length_le : ∀ other, Spells other n → form.length ≤ other.length

variable {form front rest : Bytes} {last : UInt8} {n groups : Nat} {first : Bool}

/-! ## The form that is written -/

/-- A marked byte in front of a number that is not zero is that number's low group. -/
theorem encode_more {b : UInt8} {high : Nat} (marked : Continues b) (nonzero : high ≠ 0) :
    encode (b.toNat - 128 + 128 * high) = b :: encode high := by
  have byte := b.toNat_lt
  unfold Continues at marked
  have low : UInt8.ofNat (128 + (b.toNat - 128 + 128 * high) % 128) = b := by
    apply UInt8.toNat_inj.1
    rw [toNat_continued]
    omega
  have above : (b.toNat - 128 + 128 * high) / 128 = high := by omega
  rw [encode_of_le (by omega), low, above]

theorem Spells.length_pos (h : Spells form n) : 0 < form.length := by
  cases h <;> simp

theorem spells_encode (n : Nat) : Spells (encode n) n := by
  induction n using Nat.strongRecOn with
  | ind n ih =>
    by_cases small : n < 128
    · have byte := toNat_last small
      have spelled : Spells [UInt8.ofNat n] (UInt8.ofNat n).toNat := .last (by omega)
      rwa [byte, ← encode_of_lt small] at spelled
    · have byte := toNat_continued n
      have marked : Continues (UInt8.ofNat (128 + n % 128)) := by
        unfold Continues
        omega
      have value : (UInt8.ofNat (128 + n % 128)).toNat - 128 + 128 * (n / 128) = n := by omega
      have spelled := Spells.more marked (ih (n / 128) (by omega))
      rwa [value, ← encode_of_le (Nat.not_lt.1 small)] at spelled

/-- A form that is not longer than the written one is the written one. -/
theorem Spells.eq_encode (h : Spells form n) (short : form.length ≤ (encode n).length) :
    form = encode n := by
  induction h with
  | @last b unmarked => rw [encode_of_lt unmarked, UInt8.ofNat_toNat]
  | @more b rest high marked others ih =>
    have some := others.length_pos
    have nonzero : high ≠ 0 := by
      -- A number of one group is written in one byte, and here are two at least.
      rintro rfl
      have byte := b.toNat_lt
      rw [encode_of_lt (by omega)] at short
      simp only [List.length_cons, List.length_nil] at short
      omega
    rw [encode_more marked nonzero] at short ⊢
    rw [ih (Nat.le_of_succ_le_succ short)]

/-- A number has one shortest form, the written one. -/
theorem shortest_iff : Shortest form n ↔ form = encode n := by
  constructor
  · intro shortest
    exact shortest.spelled.eq_encode (shortest.length_le _ (spells_encode n))
  · rintro rfl
    refine ⟨spells_encode n, fun other spelled => ?_⟩
    rcases Nat.le_total other.length (encode n).length with short | long
    · exact Nat.le_of_eq (congrArg List.length (spelled.eq_encode short).symm)
    · exact long

/-! ## Other forms -/

/-- A form that is longer than the written one ends in a group of zero, and not in its first. -/
theorem Spells.endsInZero (h : Spells form n) (long : (encode n).length < form.length) :
    ∃ front, front ≠ [] ∧ form = front ++ [0] := by
  induction h with
  | @last b unmarked =>
    rw [encode_of_lt unmarked] at long
    exact absurd long (Nat.lt_irrefl 1)
  | @more b rest high marked others ih =>
    have tail : rest = encode 0 ∨ (encode high).length < rest.length := by
      by_cases zero : high = 0
      · subst zero
        rcases Nat.lt_or_ge (encode 0).length rest.length with long | short
        · exact .inr long
        · exact .inl (others.eq_encode short)
      · rw [encode_more marked zero] at long
        exact .inr (Nat.lt_of_succ_lt_succ long)
    rcases tail with rfl | long
    · exact ⟨[b], by simp, by rw [encode_of_lt (by omega)]; rfl⟩
    · obtain ⟨front, -, rfl⟩ := ih long
      exact ⟨b :: front, by simp, rfl⟩

theorem Spells.eq_concat (h : Spells form n) : ∃ front last, form = front ++ [last] := by
  have some : form ≠ [] := List.length_pos_iff.1 h.length_pos
  exact ⟨_, _, (List.dropLast_concat_getLast some).symm⟩

/-- A byte in front of another is marked, and the number above it is that of the others. -/
theorem Spells.eq_more {b : UInt8} (h : Spells (b :: front ++ [last]) n) :
    Continues b ∧ ∃ high, Spells (front ++ [last]) high ∧ n = b.toNat - 128 + 128 * high := by
  generalize whole : front ++ [last] = others at h
  rw [List.cons_append, whole] at h
  cases h with
  | last unmarked => simp at whole
  | more marked others => exact ⟨marked, _, others, rfl⟩

theorem Spells.eq_last (h : Spells [last] n) : last.toNat < 128 ∧ n = last.toNat := by
  cases h with
  | last unmarked => exact ⟨unmarked, rfl⟩
  | more _ others => exact absurd others.length_pos (Nat.lt_irrefl 0)

/-- All bytes but the last are marked. -/
theorem Spells.marks (h : Spells (front ++ [last]) n) :
    (∀ b ∈ front, Continues b) ∧ last.toNat < 128 := by
  induction front generalizing n with
  | nil => exact ⟨nofun, h.eq_last.1⟩
  | cons b front ih =>
    obtain ⟨marked, high, others, -⟩ := h.eq_more
    exact (ih others).imp_left fun each => List.forall_mem_cons.2 ⟨marked, each⟩

/-- The last group and the number of the others bound the number. -/
theorem Spells.lt (h : Spells (front ++ [last]) n) :
    n < Nat.pow 128 front.length * (last.toNat + 1) := by
  induction front generalizing n with
  | nil =>
    have value := h.eq_last.2
    have single : Nat.pow 128 ([] : Bytes).length * (last.toNat + 1) = last.toNat + 1 :=
      Nat.one_mul _
    omega
  | cons b front ih =>
    obtain ⟨-, high, others, value⟩ := h.eq_more
    have byte := b.toNat_lt
    have below := ih others
    have grown : Nat.pow 128 (b :: front).length * (last.toNat + 1) =
        128 * (Nat.pow 128 front.length * (last.toNat + 1)) := by
      rw [← Nat.mul_assoc, Nat.mul_comm 128]
      rfl
    omega

theorem Spells.lt_pow (h : Spells (front ++ [last]) n) : n < Nat.pow 128 (front.length + 1) :=
  Nat.lt_of_lt_of_le h.lt (Nat.mul_le_mul_left _ h.marks.2)

/-! ## What is read -/

/-- How bytes begin, as far as so many groups show. -/
inductive Begins (groups : Nat) : Bytes → Prop
  /-- They end before an unmarked one. -/
  | cut {front : Bytes} (few : front.length < groups) (marked : ∀ b ∈ front, Continues b) :
    Begins groups front
  /-- They go on beyond these groups. -/
  | long (front rest : Bytes) (count : front.length = groups)
    (marked : ∀ b ∈ front, Continues b) : Begins groups (front ++ rest)
  /-- A number ends within these groups. -/
  | form (form rest : Bytes) {n : Nat} (within : form.length ≤ groups) (spelled : Spells form n) :
    Begins groups (form ++ rest)

theorem begins (groups : Nat) (input : Bytes) : Begins groups input := by
  induction groups generalizing input with
  | zero => exact .long [] input rfl nofun
  | succ groups ih =>
    cases input with
    | nil => exact .cut (Nat.succ_pos groups) nofun
    | cons b rest =>
      by_cases unmarked : b.toNat < 128
      · exact .form [b] rest (Nat.succ_le_succ (Nat.zero_le groups)) (.last unmarked)
      · have marked : Continues b := Nat.not_lt.1 unmarked
        cases ih rest with
        | cut few others =>
          exact .cut (Nat.succ_lt_succ few) (List.forall_mem_cons.2 ⟨marked, others⟩)
        | long front rest count others =>
          exact .long (b :: front) rest (congrArg (· + 1) count)
            (List.forall_mem_cons.2 ⟨marked, others⟩)
        | form form rest within spelled =>
          exact .form (b :: form) rest (Nat.succ_le_succ within) (.more marked spelled)

/-- A fault that is found behind marked bytes is the answer. -/
theorem readGroups_of_error {e : DataError} {left : Bytes}
    (fault : readGroups groups (first && front.isEmpty) rest = (.error e, left))
    (marked : ∀ b ∈ front, Continues b) :
    readGroups (front.length + groups) first (front ++ rest) = (.error e, left) := by
  induction front generalizing first with
  | nil => simpa using fault
  | cons b front ih =>
    obtain ⟨here, others⟩ := List.forall_mem_cons.1 marked
    have behind : readGroups (front.length + groups) false (front ++ rest) = (.error e, left) := by
      apply ih
      · simpa using fault
      · exact others
    rw [List.length_cons, Nat.add_right_comm, List.cons_append, readGroups_continued here]
    exact Reader.andThen_of_error behind

theorem read_of_error {e : DataError} {input left : Bytes}
    (fault : readGroups 5 true input = (.error e, left)) : (read input).1 = .error e := by
  rw [read, Reader.andThen_of_error fault]

/-- The input ends inside a number: after fewer than five bytes, all of them marked. -/
def EndsInside (input : Bytes) : Prop := input.length < 5 ∧ ∀ b ∈ input, Continues b

/-- An unmarked byte at one of the places from the second to the fifth is a group of zero. -/
def Padded (input : Bytes) : Prop :=
  ∃ front rest, input = front ++ 0 :: rest ∧ 1 ≤ front.length ∧ front.length ≤ 4
    ∧ ∀ b ∈ front, Continues b

/-- The first five bytes are marked, or the fifth ends a number of more than 32 bits with a group
that is not zero. -/
def TooLarge (input : Bytes) : Prop :=
  (∃ front rest, input = front ++ rest ∧ front.length = 5 ∧ ∀ b ∈ front, Continues b)
    ∨ ∃ front last rest n, input = front ++ last :: rest ∧ front.length = 4 ∧ last ≠ 0
        ∧ Spells (front ++ [last]) n ∧ UInt32.size ≤ n

theorem read_of_endsInside {input : Bytes} (h : EndsInside input) :
    (read input).1 = .error .endOfInput := by
  obtain ⟨few, marked⟩ := h
  obtain ⟨more, five⟩ := Nat.exists_eq_add_of_lt few
  have missing : readGroups (more + 1) (true && input.isEmpty) [] = (.error .endOfInput, []) := rfl
  have fault := readGroups_of_error missing marked
  rw [← Nat.add_assoc, ← five, List.append_nil] at fault
  exact read_of_error fault

theorem read_of_padded {input : Bytes} (h : Padded input) :
    (read input).1 = .error .numberNotMinimal := by
  obtain ⟨front, rest, rfl, some, few, marked⟩ := h
  obtain ⟨more, five⟩ := Nat.exists_eq_add_of_lt (Nat.lt_succ_of_le few)
  have later : (true && front.isEmpty) = false := by
    cases front with
    | nil => cases some
    | cons b front => rfl
  have zero : readGroups (more + 1) (true && front.isEmpty) (0 :: rest) =
      (.error .numberNotMinimal, rest) := by
    rw [later]
    rfl
  have fault := readGroups_of_error zero marked
  rw [← Nat.add_assoc, ← five] at fault
  exact read_of_error fault

/-- Five groups hold numbers of more than 32 bits. -/
theorem read_encode_of_le (large : UInt32.size ≤ n) (within : n < Nat.pow 128 5) (rest : Bytes) :
    (read (encode n ++ rest)).1 = .error .numberTooLarge := by
  rw [read, Reader.andThen_of_ok (readGroups_encode within true (.inl rfl) rest),
    if_neg (Nat.not_lt.2 large)]
  rfl

theorem read_of_tooLarge {input : Bytes} (h : TooLarge input) :
    (read input).1 = .error .numberTooLarge := by
  rcases h with ⟨front, rest, rfl, five, marked⟩ | ⟨front, last, rest, n, rfl, four, nonzero, h⟩
  · have beyond : readGroups 0 (true && front.isEmpty) rest = (.error .numberTooLarge, rest) := rfl
    have fault := readGroups_of_error beyond marked
    rw [five] at fault
    exact read_of_error fault
  · obtain ⟨spelled, large⟩ := h
    have form : front ++ [last] = encode n := by
      apply spelled.eq_encode
      apply Nat.le_of_not_lt
      intro long
      obtain ⟨front', -, same⟩ := spelled.endsInZero long
      exact nonzero (List.append_inj_right' same rfl |> List.cons.inj).1
    have within : n < Nat.pow 128 5 := by
      have bound := spelled.lt_pow
      rwa [four] at bound
    have whole : front ++ last :: rest = encode n ++ rest := by
      rw [← form, List.append_assoc, List.singleton_append]
    rw [whole]
    exact read_encode_of_le large within rest

/-- Every form of a number of more than 32 bits is too large, and no other bytes than its own are
looked at for that. -/
theorem tooLarge_of_spells (h : Spells form n) (large : UInt32.size ≤ n) (rest : Bytes) :
    TooLarge (form ++ rest) := by
  obtain ⟨front, last, rfl⟩ := h.eq_concat
  have fits : Nat.pow 128 4 * 1 < UInt32.size := by decide
  rcases Nat.lt_or_ge front.length 5 with within | beyond
  · have four : front.length = 4 := by
      apply Nat.le_antisymm (Nat.le_of_lt_succ within)
      apply Nat.le_of_not_lt
      intro few
      have bound : Nat.pow 128 (front.length + 1) ≤ Nat.pow 128 4 :=
        Nat.pow_le_pow_right (by decide) few
      have below := h.lt_pow
      omega
    have nonzero : last ≠ 0 := by
      rintro rfl
      have below : n < Nat.pow 128 front.length * 1 := h.lt
      rw [four] at below
      omega
    refine .inr ⟨front, last, rest, n, ?_, four, nonzero, h, large⟩
    rw [List.append_assoc, List.singleton_append]
  · refine .inl ⟨front.take 5, front.drop 5 ++ ([last] ++ rest), ?_, ?_, ?_⟩
    · rw [← List.append_assoc, List.take_append_drop, List.append_assoc]
    · rw [List.length_take, Nat.min_eq_left beyond]
    · intro b mem
      exact h.marks.1 b (List.mem_of_mem_take mem)

/-- The answer to an input, by what the input begins with. -/
inductive Answered : Bytes → Except DataError Nat → Prop
  | number {n : Nat} (small : n < UInt32.size) (rest : Bytes) : Answered (encode n ++ rest) (.ok n)
  | endsInside {input : Bytes} (h : EndsInside input) : Answered input (.error .endOfInput)
  | padded {input : Bytes} (h : Padded input) : Answered input (.error .numberNotMinimal)
  | tooLarge {input : Bytes} (h : TooLarge input) : Answered input (.error .numberTooLarge)

theorem answered_read (input : Bytes) : Answered input (read input).1 := by
  have inside : EndsInside input → Answered input (read input).1 := fun h => by
    rw [read_of_endsInside h]
    exact .endsInside h
  have padded : Padded input → Answered input (read input).1 := fun h => by
    rw [read_of_padded h]
    exact .padded h
  have tooLarge : TooLarge input → Answered input (read input).1 := fun h => by
    rw [read_of_tooLarge h]
    exact .tooLarge h
  cases begins 5 input with
  | cut few marked => exact inside ⟨few, marked⟩
  | long front rest five marked => exact tooLarge (.inl ⟨front, rest, rfl, five, marked⟩)
  | @form form rest n within spelled =>
    rcases Nat.lt_or_ge n UInt32.size with small | large
    · rcases Nat.lt_or_ge (encode n).length form.length with long | short
      · obtain ⟨front, some, rfl⟩ := spelled.endsInZero long
        rw [List.length_append, List.length_singleton] at within
        apply padded
        refine ⟨front, rest, ?_, List.length_pos_iff.2 some, by omega, spelled.marks.1⟩
        rw [List.append_assoc, List.singleton_append]
      · rw [spelled.eq_encode short, read_encode small]
        exact .number small rest
    · exact tooLarge (tooLarge_of_spells spelled large rest)

/-- The inputs with an answer are those that are listed for it. -/
theorem answered_iff {input : Bytes} {answer : Except DataError Nat} :
    Answered input answer ↔ (read input).1 = answer := by
  constructor
  · intro answered
    cases answered with
    | number small rest => rw [read_encode small]
    | endsInside inside => exact read_of_endsInside inside
    | padded padded => exact read_of_padded padded
    | tooLarge tooLarge => exact read_of_tooLarge tooLarge
  · rintro rfl
    exact answered_read input

/-- A number is read from the inputs that begin with its shortest form. -/
theorem read_eq_number_iff {input : Bytes} :
    (read input).1 = .ok n ↔
      n < UInt32.size ∧ ∃ form rest, Shortest form n ∧ input = form ++ rest := by
  rw [← answered_iff]
  constructor
  · intro answered
    cases answered with
    | number small rest => exact ⟨small, encode n, rest, shortest_iff.2 rfl, rfl⟩
  · rintro ⟨small, form, rest, shortest, rfl⟩
    obtain rfl := shortest_iff.1 shortest
    exact .number small rest

theorem read_eq_endOfInput_iff {input : Bytes} :
    (read input).1 = .error .endOfInput ↔ EndsInside input := by
  rw [← answered_iff]
  constructor
  · intro answered
    cases answered with
    | endsInside inside => exact inside
  · exact .endsInside

theorem read_eq_numberNotMinimal_iff {input : Bytes} :
    (read input).1 = .error .numberNotMinimal ↔ Padded input := by
  rw [← answered_iff]
  constructor
  · intro answered
    cases answered with
    | padded padded => exact padded
  · exact .padded

theorem read_eq_numberTooLarge_iff {input : Bytes} :
    (read input).1 = .error .numberTooLarge ↔ TooLarge input := by
  rw [← answered_iff]
  constructor
  · intro answered
    cases answered with
    | tooLarge tooLarge => exact tooLarge
  · exact .tooLarge

/-- The reader gives a number or one of three faults. -/
theorem read_answers (input : Bytes) :
    (∃ n, (read input).1 = .ok n) ∨ EndsInside input ∨ Padded input ∨ TooLarge input := by
  have answered := answered_read input
  generalize (read input).1 = answer at answered
  cases answered with
  | @number n small rest => exact .inl ⟨n, rfl⟩
  | endsInside inside => exact .inr (.inl inside)
  | padded padded => exact .inr (.inr (.inl padded))
  | tooLarge tooLarge => exact .inr (.inr (.inr tooLarge))

/-- A number has one shortest form, and that is written. It is read back, with anything behind it,
where the number has at most 32 bits, and is refused as too large otherwise. And each answer of the
reader has its own inputs: a number is read from the inputs that begin with its shortest form; the
other inputs end inside a number, have a last group of zero, or go beyond 32 bits. -/
theorem numbers_have_one_accepted_form :
    (∀ n form, Shortest form n ↔ form = Codec.number.write n)
      ∧ (∀ n rest, n < UInt32.size →
          Codec.number.read (Codec.number.write n ++ rest) = (.ok n, rest))
      ∧ (∀ n rest, UInt32.size ≤ n →
          (Codec.number.read (Codec.number.write n ++ rest)).1 = .error .numberTooLarge)
      ∧ ∀ input,
          (∀ n, (Codec.number.read input).1 = .ok n ↔
            n < UInt32.size ∧ ∃ form rest, Shortest form n ∧ input = form ++ rest)
          ∧ ((Codec.number.read input).1 = .error .endOfInput ↔ EndsInside input)
          ∧ ((Codec.number.read input).1 = .error .numberNotMinimal ↔ Padded input)
          ∧ ((Codec.number.read input).1 = .error .numberTooLarge ↔ TooLarge input)
          ∧ ((∃ n, (Codec.number.read input).1 = .ok n) ∨ EndsInside input ∨ Padded input
              ∨ TooLarge input) := by
  have written : ∀ n, Codec.number.write n = encode n := Codec.write_number
  have reader : Codec.number.read = read := rfl
  simp only [written, reader]
  refine ⟨fun n form => shortest_iff, fun n rest small => read_encode small rest, ?_, ?_⟩
  · intro n rest large
    apply read_of_tooLarge
    exact tooLarge_of_spells (spells_encode n) large rest
  · intro input
    exact ⟨fun n => read_eq_number_iff, read_eq_endOfInput_iff, read_eq_numberNotMinimal_iff,
      read_eq_numberTooLarge_iff, read_answers input⟩

/-- The largest number of 32 bits has a last group of four bits, and one bit more is too large. -/
theorem last_group_has_four_bits :
    Codec.number.read ([0xFF, 0xFF, 0xFF, 0xFF, 0x0F] ++ [7]) = (.ok 4294967295, [7]) ∧
      (Codec.number.read ([0x80, 0x80, 0x80, 0x80, 0x10] ++ [7])).1 = .error .numberTooLarge := by
  have largest : Codec.number.write 4294967295 = [0xFF, 0xFF, 0xFF, 0xFF, 0x0F] := by
    simp [Codec.write_number, encode]
  have next : Codec.number.write 4294967296 = [0x80, 0x80, 0x80, 0x80, 0x10] := by
    simp [Codec.write_number, encode]
  obtain ⟨-, small, large, -⟩ := numbers_have_one_accepted_form
  rw [← largest, ← next]
  exact ⟨small 4294967295 [7] (by decide), large 4294967296 [7] (by decide)⟩

end LedgerClient.Uleb128
