import LedgerClient.Proofs.Schema.RoundTrip

/-!
# Values take bytes

Reading a value takes at least one byte, unless it is an array of no bytes or is made of nothing but
such arrays (`Schema.Vacant`). No reader has to be followed for that. Forms are canonical, so a value
that takes no byte would be found in the empty input, and there all other schemas find the end.

A loop over a declared number of values is therefore bounded by the input: it never puts together more
values than there are bytes behind the number, and fails where more are declared
(`declared_counts_are_bounded`).
-/

set_option autoImplicit false

namespace LedgerClient

namespace Reader

variable {α : Type} {r : Reader α} {count : Nat} {unread rest : Bytes} {a : α}

/-- Where the reader succeeds, it has taken a byte at least. -/
def Advances (r : Reader α) : Prop :=
  ∀ unread a rest, r unread = (.ok a, rest) → ∃ front, front ≠ [] ∧ unread = front ++ rest

theorem Advances.length_lt (h : r.Advances) (read : r unread = (.ok a, rest)) :
    rest.length < unread.length := by
  obtain ⟨front, taken, rfl⟩ := h unread a rest read
  have positive : 0 < front.length := List.length_pos_iff.2 taken
  simp only [List.length_append]
  omega

/-- The values that are put together when `r` is tried so many times over, up to its first
failure. -/
def collected (r : Reader α) : (turns : Nat) → Bytes → List α
  | 0, _ => []
  | turns + 1, unread =>
    match r unread with
    | (.ok a, rest) => a :: collected r turns rest
    | (.error _, _) => []

theorem collected_of_ok (read : r unread = (.ok a, rest)) (turns : Nat) :
    collected r (turns + 1) unread = a :: collected r turns rest := by
  simp only [collected, read]

theorem collected_of_error {e : DataError} (read : r unread = (.error e, rest)) (turns : Nat) :
    collected r (turns + 1) unread = [] := by
  simp only [collected, read]

/-- The loop answers with what it has put together, if it came to its end. -/
theorem times_eq_ok_iff {vs : List α} :
    (times count r unread).1 = .ok vs ↔ collected r count unread = vs ∧ vs.length = count := by
  induction count generalizing unread vs with
  | zero =>
    simp only [times, ok, collected, Except.ok.injEq]
    constructor
    · rintro rfl
      exact ⟨rfl, rfl⟩
    · exact And.left
  | succ count ih =>
    rcases read : r unread with ⟨e | a, mid⟩
    · rw [times, andThen_of_error read, collected_of_error read]
      constructor
      · intro h
        cases h
      · rintro ⟨rfl, length⟩
        cases length
    · rw [times, andThen_of_ok read, collected_of_ok read]
      rcases more : times count r mid with ⟨e | others, left⟩
      · -- The later turns failed, so they have put together fewer values than they were to.
        rw [andThen_of_error more]
        constructor
        · intro h
          cases h
        · rintro ⟨rfl, length⟩
          have ended := ih.2 ⟨rfl, Nat.succ.inj length⟩
          rw [more] at ended
          cases ended
      · obtain ⟨same, length⟩ := ih.1 (congrArg Prod.fst more)
        rw [andThen_of_ok more, same]
        simp only [ok, Except.ok.injEq]
        constructor
        · rintro rfl
          exact ⟨rfl, congrArg Nat.succ length⟩
        · exact And.left

/-- Every value has taken a byte of its own. -/
theorem Advances.length_collected_le (h : r.Advances) (turns : Nat) (unread : Bytes) :
    (collected r turns unread).length ≤ unread.length := by
  induction turns generalizing unread with
  | zero => exact Nat.zero_le _
  | succ turns ih =>
    rcases read : r unread with ⟨e | a, rest⟩
    · rw [collected_of_error read]
      exact Nat.zero_le _
    · have shorter := h.length_lt read
      have others := ih rest
      rw [collected_of_ok read, List.length_cons]
      omega

/-- More values than there are bytes are not found. -/
theorem Advances.times_of_short (h : r.Advances) (short : unread.length < count) :
    ∃ e, (times count r unread).1 = .error e := by
  rcases answer : (times count r unread).1 with e | vs
  · exact ⟨e, rfl⟩
  · obtain ⟨same, length⟩ := times_eq_ok_iff.1 answer
    have bounded := h.length_collected_le count unread
    rw [same] at bounded
    omega

end Reader

/-- A codec that finds no value in the empty input finds none without taking a byte. -/
theorem Codec.Lawful.advances {α : Type} {c : Codec α} {Fits : α → Prop} (h : c.Lawful Fits)
    {e : DataError} (nothing : (c.read []).1 = .error e) : c.read.Advances := by
  intro unread v rest read
  obtain ⟨form, fits⟩ := h.eq_write_of_read read
  refine ⟨c.write v, ?_, form⟩
  intro empty
  have back := h.read_write fits []
  rw [empty, List.nil_append] at back
  rw [back] at nothing
  cases nothing

theorem TypeTag.advances_readWithin (levels : Nat) : (readWithin levels).Advances := by
  have lawful := lawful_within levels
  cases levels with
  | zero => exact lawful.advances rfl
  | succ levels => cases levels <;> exact lawful.advances rfl

namespace StructTag

/-- What stands in front of the parameters of a struct type, their number last. -/
def heading : Codec (Address × Identifier × Identifier × Nat) :=
  (Codec.bare .address).pair (Identifier.codec.pair (Identifier.codec.pair Codec.number))

theorem lawful_heading :
    heading.Lawful fun h => True ∧ Codec.TextFits h.2.1.text ∧ Codec.TextFits h.2.2.1.text
      ∧ Codec.CountFits h.2.2.2 :=
  (Codec.lawful_bare .address).pair
    (Identifier.lawful_codec.pair (Identifier.lawful_codec.pair Codec.lawful_number))

theorem readWith_eq (param : Reader TypeTag) :
    readWith param =
      .andThen heading.read fun (address, moduleName, name, count) =>
        .andThen (.times count param) fun typeParams =>
          .ok { address, moduleName, name, typeParams } := by
  unfold readWith heading
  simp only [Codec.pair, Reader.andThen_assoc]
  rfl

section

variable {param : Reader TypeTag} {unread mid : Bytes} {address : Address}
  {moduleName name : Identifier} {count : Nat} {tag : StructTag}

/-- Behind the heading only the loop over the parameters reads. -/
theorem readWith_of_heading
    (declared : heading.read unread = (.ok (address, moduleName, name, count), mid)) :
    readWith param unread =
      Reader.andThen (.times count param)
        (fun typeParams => .ok { address, moduleName, name, typeParams }) mid := by
  rw [readWith_eq]
  exact Reader.andThen_of_ok declared

/-- The struct type that is read has the parameters that the loop answers with. -/
theorem readWith_eq_ok_iff
    (declared : heading.read unread = (.ok (address, moduleName, name, count), mid)) :
    (readWith param unread).1 = .ok tag ↔
      (Reader.times count param mid).1 = .ok tag.typeParams
        ∧ tag = { address, moduleName, name, typeParams := tag.typeParams } := by
  rw [readWith_of_heading declared]
  rcases params : Reader.times count param mid with ⟨e | typeParams, rest⟩
  · rw [Reader.andThen_of_error params]
    constructor
    · intro read
      cases read
    · rintro ⟨read, -⟩
      cases read
  · rw [Reader.andThen_of_ok params]
    constructor
    · intro read
      cases read
      exact ⟨rfl, rfl⟩
    · rintro ⟨read, same⟩
      cases read
      exact congrArg Except.ok same.symm

end

end StructTag

namespace Schema

/-- An array of no bytes, or nothing but such arrays. -/
def Vacant : Schema → Prop
  | plain count => count = 0
  | boxed content => content.Vacant
  | pair first second => first.Vacant ∧ second.Vacant
  | _ => False

/-- A vacant value is found everywhere. -/
theorem Vacant.read {s : Schema} (h : s.Vacant) (unread : Bytes) :
    ∃ v, s.codec.read unread = (.ok v, unread) := by
  induction s with
  | plain count =>
    obtain rfl : count = 0 := h
    exact ⟨Octets.zero (.plain 0), rfl⟩
  | boxed content ih => exact ih h
  | pair first second ih₁ ih₂ =>
    obtain ⟨x, read⟩ := ih₁ h.1
    obtain ⟨y, read'⟩ := ih₂ h.2
    refine ⟨(x, y), ?_⟩
    exact (Reader.andThen_of_ok read).trans (Reader.andThen_of_ok read')
  | _ => exact h.elim

/-- No other value is found in the empty input. -/
theorem read_nil {s : Schema} (h : ¬ s.Vacant) : (s.codec.read []).1 = .error .endOfInput := by
  induction s with
  | plain count =>
    cases count with
    | zero => exact absurd rfl h
    | succ count => rfl
  | boxed content ih => exact ih h
  | pair first second ih₁ ih₂ =>
    by_cases empty : first.Vacant
    · obtain ⟨x, read⟩ := empty.read []
      have other : ¬ second.Vacant := fun empty' => h ⟨empty, empty'⟩
      exact Reader.fault_second read (Reader.fault_first (ih₂ other))
    · exact Reader.fault_first (ih₁ empty)
  | _ => rfl

theorem advances_iff {s : Schema} : s.codec.read.Advances ↔ ¬ s.Vacant := by
  constructor
  · intro advances vacant
    obtain ⟨v, read⟩ := vacant.read []
    exact absurd (advances.length_lt read) (Nat.lt_irrefl _)
  · intro h
    exact s.lawful_codec.advances (read_nil h)

/-- Values take at least one byte, but for the vacant ones. A list is read as the values that are put
together, if these are as many as declared, and so are the parameters of a struct type. So neither
the values of a list, where they are not vacant, nor the parameters of a struct type, at any level,
are ever more than the bytes behind their number, however the reading ends; and it ends with an error
where more are declared. -/
theorem declared_counts_are_bounded :
    (∀ s : Schema, s.codec.read.Advances ↔ ¬ s.Vacant) ∧
      (∀ s : Schema, ¬ s.Vacant → ∀ unread count mid, Uleb128.read unread = (.ok count, mid) →
        (∀ vs, (s.list.codec.read unread).1 = .ok vs ↔
            Reader.collected s.codec.read count mid = vs ∧ vs.length = count) ∧
          (Reader.collected s.codec.read count mid).length ≤ mid.length ∧
          (mid.length < count → ∃ e, (s.list.codec.read unread).1 = .error e)) ∧
      ∀ levels unread address moduleName name count mid,
        StructTag.heading.read unread = (.ok (address, moduleName, name, count), mid) →
        (∀ tag, (StructTag.readWith (TypeTag.readWithin levels) unread).1 = .ok tag ↔
            (Reader.collected (TypeTag.readWithin levels) count mid = tag.typeParams ∧
              tag.typeParams.length = count) ∧
            tag = { address, moduleName, name, typeParams := tag.typeParams }) ∧
          (Reader.collected (TypeTag.readWithin levels) count mid).length ≤ mid.length ∧
          (mid.length < count →
            ∃ e, (StructTag.readWith (TypeTag.readWithin levels) unread).1 = .error e) := by
  refine ⟨fun s => advances_iff, ?_, ?_⟩
  · intro s h unread count mid declared
    have advances : s.codec.read.Advances := advances_iff.2 h
    have loop : s.list.codec.read unread = Reader.times count s.codec.read mid :=
      Reader.andThen_of_ok declared
    refine ⟨fun vs => ?_, advances.length_collected_le count mid, fun short => ?_⟩
    · rw [loop]
      exact Reader.times_eq_ok_iff
    · rw [loop]
      exact advances.times_of_short short
  · intro levels unread address moduleName name count mid declared
    have advances := TypeTag.advances_readWithin levels
    refine ⟨fun tag => ?_, advances.length_collected_le count mid, fun short => ?_⟩
    · rw [StructTag.readWith_eq_ok_iff declared, Reader.times_eq_ok_iff]
    · obtain ⟨e, failed⟩ := advances.times_of_short short
      rw [StructTag.readWith_of_heading declared]
      exact ⟨e, Reader.fault_first failed⟩

/-- Two values are there, each behind an array of no bytes, and many more are declared. Of a struct
type with two parameters one is there. -/
theorem vast_count_is_refused :
    (¬ ((plain 0).pair (option (plain 0))).Vacant ∧
        Uleb128.read [0xFF, 0xFF, 0xFF, 0xFF, 0x0F, 1, 0] = (.ok 4294967295, [1, 0]) ∧
        ∃ e, (((plain 0).pair (option (plain 0))).list.codec.read
          [0xFF, 0xFF, 0xFF, 0xFF, 0x0F, 1, 0]).1 = .error e) ∧
      StructTag.heading.read (StructTag.heading.write (.one, Sample.xus, Sample.xus, 2) ++ [4]) =
          (.ok (.one, Sample.xus, Sample.xus, 2), [4]) ∧
        ∃ e, (StructTag.readWith (TypeTag.readWithin maxTagDepth)
          (StructTag.heading.write (.one, Sample.xus, Sample.xus, 2) ++ [4])).1 = .error e := by
  have taken : ¬ ((plain 0).pair (option (plain 0))).Vacant := And.right
  have form : Uleb128.encode 4294967295 = [0xFF, 0xFF, 0xFF, 0xFF, 0x0F] := by
    simp [Uleb128.encode]
  have declared := Uleb128.read_encode (by decide : 4294967295 < UInt32.size) [1, 0]
  rw [form] at declared
  have short : [(1 : UInt8), 0].length < 4294967295 := by
    simp only [List.length_cons, List.length_nil]
    omega
  have name : Codec.TextFits Sample.xus.text := by decide
  have fits : Codec.CountFits 2 := by decide
  have heading := StructTag.lawful_heading.read_write (v := (.one, Sample.xus, Sample.xus, 2))
    ⟨trivial, name, name, fits⟩ [4]
  have values := declared_counts_are_bounded.2.1 _ taken _ _ _ declared
  have params := declared_counts_are_bounded.2.2 maxTagDepth _ _ _ _ _ _ heading
  exact ⟨⟨taken, declared, values.2.2 short⟩, heading, params.2.2 (by decide)⟩

end Schema

end LedgerClient
