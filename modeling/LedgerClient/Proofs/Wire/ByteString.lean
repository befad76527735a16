import LedgerClient.Proofs.Schema.Lawful
import LedgerClient.Proofs.Wire.Shortest

/-!
# Byte strings and lists of bytes

A byte string has two codecs: as such, when its length is compared with what is left and the bytes
are taken in one piece, and as a list whose elements are bytes, when one byte is read after the other.
They write the same form (`push_list_u8`), and the outcome of reading is the same (`agree_list_u8`):
the same value with the same rest, or the same error. What a failed reading leaves is not the same.
The one takes nothing where too little is left, the other takes all that there is.

Metadata of any bytes holds them as a list, and so comes to the same as with a byte string.
-/

set_option autoImplicit false

namespace LedgerClient

namespace Reader

variable {α β : Type} {r r' : Reader α} {count : Nat} {unread : Bytes}

/-- The same value with the same rest, or the same error. -/
inductive SameOutcome : Except DataError α × Bytes → Except DataError α × Bytes → Prop
  | ok (v : α) (rest : Bytes) : SameOutcome (.ok v, rest) (.ok v, rest)
  | error (e : DataError) (rest rest' : Bytes) : SameOutcome (.error e, rest) (.error e, rest')

/-- The readers have the same outcome on every input. -/
def Agree (r r' : Reader α) : Prop := ∀ unread, SameOutcome (r unread) (r' unread)

section Outcomes

variable {outcome outcome' : Except DataError α × Bytes}

theorem SameOutcome.of_eq (same : outcome = outcome') : SameOutcome outcome outcome' := by
  rw [← same]
  rcases outcome with ⟨e | v, rest⟩
  · exact .error e rest rest
  · exact .ok v rest

theorem SameOutcome.of_error {e : DataError} (h : outcome.1 = .error e)
    (h' : outcome'.1 = .error e) : SameOutcome outcome outcome' := by
  rcases outcome with ⟨answer, rest⟩
  rcases outcome' with ⟨answer', rest'⟩
  obtain rfl : answer = .error e := h
  obtain rfl : answer' = .error e := h'
  exact .error e rest rest'

theorem SameOutcome.answer_eq (h : SameOutcome outcome outcome') : outcome.1 = outcome'.1 := by
  cases h with
  | ok v rest => rfl
  | error e rest rest' => rfl

end Outcomes

/-- Readers that agree do so with the same reading in front of them. -/
theorem Agree.behind {g g' : β → Reader α} (first : Reader β) (h : ∀ b, (g b).Agree (g' b)) :
    (andThen first g).Agree (andThen first g') := by
  intro unread
  rcases read : first unread with ⟨e | b, rest⟩
  · apply SameOutcome.of_eq
    rw [andThen_of_error read, andThen_of_error read]
  · rw [andThen_of_ok read, andThen_of_ok read]
    exact h b rest

/-- Readers that agree do so with the same reading behind them. -/
theorem Agree.before (h : r.Agree r') (next : α → Reader β) :
    (andThen r next).Agree (andThen r' next) := by
  intro unread
  have outcome := h unread
  rcases read : r unread with ⟨answer, rest⟩
  rcases read' : r' unread with ⟨answer', rest'⟩
  rw [read, read'] at outcome
  cases outcome with
  | ok v rest =>
    apply SameOutcome.of_eq
    rw [andThen_of_ok read, andThen_of_ok read']
  | error e rest rest' =>
    rw [andThen_of_error read, andThen_of_error read']
    exact .error e rest rest'

/-- Bytes that are there are read one by one. -/
theorem times_byte_append (bytes rest : Bytes) :
    times bytes.length byte (bytes ++ rest) = (.ok bytes, rest) := by
  induction bytes with
  | nil => rfl
  | cons b bytes ih =>
    rw [List.length_cons, List.cons_append, times, andThen_of_ok (byte_cons b (bytes ++ rest)),
      andThen_of_ok ih]
    rfl

theorem times_byte_of_short (short : unread.length < count) :
    (times count byte unread).1 = .error .endOfInput := by
  induction count generalizing unread with
  | zero => cases short
  | succ count ih =>
    cases unread with
    | nil => rfl
    | cons b rest =>
      have short : rest.length < count := Nat.lt_of_succ_lt_succ short
      exact fault_second (byte_cons b rest) (fault_first (ih short))

/-- So many bytes are read one by one as they are in one piece. -/
theorem agree_times_byte (count : Nat) : (times count byte).Agree (take count) := by
  intro unread
  rcases Nat.lt_or_ge unread.length count with short | long
  · have all := take_of_short short
    exact .of_error (times_byte_of_short short) (congrArg Prod.fst all)
  · have enough : (unread.take count).length = count := List.length_take_of_le long
    have pieces : unread.take count ++ unread.drop count = unread := List.take_append_drop count unread
    have one := times_byte_append (unread.take count) (unread.drop count)
    have all := take_append enough (unread.drop count)
    rw [enough, pieces] at one
    rw [pieces] at all
    exact .of_eq (one.trans all.symm)

end Reader

namespace Codec

/-- A list of bytes is put behind a buffer as a byte string is. -/
theorem push_list_u8 (s : Bytes) (buffer : Buffer) : u8.list.push s buffer = bytes.push s buffer :=
  rfl

theorem agree_list_u8 : u8.list.read.Agree bytes.read :=
  .behind Uleb128.read Reader.agree_times_byte

/-- A length that cannot be counted is written and then refused. -/
theorem read_bytes_of_long {s : Bytes} (long : ¬ CountFits s.length) (rest : Bytes) :
    (bytes.read (bytes.write s ++ rest)).1 = .error .numberTooLarge := by
  have length := Uleb128.spells_encode s.length
  have tooLarge := Uleb128.tooLarge_of_spells length (Nat.le_of_not_lt long) (s ++ rest)
  rw [write_bytes, List.append_assoc]
  exact Reader.fault_first (Uleb128.read_of_tooLarge tooLarge)

end Codec

namespace Metadata

/-- The place of the alternative, the byte for a value that is there, and the byte string. -/
theorem write_ofContent (content : Bytes) :
    codec.write (ofContent content) = 3 :: 1 :: Codec.bytes.write content := by
  have place : codec.write (ofContent content) =
      Uleb128.encode 3 ++ Unstructured.codec.write ⟨some content⟩ :=
    sorts_cases.write_build (rfl : cases[3]? = some _) _ Unstructured.lawful_codec.appends
  have body : Unstructured.codec.write ⟨some content⟩ = 1 :: Codec.bytes.write content :=
    Codec.write_option_some Codec.lawful_u8.list.appends content
  rw [place, body, Uleb128.encode_of_lt (by decide)]
  rfl

/-- Behind the place and the byte for a value that is there, the content is read as a list. -/
theorem read_content (unread : Bytes) :
    codec.read (3 :: 1 :: unread) =
      Reader.andThen Codec.u8.list.read (fun content => .ok (ofContent content)) unread := by
  have place : codec.read (3 :: 1 :: unread) =
      Reader.andThen Unstructured.codec.read (fun body => .ok (unstructured body)) (1 :: unread) :=
    Reader.andThen_of_ok rfl
  have there : Codec.u8.list.option.read (1 :: unread) =
      Reader.andThen Codec.u8.list.read (fun content => .ok (some content)) unread := rfl
  rw [place]
  rcases read : Codec.u8.list.read unread with ⟨e | content, rest⟩
  · rw [Reader.andThen_of_error read] at there ⊢
    exact Reader.andThen_of_error (Reader.andThen_of_error there)
  · rw [Reader.andThen_of_ok read] at there ⊢
    exact Reader.andThen_of_ok (Reader.andThen_of_ok there)

/-- The outcome is the one of reading the content as a byte string. -/
theorem sameOutcome_read_content (unread : Bytes) :
    Reader.SameOutcome (codec.read (3 :: 1 :: unread))
      (Reader.andThen Codec.bytes.read (fun content => .ok (ofContent content)) unread) := by
  rw [read_content]
  exact Codec.agree_list_u8.before _ unread

theorem fits_ofContent {content : Bytes} (short : Codec.CountFits content.length) :
    (ofContent content).Fits := by
  intro held chosen
  rw [← Option.some.inj chosen]
  exact short

/-- The metadata is decoded from its form if the content can be counted, and the length is refused if
not. -/
theorem ofBytes_write_ofContent (content : Bytes) :
    ofBytes (codec.write (ofContent content)) =
      if Codec.CountFits content.length then .ok (ofContent content)
      else .error (.data .numberTooLarge) := by
  split
  · rename_i short
    rw [ofBytes, lawful_codec.decode_write (fits_ofContent short)]
    rfl
  · rename_i long
    have length := Codec.read_bytes_of_long long []
    rw [List.append_nil] at length
    have refused : codec.decode (codec.write (ofContent content)) = .error .numberTooLarge := by
      apply Reader.fault_first
      rw [write_ofContent]
      exact (sameOutcome_read_content _).answer_eq.trans (Reader.fault_first length)
    rw [ofBytes, refused]
    rfl

end Metadata

/-- A list of bytes and a byte string are written alike, behind every buffer, and read with the same
outcome from every input. So metadata of any bytes is its place, the byte for a value that is there
and the byte string of its content; it is read where that is read, and is decoded from its own form if
the content can be counted at all. -/
theorem list_of_bytes_is_byte_string :
    (∀ (s : Bytes) (buffer : Buffer), Codec.u8.list.push s buffer = Codec.bytes.push s buffer) ∧
      (∀ unread, Reader.SameOutcome (Codec.u8.list.read unread) (Codec.bytes.read unread)) ∧
      (∀ content, Metadata.codec.write (.ofContent content) =
        3 :: 1 :: Codec.bytes.write content) ∧
      (∀ unread, Reader.SameOutcome (Metadata.codec.read (3 :: 1 :: unread))
        (Reader.andThen Codec.bytes.read (fun content => .ok (.ofContent content)) unread)) ∧
      ∀ content, Metadata.ofBytes (Metadata.codec.write (.ofContent content)) =
        if Codec.CountFits content.length then .ok (.ofContent content)
        else .error (.data .numberTooLarge) :=
  ⟨Codec.push_list_u8, Codec.agree_list_u8, Metadata.write_ofContent,
    Metadata.sameOutcome_read_content, Metadata.ofBytes_write_ofContent⟩

end LedgerClient
