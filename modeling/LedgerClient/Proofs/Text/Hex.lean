import LedgerClient.Proofs.Text.LetterCase
import LedgerClient.Proofs.Text.Utf8
import LedgerClient.Text.Hex

/-!
# Which texts spell bytes

The reader of hexadecimal texts looks at bytes, two for each byte that it gives. A byte that it
takes for a digit is a whole character, because the bytes of the characters outside ASCII are none
of its digits. So the texts that spell given bytes are the text that is written for them, with its
letters in either case, and no others (`decode_eq_ok_iff`). In particular the text that is written
is read back (`decode_encode`). What spells any bytes at all are digits, two for each byte
(`digits_of_spelled`, `exists_spelled`).
-/

set_option autoImplicit false

namespace LedgerClient.Hex

variable {c : Char} {b : UInt8} {n : Nat}

theorem toNat_digit (small : n < 16) :
    (digit n).toNat = if n < 10 then 48 + n else 87 + n := by
  have sixteen : ∀ n : Fin 16, (digit n).toNat = if n.val < 10 then 48 + n.val else 87 + n.val := by
    decide
  exact sixteen ⟨n, small⟩

theorem toLower_digit (small : n < 16) : (digit n).toLower = digit n := by
  have sixteen : ∀ n : Fin 16, (digit n).toLower = digit n := by decide
  exact sixteen ⟨n, small⟩

theorem digitValue?_eq_some_iff :
    digitValue? b = some n ↔
      (48 ≤ b.toNat ∧ b.toNat ≤ 57 ∧ n + 48 = b.toNat) ∨
        (97 ≤ b.toNat ∧ b.toNat ≤ 102 ∧ n + 87 = b.toNat) ∨
        (65 ≤ b.toNat ∧ b.toNat ≤ 70 ∧ n + 55 = b.toNat) := by
  unfold digitValue?
  simp only [UInt8.le_iff_toNat_le, UInt8.reduceToNat]
  split
  · simp only [Option.some.injEq]
    omega
  split
  · simp only [Option.some.injEq]
    omega
  split
  · simp only [Option.some.injEq]
    omega
  · simp only [reduceCtorEq, false_iff]
    omega

/-- A character of ASCII is a digit of either case if and only if its byte is. -/
theorem digitValue?_iff_toLower (same : c.toNat = b.toNat) :
    digitValue? b = some n ↔ n < 16 ∧ c.toLower = digit n := by
  rw [digitValue?_eq_some_iff, ← same]
  constructor
  · intro value
    have small : n < 16 := by omega
    refine ⟨small, ?_⟩
    rw [← Char.toNat_inj, LetterCase.toNat_toLower, toNat_digit small]
    simp only [LetterCase.isUpper_iff]
    split <;> split <;> omega
  · rintro ⟨small, lower⟩
    rw [← Char.toNat_inj, LetterCase.toNat_toLower, toNat_digit small] at lower
    simp only [LetterCase.isUpper_iff] at lower
    split at lower <;> split at lower <;> omega

/-- A character whose first byte is a digit has no other byte. -/
theorem digit_of_byte {more : Bytes} (spelled : Utf8.encodeChar c = b :: more)
    (value : digitValue? b = some n) : more = [] ∧ n < 16 ∧ c.toLower = digit n := by
  have ascii : b.toNat < 0x80 := by
    have := digitValue?_eq_some_iff.1 value
    omega
  have form := Utf8.form_encodeChar c
  rw [spelled] at form
  generalize code : c.toNat = k at form
  cases form with
  | one a _ => exact ⟨rfl, (digitValue?_iff_toLower code).1 value⟩
  | two a b' ha _ => omega
  | three a b' c' ha _ _ => omega
  | four a b' c' d' ha _ _ _ => omega

/-- The one byte of a character that is a digit. -/
theorem byte_of_digit (small : n < 16) (lower : c.toLower = digit n) :
    ∃ b, Utf8.encodeChar c = [b] ∧ digitValue? b = some n := by
  have ascii : c.toNat < 0x80 := by
    have code := congrArg Char.toNat lower
    rw [LetterCase.toNat_toLower, toNat_digit small] at code
    split at code <;> split at code <;> omega
  have same : c.toNat = (UInt8.ofNat c.toNat).toNat :=
    (Utf8.toNat_ofNat_of_lt (Nat.lt_trans ascii (by decide))).symm
  exact ⟨UInt8.ofNat c.toNat, if_pos ascii, (digitValue?_iff_toLower same).2 ⟨small, lower⟩⟩

/-- What two digits spell is written with these digits. -/
theorem encodeChars_ofNat {high low : Nat} (high_lt : high < 16) (low_lt : low < 16)
    (bytes : Bytes) :
    encodeChars (UInt8.ofNat (16 * high + low) :: bytes) =
      digit high :: digit low :: encodeChars bytes := by
  have whole : (UInt8.ofNat (16 * high + low)).toNat = 16 * high + low :=
    Utf8.toNat_ofNat_of_lt (by omega)
  have first : (16 * high + low) / 16 = high := by omega
  have second : (16 * high + low) % 16 = low := by omega
  rw [encodeChars, whole, first, second]

/-- The first two bytes of what is read are digits, and the rest is read behind them. -/
theorem decodePairs_cons_eq_ok {position : Nat} {rest bytes : Bytes}
    (h : decodePairs position (b :: rest) = .ok bytes) :
    ∃ b' rest' high low bytes', rest = b' :: rest' ∧ digitValue? b = some high ∧
      digitValue? b' = some low ∧ decodePairs (position + 2) rest' = .ok bytes' ∧
      bytes = UInt8.ofNat (16 * high + low) :: bytes' := by
  cases rest with
  | nil => cases h
  | cons b' rest' =>
    rw [decodePairs] at h
    split at h
    · cases h
    rename_i high value
    split at h
    · cases h
    rename_i low value'
    split at h
    · cases h
    rename_i bytes' read
    exact ⟨b', rest', high, low, bytes', rfl, value, value', read, (Except.ok.inj h).symm⟩

/-- If the front of a text is a digit byte, the front is a digit. -/
theorem digit_of_front {text : List Char} {rest : Bytes}
    (front : Utf8.encode text = b :: rest) (value : digitValue? b = some n) :
    ∃ c text', text = c :: text' ∧ Utf8.encode text' = rest ∧ n < 16 ∧ c.toLower = digit n := by
  cases text with
  | nil => cases front
  | cons c text' =>
    obtain ⟨first, more, spelled⟩ := Utf8.exists_encodeChar_eq_cons c
    rw [Utf8.encode_cons, spelled, List.cons_append] at front
    obtain ⟨rfl, behind⟩ := List.cons.inj front
    obtain ⟨rfl, small, lower⟩ := digit_of_byte spelled value
    exact ⟨c, text', rfl, behind, small, lower⟩

/-- A text whose bytes are read as digits, two by two, has in lower case the characters that are
written for what is read. The induction is on what is read. -/
theorem map_toLower_of_decodePairs {position : Nat} {text : List Char} {bytes : Bytes}
    (h : decodePairs position (Utf8.encode text) = .ok bytes) :
    text.map Char.toLower = encodeChars bytes := by
  induction bytes generalizing position text with
  | nil =>
    cases text with
    | nil => rfl
    | cons c text' =>
      obtain ⟨first, more, spelled⟩ := Utf8.exists_encodeChar_eq_cons c
      rw [Utf8.encode_cons, spelled, List.cons_append] at h
      obtain ⟨_, _, _, _, _, _, _, _, _, impossible⟩ := decodePairs_cons_eq_ok h
      cases impossible
  | cons byte bytes ih =>
    cases front : Utf8.encode text with
    | nil =>
      rw [front] at h
      cases h
    | cons b rest =>
      rw [front] at h
      obtain ⟨b', rest', high, low, bytes', rfl, value, value', read, whole⟩ :=
        decodePairs_cons_eq_ok h
      obtain ⟨rfl, rfl⟩ := List.cons.inj whole
      obtain ⟨c, text', rfl, behind, high_lt, lower⟩ := digit_of_front front value
      obtain ⟨c', text'', rfl, behind', low_lt, lower'⟩ := digit_of_front behind value'
      rw [← behind'] at read
      rw [List.map_cons, List.map_cons, lower, lower', ih read, encodeChars_ofNat high_lt low_lt]

/-- A text that is in lower case what is written for bytes has two bytes for each of them, and they
are read as these. -/
theorem decodePairs_of_map_toLower (position : Nat) {text : List Char} {bytes : Bytes}
    (lower : text.map Char.toLower = encodeChars bytes) :
    (Utf8.encode text).length = 2 * bytes.length ∧
      decodePairs position (Utf8.encode text) = .ok bytes := by
  induction bytes generalizing position text with
  | nil =>
    rw [List.map_eq_nil_iff.1 lower]
    exact ⟨rfl, rfl⟩
  | cons byte bytes ih =>
    have bound := byte.toNat_lt
    have whole : 16 * (byte.toNat / 16) + byte.toNat % 16 = byte.toNat := Nat.div_add_mod _ _
    obtain ⟨c, text', rfl, highLower, lower⟩ := List.map_eq_cons_iff.1 lower
    obtain ⟨c', text'', rfl, lowLower, lower⟩ := List.map_eq_cons_iff.1 lower
    obtain ⟨b, spelled, value⟩ := byte_of_digit (by omega) highLower
    obtain ⟨b', spelled', value'⟩ := byte_of_digit (by omega) lowLower
    obtain ⟨length, read⟩ := ih (position + 2) lower
    have bytesOf : Utf8.encode (c :: c' :: text'') = b :: b' :: Utf8.encode text'' := by
      rw [Utf8.encode_cons, Utf8.encode_cons, spelled, spelled']
      rfl
    rw [bytesOf]
    refine ⟨?_, ?_⟩
    · rw [List.length_cons, List.length_cons, length, List.length_cons]
      omega
    · rw [decodePairs]
      simp only [value, value', read, whole, UInt8.ofNat_toNat]

/-- The texts that spell bytes are what is written for them, in either case. -/
theorem decode_eq_ok_iff {text : String} {bytes : Bytes} :
    decode text = .ok bytes ↔ text.toList.map Char.toLower = encodeChars bytes := by
  rw [decode, decodeBytes]
  constructor
  · intro h
    split at h
    · cases h
    · exact map_toLower_of_decodePairs h
  · intro lower
    obtain ⟨length, read⟩ := decodePairs_of_map_toLower 0 lower
    rw [if_neg (by omega), read]

/-- What is written is in lower case. -/
@[simp] theorem map_toLower_encodeChars (bytes : Bytes) :
    (encodeChars bytes).map Char.toLower = encodeChars bytes := by
  induction bytes with
  | nil => rfl
  | cons b bytes ih =>
    have bound := b.toNat_lt
    rw [encodeChars, List.map_cons, List.map_cons, toLower_digit (by omega),
      toLower_digit (by omega), ih]

/-- Bytes are read back from the text that spells them. -/
@[simp] theorem decode_encode (bytes : Bytes) : decode (encode bytes) = .ok bytes := by
  simp [decode_eq_ok_iff]

/-- Different bytes are spelled differently. -/
@[simp] theorem encodeChars_inj {bytes other : Bytes} :
    encodeChars bytes = encodeChars other ↔ bytes = other := by
  constructor
  · intro same
    have read := congrArg (fun chars => decode (String.ofList chars)) same
    exact Except.ok.inj ((decode_encode bytes).symm.trans (read.trans (decode_encode other)))
  · exact congrArg encodeChars

/-! ## Digits -/

/-- A hexadecimal digit of either case. -/
def IsDigit (c : Char) : Prop :=
  ('0' ≤ c ∧ c ≤ '9') ∨ ('a' ≤ c ∧ c ≤ 'f') ∨ ('A' ≤ c ∧ c ≤ 'F')

theorem isDigit_iff_toNat :
    IsDigit c ↔ (48 ≤ c.toNat ∧ c.toNat ≤ 57) ∨ (97 ≤ c.toNat ∧ c.toNat ≤ 102) ∨
      (65 ≤ c.toNat ∧ c.toNat ≤ 70) := by
  simp only [IsDigit, Char.le_def, UInt32.le_iff_toNat_le]
  exact Iff.rfl

/-- The digits are the characters that in lower case are written for a number below sixteen. -/
theorem isDigit_iff : IsDigit c ↔ ∃ n < 16, c.toLower = digit n := by
  have code : ∀ n < 16, c.toLower = digit n ↔
      (if 65 ≤ c.toNat ∧ c.toNat ≤ 90 then c.toNat + 32 else c.toNat) =
        if n < 10 then 48 + n else 87 + n := by
    intro n small
    rw [← Char.toNat_inj, LetterCase.toNat_toLower, toNat_digit small]
    simp only [LetterCase.isUpper_iff]
  rw [isDigit_iff_toNat]
  constructor
  · rintro (decimal | lower | upper)
    · exact ⟨c.toNat - 48, by omega, (code _ (by omega)).2 (by split <;> split <;> omega)⟩
    · exact ⟨c.toNat - 87, by omega, (code _ (by omega)).2 (by split <;> split <;> omega)⟩
    · exact ⟨c.toNat - 55, by omega, (code _ (by omega)).2 (by split <;> split <;> omega)⟩
  · rintro ⟨n, small, same⟩
    have same := (code n small).1 same
    split at same <;> split at same <;> omega

/-- What spells bytes are digits, two a byte. -/
theorem digits_of_spelled {chars : List Char} {bytes : Bytes}
    (spelled : chars.map Char.toLower = encodeChars bytes) :
    chars.length = 2 * bytes.length ∧ ∀ c ∈ chars, IsDigit c := by
  induction bytes generalizing chars with
  | nil =>
    rw [List.map_eq_nil_iff.1 spelled]
    exact ⟨rfl, nofun⟩
  | cons byte bytes ih =>
    have bound := byte.toNat_lt
    obtain ⟨high, chars, rfl, first, spelled⟩ := List.map_eq_cons_iff.1 spelled
    obtain ⟨low, chars, rfl, second, spelled⟩ := List.map_eq_cons_iff.1 spelled
    obtain ⟨length, digits⟩ := ih spelled
    refine ⟨by simp only [List.length_cons, length]; omega, ?_⟩
    refine List.forall_mem_cons.2 ⟨?_, List.forall_mem_cons.2 ⟨?_, digits⟩⟩
    · exact isDigit_iff.2 ⟨_, by omega, first⟩
    · exact isDigit_iff.2 ⟨_, by omega, second⟩

/-- Digits, two a byte, spell bytes. -/
theorem exists_spelled {count : Nat} {chars : List Char} (length : chars.length = 2 * count)
    (digits : ∀ c ∈ chars, IsDigit c) :
    ∃ bytes : Bytes, bytes.length = count ∧ chars.map Char.toLower = encodeChars bytes := by
  induction count generalizing chars with
  | zero =>
    rw [List.length_eq_zero_iff.1 length]
    exact ⟨[], rfl, rfl⟩
  | succ count ih =>
    match chars, length with
    | high :: low :: chars, length =>
      obtain ⟨first, digits⟩ := List.forall_mem_cons.1 digits
      obtain ⟨second, digits⟩ := List.forall_mem_cons.1 digits
      obtain ⟨h, h_lt, high_eq⟩ := isDigit_iff.1 first
      obtain ⟨l, l_lt, low_eq⟩ := isDigit_iff.1 second
      obtain ⟨bytes, number, spelled⟩ := ih (by simp only [List.length_cons] at length; omega) digits
      refine ⟨UInt8.ofNat (16 * h + l) :: bytes, congrArg Nat.succ number, ?_⟩
      rw [List.map_cons, List.map_cons, high_eq, low_eq, spelled, encodeChars_ofNat h_lt l_lt]

end LedgerClient.Hex
