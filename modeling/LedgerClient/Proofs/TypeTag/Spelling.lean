import LedgerClient.Proofs.TypeTag.Wire

/-!
# The spelling of names

What a name is, said by its characters alone: a letter and then any number of letters, digits and
underscores, or an underscore and then at least one of these (`Spelled`). Where a text begins with an
underscore, the check looks at the number of its bytes. That comes to the same, since an underscore is
one byte and each character behind it has one at least (`isName_iff`). A text is made a name, and read
as one, exactly if it is spelled so.
-/

set_option autoImplicit false

namespace LedgerClient.Identifier

/-- A letter of the English alphabet. -/
def IsLetter (c : Char) : Prop := ('A' ≤ c ∧ c ≤ 'Z') ∨ ('a' ≤ c ∧ c ≤ 'z')

/-- A letter, a digit or an underscore. -/
def IsPart (c : Char) : Prop := (IsLetter c ∨ ('0' ≤ c ∧ c ≤ '9')) ∨ c = '_'

/-- The texts that are names. -/
inductive Spelled : List Char → Prop where
  | letter {first : Char} {others : List Char} :
      IsLetter first → (∀ c ∈ others, IsPart c) → Spelled (first :: others)
  | underscore {second : Char} {others : List Char} :
      (∀ c ∈ second :: others, IsPart c) → Spelled ('_' :: second :: others)

theorem between_iff {low high c : Char} :
    (decide (c.val ≥ low.val) && decide (c.val ≤ high.val)) = true ↔ low ≤ c ∧ c ≤ high := by
  rw [Bool.and_eq_true_iff, decide_eq_true_iff, decide_eq_true_iff]
  exact Iff.rfl

@[simp] theorem isAlpha_iff {c : Char} : c.isAlpha = true ↔ IsLetter c := by
  show (c.isUpper || c.isLower) = true ↔ _
  rw [Bool.or_eq_true_iff]
  exact or_congr decide_eq_true_iff between_iff

@[simp] theorem isBody_iff {c : Char} : isBody c = true ↔ IsPart c := by
  show ((c.isAlpha || c.isDigit) || c == '_') = true ↔ _
  rw [Bool.or_eq_true_iff, Bool.or_eq_true_iff, isAlpha_iff, beq_iff_eq]
  exact or_congr_left (or_congr_right between_iff)

@[simp] theorem all_isBody_iff {text : List Char} : text.all isBody = true ↔ ∀ c ∈ text, IsPart c := by
  simp

/-- An underscore is the only byte if nothing is behind it. -/
theorem one_lt_length_encode_iff {others : List Char} :
    1 < (Utf8.encode ('_' :: others)).length ↔ others ≠ [] := by
  have form : Utf8.encode ('_' :: others) = 0x5F :: Utf8.encode others := Utf8.encode_cons _ _
  rw [form, List.length_cons]
  cases others with
  | nil => simp [Utf8.encode]
  | cons c others =>
    have bytes := Utf8.length_le_length_encode (c :: others)
    rw [List.length_cons] at bytes
    simp only [ne_eq, reduceCtorEq, not_false_eq_true, iff_true]
    omega

/-- The check accepts the names. -/
theorem isName_iff {text : List Char} : isName text = true ↔ Spelled text := by
  cases text with
  | nil =>
    constructor
    · intro h
      cases h
    · intro h
      cases h
  | cons first others =>
    rw [isName, Bool.and_eq_true_iff, Bool.or_eq_true_iff, Bool.and_eq_true_iff, isAlpha_iff,
      all_isBody_iff, beq_iff_eq, decide_eq_true_iff]
    constructor
    · rintro ⟨letter | ⟨rfl, long⟩, parts⟩
      · exact .letter letter parts
      · obtain ⟨second, others, rfl⟩ := List.exists_cons_of_ne_nil (one_lt_length_encode_iff.1 long)
        exact .underscore parts
    · intro spelled
      cases spelled with
      | letter letter parts => exact ⟨.inl letter, parts⟩
      | underscore parts =>
        exact ⟨.inr ⟨rfl, one_lt_length_encode_iff.2 (List.cons_ne_nil _ _)⟩, parts⟩

theorem spelled (name : Identifier) : Spelled name.text.toList := isName_iff.1 name.valid

theorem ofString_eq_ok_iff {text : String} {name : Identifier} :
    ofString text = .ok name ↔ name.text = text := by
  unfold ofString ofString?
  by_cases valid : isName text.toList = true
  · rw [dif_pos valid]
    constructor
    · intro h
      rw [← Except.ok.inj h]
    · rintro rfl
      rfl
  · rw [dif_neg valid]
    constructor
    · intro h
      cases h
    · rintro rfl
      exact absurd name.valid valid

theorem exists_ofString_iff {text : String} :
    (∃ name, ofString text = .ok name) ↔ Spelled text.toList := by
  simp only [ofString_eq_ok_iff]
  constructor
  · rintro ⟨name, rfl⟩
    exact name.spelled
  · intro spelled
    exact ⟨⟨text, isName_iff.2 spelled⟩, rfl⟩

/-- Bytes enough are behind the underscore, but they are no character of a name. -/
example : ofString "_é" = .error (.notIdentifier "_é") := rfl

/-- A text is read as the name that it is, or refused. -/
theorem decode_write_text {text : String} (fits : Codec.TextFits text) {name : Identifier} :
    codec.decode (Codec.text.write text) = .ok name ↔ ofString text = .ok name := by
  rw [ofString_eq_ok_iff]
  constructor
  · intro decoded
    have form := (lawful_codec.eq_write_of_decode decoded).1
    have same : Codec.text.Unambiguous text := Codec.lawful_text.unambiguous text
    exact (same.eq form).symm
  · rintro rfl
    exact lawful_codec.decode_write fits

end LedgerClient.Identifier
