import LedgerClient.Octets.Json
import LedgerClient.Proofs.Octets.TextForm
import LedgerClient.Proofs.Schema.RoundTrip
import LedgerClient.Proofs.Signing.Delivery

/-!
# Which texts are octets

The digits of a value are two hexadecimal digits a byte, in either case, and nothing else; a text
carries them bare, or as an address behind one mark `0x` (`IsForm`). `ReadsForm` says that a reader
takes these texts and no others, and gives for each of them the value whose own form is its digits
in lower case. The readers of hexadecimal text, of parsed text and of JSON strings are all such
(`text_forms`), and a signed transaction is read back from its text in any letter case.
-/

set_option autoImplicit false

namespace LedgerClient

namespace Octets

variable {ε : Type} {kind : Kind} {text form : String} {x : Octets kind}

/-- The text carries the digits, two a byte: bare, or as an address behind the mark. -/
structure IsForm (kind : Kind) (text form : String) : Prop where
  carried : text = form ∨ (kind = .address ∧ text = "0x" ++ form)
  length : form.length = 2 * kind.size
  isDigit : ∀ c ∈ form.toList, Hex.IsDigit c

/-- What holds of a reader of the texts of a kind. -/
structure ReadsForm (kind : Kind) (read : String → Except ε (Octets kind)) : Prop where
  /-- A text is read as the value whose form its digits are in lower case. -/
  reads : ∀ text x, read text = .ok x ↔ ∃ form, IsForm kind text form ∧ x.hex = form.toLower
  /-- A text is read if and only if it carries the digits of a value. -/
  accepts : ∀ text, (∃ x, read text = .ok x) ↔ ∃ form, IsForm kind text form
  /-- A value is read back from its own form. -/
  own : ∀ x, read x.hex = .ok x
  /-- Texts that are read stand for one value if and only if their digits agree but for case. -/
  same : ∀ text text' form form', IsForm kind text form → IsForm kind text' form' →
    (read text = read text' ↔ LetterCase.SameText form form')

/-! ## The mark -/

theorem digits_address (text : String) :
    digits .address text = String.ofList (dropMark text.toList) := rfl

theorem dropMark_append (form : String) : dropMark ("0x" ++ form).toList = form.toList := by
  rw [String.toList_append]
  rfl

/-- Digits do not begin with the mark. -/
theorem dropMark_digits {chars : List Char} (isDigit : ∀ c ∈ chars, Hex.IsDigit c) :
    dropMark chars = chars := by
  unfold dropMark
  split
  · have none : ¬ Hex.IsDigit 'x' := fun mark => absurd (Hex.isDigit_iff_toNat.1 mark) (by decide)
    exact absurd (isDigit 'x' (.tail _ (.head _))) none
  · rfl

/-- What is looked at of a text stands there bare, or in an address behind the mark. -/
theorem carried_digits (kind : Kind) (text : String) :
    text = digits kind text ∨ (kind = .address ∧ text = "0x" ++ digits kind text) := by
  cases kind with
  | address =>
    rw [digits_address, ← String.toList_inj, ← String.toList_inj, String.toList_append,
      String.toList_ofList]
    unfold dropMark
    split
    · rename_i rest behind
      exact .inr ⟨rfl, behind⟩
    · exact .inl rfl
  | _ => exact .inl rfl

/-- The digits that a text carries are what is looked at of it. -/
theorem IsForm.digits_eq (carries : IsForm kind text form) : digits kind text = form := by
  rcases carries.carried with rfl | ⟨rfl, rfl⟩
  · rw [digits, dropMark_digits carries.isDigit, String.ofList_toList, ite_self]
  · rw [digits_address, dropMark_append, String.ofList_toList]

/-! ## The digits -/

/-- What is in lower case the form of a value are digits, two a byte. -/
theorem digits_of_hex (lower : x.hex = form.toLower) :
    form.length = 2 * kind.size ∧ ∀ c ∈ form.toList, Hex.IsDigit c := by
  have spelled : form.toList.map Char.toLower = Hex.encodeChars x.toList := by
    rw [← LetterCase.toList_toLower, ← lower, toList_hex]
  rw [← String.length_toList, ← x.length_toList]
  exact Hex.digits_of_spelled spelled

/-- The digits that a text carries are in lower case the form of a value. -/
theorem IsForm.exists_hex (carries : IsForm kind text form) :
    ∃ x : Octets kind, x.hex = form.toLower := by
  have length := carries.length
  rw [← String.length_toList] at length
  obtain ⟨bytes, number, spelled⟩ := Hex.exists_spelled length carries.isDigit
  refine ⟨⟨bytes, number⟩, ?_⟩
  rw [← String.toList_inj, toList_hex, LetterCase.toList_toLower, spelled]

@[simp] theorem toLower_hex (x : Octets kind) : x.hex.toLower = x.hex := by
  simp [← String.toList_inj]

/-- The form of a value carries itself. -/
theorem isForm_hex (x : Octets kind) : IsForm kind x.hex x.hex :=
  have own := digits_of_hex (toLower_hex x).symm
  ⟨.inl rfl, own.1, own.2⟩

/-! ## The readers -/

/-- The rest follows for a reader that takes the forms and no other texts. -/
theorem ReadsForm.of_reads {read : String → Except ε (Octets kind)}
    (reads : ∀ text x, read text = .ok x ↔ ∃ form, IsForm kind text form ∧ x.hex = form.toLower) :
    ReadsForm kind read where
  reads := reads
  accepts text := by
    constructor
    · rintro ⟨x, answer⟩
      obtain ⟨form, carries, -⟩ := (reads text x).1 answer
      exact ⟨form, carries⟩
    · rintro ⟨form, carries⟩
      obtain ⟨x, lower⟩ := carries.exists_hex
      exact ⟨x, (reads text x).2 ⟨form, carries, lower⟩⟩
  own x := (reads x.hex x).2 ⟨x.hex, isForm_hex x, (toLower_hex x).symm⟩
  same text text' form form' carries carries' := by
    obtain ⟨x, lower⟩ := carries.exists_hex
    obtain ⟨x', lower'⟩ := carries'.exists_hex
    rw [(reads text x).2 ⟨form, carries, lower⟩, (reads text' x').2 ⟨form', carries', lower'⟩,
      Except.ok.injEq, ← hex_inj, lower, lower', LetterCase.toLower_eq_iff]

theorem readsForm_ofHex (kind : Kind) : ReadsForm kind (ofHex kind) := by
  refine .of_reads fun text x => ?_
  have looked : ofHex kind text = .ok x ↔ x.hex = (digits kind text).toLower := by
    rw [ofHex_eq_ok_iff, eq_comm, ← String.toList_inj, LetterCase.toList_toLower]
  rw [looked]
  constructor
  · intro lower
    obtain ⟨length, isDigit⟩ := digits_of_hex lower
    exact ⟨_, ⟨carried_digits kind text, length, isDigit⟩, lower⟩
  · rintro ⟨form, carries, lower⟩
    rw [carries.digits_eq, lower]

theorem ofJson_string_eq_ok_iff : ofJson kind (.string text) = .ok x ↔ ofHex kind text = .ok x := by
  rw [ofJson]
  cases ofHex kind text <;> simp [Except.mapError]

theorem readsForm_ofJson (kind : Kind) : ReadsForm kind fun text => ofJson kind (.string text) :=
  .of_reads fun text x => ofJson_string_eq_ok_iff.trans ((readsForm_ofHex kind).reads text x)

end Octets

namespace SignedTransaction

variable {bytes : Bytes} {t : SignedTransaction} {text : String}

/-- Only transactions that fit are decoded. -/
theorem fits_of_ofBytes (decoded : ofBytes bytes = .ok t) : t.Fits := by
  rw [ofBytes] at decoded
  cases read : codec.decode bytes with
  | error e =>
    rw [read] at decoded
    cases decoded
  | ok v =>
    rw [read] at decoded
    obtain rfl := Except.ok.inj decoded
    exact (lawful_codec.eq_write_of_decode read).2

/-- A transaction that bytes are decoded to is read back from its text in any letter case. -/
theorem ofHex_of_sameText (decoded : ofBytes bytes = .ok t)
    (same : LetterCase.SameText text t.hex) : ofHex text = .ok t := by
  have spelled : Hex.decode text = .ok t.toBytes := by
    simp [Hex.decode_eq_ok_iff, LetterCase.map_toLower_eq_iff.2 same, hex]
  rw [ofHex, spelled]
  exact ofBytes_toBytes (fits_of_ofBytes decoded)

end SignedTransaction

namespace Octets

/-- The reader of hexadecimal text, the parser of text and the reader of JSON strings take of each
kind the texts that carry its digits, and nothing else in JSON is read. A signed transaction that
can be decoded is read back from its text in any letter case. -/
theorem text_forms :
    (∀ kind, ReadsForm kind (ofHex kind) ∧ ReadsForm kind (ofText kind)) ∧
    (∀ kind, ReadsForm kind (fun text => ofJson kind (.string text)) ∧
      (∀ x : Octets kind, ofJson kind x.toJson = .ok x) ∧
      ∀ json, (∀ text, json ≠ .string text) → ofJson kind json = .error .notString) ∧
    ∀ bytes t, SignedTransaction.ofBytes bytes = .ok t → ∀ text,
      LetterCase.SameText text t.hex → SignedTransaction.ofHex text = .ok t := by
  refine ⟨fun kind => ⟨readsForm_ofHex kind, readsForm_ofHex kind⟩, fun kind => ⟨?_, ?_, ?_⟩, ?_⟩
  · exact readsForm_ofJson kind
  · exact (readsForm_ofJson kind).own
  · intro json other
    cases json with
    | string text => exact absurd rfl (other text)
    | _ => rfl
  · intro bytes t decoded text same
    exact SignedTransaction.ofHex_of_sameText decoded same

namespace Sample

/-- One letter in upper case, all other characters as they are. -/
def raise (c : Char) : Char := if c = 'a' then 'A' else c

theorem sameText_raise (text : String) : LetterCase.SameText (text.map raise) text := by
  have letters : ∀ c, LetterCase.SameLetter (raise c) c := by
    intro c
    rw [raise]
    split
    · rename_i a
      exact .inr (.inl ⟨rfl, congrArg Char.toNat a⟩)
    · exact .inl rfl
  rw [LetterCase.SameText, String.toList_map, List.forall₂_map_left_iff]
  exact List.forall₂_same.2 fun c _ => letters c

theorem isForm_marked (x : Address) : IsForm .address ("0x" ++ x.hex) x.hex :=
  ⟨.inr ⟨rfl, rfl⟩, (isForm_hex x).length, (isForm_hex x).isDigit⟩

end Sample

theorem marked_and_raised_texts :
    ofHex .address ("0x" ++ Address.one.hex) = .ok Address.one ∧
      SignedTransaction.ofBytes Schema.Sample.signed.toBytes = .ok Schema.Sample.signed ∧
      SignedTransaction.ofHex (Schema.Sample.signed.hex.map Sample.raise) =
        .ok Schema.Sample.signed := by
  have decoded : SignedTransaction.ofBytes Schema.Sample.signed.toBytes = .ok Schema.Sample.signed :=
    SignedTransaction.ofBytes_toBytes Schema.Sample.signed_fits
  refine ⟨?_, decoded, ?_⟩
  · exact ((text_forms.1 .address).1.reads _ _).2
      ⟨_, Sample.isForm_marked Address.one, (toLower_hex Address.one).symm⟩
  · exact text_forms.2.2 _ _ decoded _ (Sample.sameText_raise _)

end Octets

end LedgerClient
