import LedgerClient.Text.Utf8

/-!
# UTF-8 and texts

`Form` lists the byte strings that are the form of a character, by the ranges of their bytes, with
the code that each spells. The writer gives the form of a character (`form_encodeChar`), the reader
finds a form at the front of its input and nothing else (`head_of_form`, `form_of_head`), and a code
has one form only (`encodeChar_of_form`). So a text is read back from its bytes (`decode_encode`),
and the bytes of a text are the only ones that spell it (`eq_encode_of_decode`).
-/

set_option autoImplicit false

namespace LedgerClient.Utf8

/-- A byte compares with the bounds of a range as their numbers do. -/
theorem range_iff {a low high : UInt8} :
    low ≤ a ∧ a ≤ high ↔ low.toNat ≤ a.toNat ∧ a.toNat ≤ high.toNat :=
  and_congr UInt8.le_iff_toNat_le UInt8.le_iff_toNat_le

theorem isContinuation_iff {b : UInt8} :
    isContinuation b = true ↔ 0x80 ≤ b.toNat ∧ b.toNat ≤ 0xBF :=
  decide_eq_true_iff.trans range_iff

/-- The second byte continues the character, and after four first bytes its range is narrower. -/
theorem isSecond_iff {a b : UInt8} :
    isSecond a b = true ↔
      (0x80 ≤ b.toNat ∧ b.toNat ≤ 0xBF) ∧ (a.toNat = 0xE0 → 0xA0 ≤ b.toNat)
        ∧ (a.toNat = 0xED → b.toNat ≤ 0x9F) ∧ (a.toNat = 0xF0 → 0x90 ≤ b.toNat)
        ∧ (a.toNat = 0xF4 → b.toNat ≤ 0x8F) := by
  have first : ∀ k : UInt8, a = k ↔ a.toNat = k.toNat := fun k => UInt8.toNat_inj.symm
  have range : ∀ low high : UInt8, decide (low ≤ b ∧ b ≤ high) = true ↔
      low.toNat ≤ b.toNat ∧ b.toNat ≤ high.toNat := fun _ _ => decide_eq_true_iff.trans range_iff
  unfold isSecond
  simp only [first]
  repeat' split
  all_goals
    first
    | rw [range]
    | rw [isContinuation_iff]
    simp only [UInt8.reduceToNat] at *
    omega

/-- The byte strings that are the form of a character, each with the code that it spells. -/
inductive Form : Nat → Bytes → Prop
  | one (a : UInt8) (ha : a.toNat < 0x80) : Form a.toNat [a]
  | two (a b : UInt8) (ha : 0xC2 ≤ a.toNat ∧ a.toNat ≤ 0xDF) (hb : isContinuation b = true) :
    Form ((a.toNat - 0xC0) * 0x40 + (b.toNat - 0x80)) [a, b]
  | three (a b c : UInt8) (ha : 0xE0 ≤ a.toNat ∧ a.toNat ≤ 0xEF) (hb : isSecond a b = true)
    (hc : isContinuation c = true) :
    Form ((a.toNat - 0xE0) * 0x1000 + (b.toNat - 0x80) * 0x40 + (c.toNat - 0x80)) [a, b, c]
  | four (a b c d : UInt8) (ha : 0xF0 ≤ a.toNat ∧ a.toNat ≤ 0xF4) (hb : isSecond a b = true)
    (hc : isContinuation c = true) (hd : isContinuation d = true) :
    Form ((a.toNat - 0xF0) * 0x40000 + (b.toNat - 0x80) * 0x1000 + (c.toNat - 0x80) * 0x40
      + (d.toNat - 0x80)) [a, b, c, d]

theorem toNat_ofNat_of_lt {k : Nat} (small : k < 256) : (UInt8.ofNat k).toNat = k := by
  rw [UInt8.toNat_ofNat', Nat.mod_eq_of_lt small]

/-- The writer gives the form of the character, from the code to the ranges of its bytes. -/
theorem form_encodeChar (c : Char) : Form c.toNat (encodeChar c) := by
  have valid : c.toNat < 0xD800 ∨ 0xDFFF < c.toNat ∧ c.toNat < 0x110000 := c.valid
  generalize code : c.toNat = n at valid
  simp only [encodeChar, code]
  split
  · have lead := toNat_ofNat_of_lt (show n < 256 by omega)
    have form := Form.one (UInt8.ofNat n) (by rwa [lead])
    rwa [lead] at form
  split
  · have lead := toNat_ofNat_of_lt (show 0xC0 + n / 0x40 < 256 by omega)
    have low := toNat_ofNat_of_lt (show 0x80 + n % 0x40 < 256 by omega)
    have form := Form.two (.ofNat (0xC0 + n / 0x40)) (.ofNat (0x80 + n % 0x40))
      (by rw [lead]; omega) (isContinuation_iff.2 (by rw [low]; omega))
    have spelled : (0xC0 + n / 0x40 - 0xC0) * 0x40 + (0x80 + n % 0x40 - 0x80) = n := by omega
    rwa [lead, low, spelled] at form
  split
  · have lead := toNat_ofNat_of_lt (show 0xE0 + n / 0x1000 < 256 by omega)
    have middle := toNat_ofNat_of_lt (show 0x80 + n / 0x40 % 0x40 < 256 by omega)
    have low := toNat_ofNat_of_lt (show 0x80 + n % 0x40 < 256 by omega)
    have form := Form.three (.ofNat (0xE0 + n / 0x1000)) (.ofNat (0x80 + n / 0x40 % 0x40))
      (.ofNat (0x80 + n % 0x40)) (by rw [lead]; omega)
      (isSecond_iff.2 (by rw [lead, middle]; omega)) (isContinuation_iff.2 (by rw [low]; omega))
    have spelled : (0xE0 + n / 0x1000 - 0xE0) * 0x1000 + (0x80 + n / 0x40 % 0x40 - 0x80) * 0x40
      + (0x80 + n % 0x40 - 0x80) = n := by omega
    rwa [lead, middle, low, spelled] at form
  · have lead := toNat_ofNat_of_lt (show 0xF0 + n / 0x40000 < 256 by omega)
    have high := toNat_ofNat_of_lt (show 0x80 + n / 0x1000 % 0x40 < 256 by omega)
    have middle := toNat_ofNat_of_lt (show 0x80 + n / 0x40 % 0x40 < 256 by omega)
    have low := toNat_ofNat_of_lt (show 0x80 + n % 0x40 < 256 by omega)
    have form := Form.four (.ofNat (0xF0 + n / 0x40000)) (.ofNat (0x80 + n / 0x1000 % 0x40))
      (.ofNat (0x80 + n / 0x40 % 0x40)) (.ofNat (0x80 + n % 0x40)) (by rw [lead]; omega)
      (isSecond_iff.2 (by rw [lead, high]; omega)) (isContinuation_iff.2 (by rw [middle]; omega))
      (isContinuation_iff.2 (by rw [low]; omega))
    have spelled : (0xF0 + n / 0x40000 - 0xF0) * 0x40000
      + (0x80 + n / 0x1000 % 0x40 - 0x80) * 0x1000 + (0x80 + n / 0x40 % 0x40 - 0x80) * 0x40
      + (0x80 + n % 0x40 - 0x80) = n := by omega
    rwa [lead, high, middle, low, spelled] at form

theorem not_ascii {a : UInt8} (h : 0x80 ≤ a.toNat) : ¬ a < 0x80 :=
  fun ascii => Nat.not_lt.2 h (UInt8.lt_iff_toNat_lt.1 ascii)

/-- The reader finds the form of a character that stands at the front. -/
theorem head_of_form {n : Nat} {form : Bytes} (h : Form n form) (rest : Bytes) :
    head (form ++ rest) = .char (Char.ofNat n) rest := by
  have outside : ∀ {a low high : UInt8}, (a.toNat < low.toNat ∨ high.toNat < a.toNat) →
      ¬ (low ≤ a ∧ a ≤ high) := fun apart inside => by
    have := range_iff.1 inside
    omega
  cases h with
  | one a ha => exact if_pos (UInt8.lt_iff_toNat_lt.2 ha)
  | two a b ha hb =>
    have long : ¬ a < 0x80 := not_ascii (by omega)
    have two : 0xC2 ≤ a ∧ a ≤ 0xDF := range_iff.2 ha
    simp only [head, List.cons_append, List.nil_append, if_neg long, if_pos two, hb, if_true]
  | three a b c ha hb hc =>
    have long : ¬ a < 0x80 := not_ascii (by omega)
    have two : ¬ (0xC2 ≤ a ∧ a ≤ 0xDF) := outside (.inr ha.1)
    have three : 0xE0 ≤ a ∧ a ≤ 0xEF := range_iff.2 ha
    simp only [head, List.cons_append, List.nil_append, if_neg long, if_neg two, if_pos three, hb,
      hc, if_true]
  | four a b c d ha hb hc hd =>
    have long : ¬ a < 0x80 := not_ascii (by omega)
    have two : ¬ (0xC2 ≤ a ∧ a ≤ 0xDF) := outside (.inr (Nat.lt_of_lt_of_le (by decide) ha.1))
    have three : ¬ (0xE0 ≤ a ∧ a ≤ 0xEF) := outside (.inr ha.1)
    have four : 0xF0 ≤ a ∧ a ≤ 0xF4 := range_iff.2 ha
    simp only [head, List.cons_append, List.nil_append, if_neg long, if_neg two, if_neg three,
      if_pos four, hb, hc, hd, if_true]

/-- What the reader takes for a character is the form of one. -/
theorem form_of_head {bytes rest : Bytes} {c : Char} (h : head bytes = .char c rest) :
    ∃ n form, Form n form ∧ c = Char.ofNat n ∧ bytes = form ++ rest := by
  unfold head at h
  split at h
  · cases h
  rename_i a tail
  split at h
  · rename_i ascii
    obtain ⟨rfl, rfl⟩ := Head.char.inj h
    exact ⟨_, _, .one a (UInt8.lt_iff_toNat_lt.1 ascii), rfl, rfl⟩
  split at h
  · rename_i two
    split at h
    · cases h
    split at h
    · rename_i hb
      obtain ⟨rfl, rfl⟩ := Head.char.inj h
      exact ⟨_, _, .two a _ (range_iff.1 two) hb, rfl, rfl⟩
    · cases h
  split at h
  · rename_i three
    split at h
    · cases h
    split at h
    · rename_i hb
      split at h
      · cases h
      split at h
      · rename_i hc
        obtain ⟨rfl, rfl⟩ := Head.char.inj h
        exact ⟨_, _, .three a _ _ (range_iff.1 three) hb hc, rfl, rfl⟩
      · cases h
    · cases h
  split at h
  · rename_i four
    split at h
    · cases h
    split at h
    · rename_i hb
      split at h
      · cases h
      split at h
      · rename_i hc
        split at h
        · cases h
        split at h
        · rename_i hd
          obtain ⟨rfl, rfl⟩ := Head.char.inj h
          exact ⟨_, _, .four a _ _ _ (range_iff.1 four) hb hc hd, rfl, rfl⟩
        · cases h
      · cases h
    · cases h
  · cases h

theorem toNat_ofNat_of_valid {n : Nat} (valid : n.isValidChar) : (Char.ofNat n).toNat = n := by
  rw [Char.ofNat, dif_pos valid]
  rfl

/-- A code has one form only, the one that the writer gives. -/
theorem encodeChar_of_form {n : Nat} {form : Bytes} (h : Form n form) :
    encodeChar (Char.ofNat n) = form := by
  have same : ∀ {k : Nat} {b : UInt8}, k = b.toNat → UInt8.ofNat k = b := fun equal => by
    rw [equal, UInt8.ofNat_toNat]
  cases h with
  | one a ha =>
    have code := toNat_ofNat_of_valid (n := a.toNat) (.inl (by omega))
    simp only [encodeChar, code, if_pos ha, UInt8.ofNat_toNat]
  | two a b ha hb =>
    rw [isContinuation_iff] at hb
    generalize number : (a.toNat - 0xC0) * 0x40 + (b.toNat - 0x80) = n
    simp only [encodeChar, toNat_ofNat_of_valid (n := n) (.inl (by omega)),
      if_neg (show ¬ n < 0x80 by omega), if_pos (show n < 0x800 by omega)]
    rw [same (show 0xC0 + n / 0x40 = a.toNat by omega),
      same (show 0x80 + n % 0x40 = b.toNat by omega)]
  | three a b c ha hb hc =>
    rw [isSecond_iff] at hb
    rw [isContinuation_iff] at hc
    generalize number : (a.toNat - 0xE0) * 0x1000 + (b.toNat - 0x80) * 0x40 + (c.toNat - 0x80) = n
    have valid : n.isValidChar := by
      simp only [Nat.isValidChar]
      omega
    simp only [encodeChar, toNat_ofNat_of_valid valid, if_neg (show ¬ n < 0x80 by omega),
      if_neg (show ¬ n < 0x800 by omega), if_pos (show n < 0x10000 by omega)]
    rw [same (show 0xE0 + n / 0x1000 = a.toNat by omega),
      same (show 0x80 + n / 0x40 % 0x40 = b.toNat by omega),
      same (show 0x80 + n % 0x40 = c.toNat by omega)]
  | four a b c d ha hb hc hd =>
    rw [isSecond_iff] at hb
    rw [isContinuation_iff] at hc hd
    generalize number : (a.toNat - 0xF0) * 0x40000 + (b.toNat - 0x80) * 0x1000
      + (c.toNat - 0x80) * 0x40 + (d.toNat - 0x80) = n
    have valid : n.isValidChar := .inr (by omega)
    simp only [encodeChar, toNat_ofNat_of_valid valid, if_neg (show ¬ n < 0x80 by omega),
      if_neg (show ¬ n < 0x800 by omega), if_neg (show ¬ n < 0x10000 by omega)]
    rw [same (show 0xF0 + n / 0x40000 = a.toNat by omega),
      same (show 0x80 + n / 0x1000 % 0x40 = b.toNat by omega),
      same (show 0x80 + n / 0x40 % 0x40 = c.toNat by omega),
      same (show 0x80 + n % 0x40 = d.toNat by omega)]

@[simp] theorem head_encodeChar (c : Char) (rest : Bytes) : head (encodeChar c ++ rest) = .char c rest := by
  rw [head_of_form (form_encodeChar c), Char.ofNat_toNat]

/-- Every character has a byte. -/
theorem exists_encodeChar_eq_cons (c : Char) : ∃ b more, encodeChar c = b :: more := by
  refine List.exists_cons_of_ne_nil fun empty => ?_
  have found := head_encodeChar c []
  rw [empty] at found
  cases found

theorem length_le_length_encode (text : List Char) : text.length ≤ (encode text).length := by
  induction text with
  | nil => exact Nat.le_refl 0
  | cons c text ih =>
    obtain ⟨b, more, spelled⟩ := exists_encodeChar_eq_cons c
    simp only [encode_cons, spelled, List.cons_append, List.length_cons, List.length_append]
    omega

theorem eq_encodeChar_of_head {bytes rest : Bytes} {c : Char} (h : head bytes = .char c rest) :
    bytes = encodeChar c ++ rest := by
  obtain ⟨n, form, spells, rfl, rfl⟩ := form_of_head h
  rw [encodeChar_of_form spells]

theorem eq_nil_of_head_eq_finished {bytes : Bytes} (h : head bytes = .finished) : bytes = [] := by
  unfold head at h
  repeat' split at h
  all_goals first | rfl | cases h

@[simp] theorem decodeFrom_encode (start : Nat) (text : List Char) :
    decodeFrom start (encode text) = .ok text := by
  induction text generalizing start with
  | nil => rw [encode_nil, decodeFrom]; rfl
  | cons c text ih =>
    have front : head (encode (c :: text)) = .char c (encode text) := head_encodeChar c _
    rw [decodeFrom]
    split <;> rename_i found <;> rw [front] at found
    · cases found
    · cases found
    · cases found
    · obtain ⟨rfl, rfl⟩ := Head.char.inj found
      rw [ih]

/-- A text is read back from its bytes. -/
@[simp] theorem decode_encode (text : List Char) : decode (encode text) = .ok text :=
  decodeFrom_encode 0 text

/-- Nothing in the bytes of a text has to be replaced. -/
@[simp] theorem decodeLossy_encode (text : List Char) : decodeLossy (encode text) = text := by
  induction text with
  | nil => rw [encode_nil, decodeLossy]; rfl
  | cons c text ih =>
    have front : head (encode (c :: text)) = .char c (encode text) := head_encodeChar c _
    rw [decodeLossy]
    split <;> rename_i found <;> rw [front] at found
    · cases found
    · cases found
    · cases found
    · obtain ⟨rfl, rfl⟩ := Head.char.inj found
      rw [ih]

theorem eq_encode_of_decodeFrom {start : Nat} {bytes : Bytes} {text : List Char}
    (h : decodeFrom start bytes = .ok text) : bytes = encode text := by
  induction text generalizing start bytes with
  | nil =>
    rw [decodeFrom] at h
    split at h
    · rename_i finished
      exact eq_nil_of_head_eq_finished finished
    · cases h
    · cases h
    · split at h <;> cases h
  | cons c text ih =>
    rw [decodeFrom] at h
    split at h
    · cases h
    · cases h
    · cases h
    · rename_i front
      split at h
      · cases h
      · rename_i more
        obtain ⟨rfl, rfl⟩ := List.cons.inj (Except.ok.inj h)
        rw [eq_encodeChar_of_head front, ih more]
        rfl

/-- The bytes of a text are the only ones that spell it. -/
theorem eq_encode_of_decode {bytes : Bytes} {text : List Char} (h : decode bytes = .ok text) :
    bytes = encode text :=
  eq_encode_of_decodeFrom h

theorem encode_inj {text text' : List Char} (h : encode text = encode text') : text = text' :=
  Except.ok.inj ((decode_encode text).symm.trans ((congrArg decode h).trans (decode_encode text')))

end LedgerClient.Utf8
