import LedgerClient.Proofs.Octets.TextForm
import LedgerClient.TypeTag.Basic

/-!
# The text of a type tells the type

The text of a struct type can begin like that of another one, and the separators between the
parameters of a struct also occur within them. What keeps texts apart are the words. A name, the
digits of an address and the name of a primitive type are runs of letters, digits and underscores,
and no such character stands behind a word in a text. So a text with anything behind it that may stand
behind the text of a type is read in one way (`readable`), by induction on the type.
-/

set_option autoImplicit false

namespace LedgerClient

namespace Identifier

/-! ## Words -/

/-- Nothing behind a word belongs to it. -/
def WordEnds (rest : List Char) : Prop := ∀ c ∈ rest.head?, isBody c = false

theorem takeWhile_append {word rest : List Char} (body : ∀ c ∈ word, isBody c = true)
    (ends : WordEnds rest) : (word ++ rest).takeWhile isBody = word := by
  have none : rest.takeWhile isBody = [] := by
    cases rest with
    | nil => rfl
    | cons c more => rw [List.takeWhile_cons, ends c rfl, if_neg Bool.false_ne_true]
  rw [List.takeWhile_append_of_pos body, none, List.append_nil]

/-- A word in front of a text is told from what stands behind it. -/
theorem word_append_inj {word word' rest rest' : List Char} (body : ∀ c ∈ word, isBody c = true)
    (body' : ∀ c ∈ word', isBody c = true) (ends : WordEnds rest) (ends' : WordEnds rest')
    (same : word ++ rest = word' ++ rest') : word = word' ∧ rest = rest' := by
  have words := congrArg (List.takeWhile isBody) same
  rw [takeWhile_append body ends, takeWhile_append body' ends'] at words
  subst words
  exact ⟨rfl, List.append_cancel_left same⟩

theorem isBody_of_mem_text (name : Identifier) : ∀ c ∈ name.text.toList, isBody c = true := by
  have valid := name.valid
  revert valid
  cases name.text.toList with
  | nil => exact fun _ => nofun
  | cons first others =>
    intro valid
    obtain ⟨start, body⟩ := Bool.and_eq_true_iff.1 valid
    refine List.forall_mem_cons.2 ⟨?_, List.all_eq_true.1 body⟩
    rcases Bool.or_eq_true_iff.1 start with letter | underscore
    · exact Bool.or_eq_true_iff.2 (.inl (Bool.or_eq_true_iff.2 (.inl letter)))
    · exact Bool.or_eq_true_iff.2 (.inr (Bool.and_eq_true_iff.1 underscore).1)

theorem text_inj {name other : Identifier} (same : name.text.toList = other.text.toList) :
    name = other := by
  obtain ⟨text, valid⟩ := name
  obtain ⟨text', valid'⟩ := other
  obtain rfl : text = text' := String.toList_inj.1 same
  rfl

end Identifier

theorem Hex.isBody_of_mem_encodeChars (bytes : Bytes) :
    ∀ c ∈ encodeChars bytes, Identifier.isBody c = true := by
  have digits : ∀ n : Fin 16, Identifier.isBody (digit n) = true := by decide
  induction bytes with
  | nil => nofun
  | cons b bytes ih =>
    have bound := b.toNat_lt
    rw [encodeChars]
    refine List.forall_mem_cons.2 ⟨?_, List.forall_mem_cons.2 ⟨?_, ih⟩⟩
    · exact digits ⟨b.toNat / 16, by omega⟩
    · exact digits ⟨b.toNat % 16, by omega⟩

namespace TypeTag

open Identifier (WordEnds word_append_inj isBody_of_mem_text)

/-! ## The parts of a text -/

/-- The word that the text of a type begins with. -/
def word : TypeTag → List Char
  | vector _ => ['v', 'e', 'c', 't', 'o', 'r']
  | struct addr _ _ _ => '0' :: 'x' :: addr.hex.toList
  | primitive => primitive.text.toList

/-- The texts of several types, each behind a comma and a blank. -/
def followers (tags : List TypeTag) : List Char :=
  tags.flatMap fun tag => ',' :: ' ' :: tag.text.toList

/-- The parameters of a struct type, in brackets if there are any. -/
def bracketed : List TypeTag → List Char
  | [] => []
  | tag :: more => '<' :: (tag.text.toList ++ (followers more ++ ['>']))

/-- What stands behind the first word of the text of a type. -/
def behind : TypeTag → List Char
  | vector element => '<' :: (element.text.toList ++ ['>'])
  | struct _ moduleName name params =>
    ':' :: ':' :: (moduleName.text.toList ++ ':' :: ':' :: (name.text.toList ++ bracketed params))
  | _ => []

theorem toList_intercalate (tag : TypeTag) (more : List TypeTag) :
    (", ".intercalate (texts (tag :: more))).toList = tag.text.toList ++ followers more := by
  induction more generalizing tag with
  | nil => simp [texts, followers]
  | cons next more ih =>
    rw [texts, texts, String.intercalate_cons_cons, String.toList_append, ← texts, ih]
    simp [followers]

theorem toList_params (params : List TypeTag) :
    (if (texts params).isEmpty then "" else "<" ++ ", ".intercalate (texts params) ++ ">").toList =
      bracketed params := by
  cases params with
  | nil => rfl
  | cons tag more =>
    have some : ¬ (texts (tag :: more)).isEmpty = true := Bool.false_ne_true
    rw [if_neg some, String.toList_append, String.toList_append, toList_intercalate]
    simp [bracketed]

theorem toList_text (tag : TypeTag) : tag.text.toList = tag.word ++ tag.behind := by
  cases tag with
  | vector element => simp [text, word, behind]
  | struct addr moduleName name params =>
    rw [text, StructTag.assemble, String.toList_append, toList_params]
    simp [word, behind]
  | _ => rfl

theorem isBody_of_mem_word (tag : TypeTag) : ∀ c ∈ tag.word, Identifier.isBody c = true := by
  cases tag with
  | vector element => simp [word, Identifier.isBody]
  | struct addr moduleName name params =>
    have digits := Hex.isBody_of_mem_encodeChars addr.toList
    simp only [word, Octets.toList_hex]
    exact List.forall_mem_cons.2 ⟨rfl, List.forall_mem_cons.2 ⟨rfl, digits⟩⟩
  | _ => exact List.all_eq_true.1 rfl

/-- The same primitive type, or two vectors, or two struct types at one address. -/
def Similar : TypeTag → TypeTag → Prop
  | vector _, vector _ => True
  | struct addr _ _ _, struct addr' _ _ _ => addr = addr'
  | tag, other => tag = other

theorem similar_of_word_eq {tag other : TypeTag} (same : tag.word = other.word) :
    tag.Similar other := by
  -- The words are compared for each two alternatives; those of two structs tell their addresses.
  cases tag <;> cases other <;>
    simp_all [word, Similar, text]

/-! ## Reading from the front -/

/-- What may stand behind the text of a type: nothing, or what ends a parameter. -/
def Ends (rest : List Char) : Prop := ∀ c ∈ rest.head?, c = ',' ∨ c = '>'

theorem Ends.wordEnds {rest : List Char} (ends : Ends rest) : WordEnds rest := by
  intro c first
  rcases ends c first with rfl | rfl
  · rfl
  · rfl

theorem ends_cons {c : Char} (separator : c = ',' ∨ c = '>') (rest : List Char) :
    Ends (c :: rest) := by
  intro first same
  rwa [← Option.some.inj same]

theorem wordEnds_bracketed (params : List TypeTag) {rest : List Char} (ends : Ends rest) :
    WordEnds (bracketed params ++ rest) := by
  cases params with
  | nil => exact ends.wordEnds
  | cons tag more =>
    intro c first
    rw [← Option.some.inj first]
    rfl

theorem wordEnds_behind (tag : TypeTag) {rest : List Char} (ends : Ends rest) :
    WordEnds (tag.behind ++ rest) := by
  cases tag with
  | vector element =>
    intro c first
    rw [← Option.some.inj first]
    rfl
  | struct addr moduleName name params =>
    intro c first
    rw [← Option.some.inj first]
    rfl
  | _ => exact ends.wordEnds

/-- No other type has a text that is, with what stands behind it, the text of this type with what
stands behind that. -/
def Readable (tag : TypeTag) : Prop :=
  ∀ other rest rest', Ends rest → Ends rest' →
    tag.text.toList ++ rest = other.text.toList ++ rest' → tag = other ∧ rest = rest'

/-- It is enough to compare what stands behind the same word. -/
theorem readable_of_behind {tag : TypeTag}
    (h : ∀ other rest rest', tag.Similar other → Ends rest → Ends rest' →
      tag.behind ++ rest = other.behind ++ rest' → tag = other ∧ rest = rest') : Readable tag := by
  intro other rest rest' ends ends' same
  rw [toList_text, toList_text, List.append_assoc, List.append_assoc] at same
  obtain ⟨words, parts⟩ := word_append_inj (isBody_of_mem_word tag) (isBody_of_mem_word other)
    (wordEnds_behind tag ends) (wordEnds_behind other ends') same
  exact h other rest rest' (similar_of_word_eq words) ends ends' parts

theorem ends_followers (tags : List TypeTag) (rest : List Char) :
    Ends (followers tags ++ '>' :: rest) := by
  cases tags with
  | nil => exact ends_cons (.inr rfl) rest
  | cons tag more => exact ends_cons (.inl rfl) _

/-- The parameters behind the first one are told apart one by one. -/
theorem followers_append_inj {tags others : List TypeTag} {rest rest' : List Char}
    (h : ∀ tag ∈ tags, Readable tag)
    (same : followers tags ++ '>' :: rest = followers others ++ '>' :: rest') :
    tags = others ∧ rest = rest' := by
  induction tags generalizing others with
  | nil =>
    cases others with
    | nil => exact ⟨rfl, (List.cons.inj same).2⟩
    | cons other others => exact absurd (List.cons.inj same).1 (by decide)
  | cons tag tags ih =>
    cases others with
    | nil => exact absurd (List.cons.inj same).1 (by decide)
    | cons other others =>
      obtain ⟨first, more⟩ := List.forall_mem_cons.1 h
      simp only [followers, List.flatMap_cons, List.cons_append, List.append_assoc, List.cons.injEq,
        true_and] at same
      obtain ⟨rfl, behind⟩ := first other _ _ (ends_followers tags rest)
        (ends_followers others rest') same
      obtain ⟨rfl, rests⟩ := ih more behind
      exact ⟨rfl, rests⟩

theorem bracketed_append_inj {params params' : List TypeTag} {rest rest' : List Char}
    (h : ∀ tag ∈ params, Readable tag) (ends : Ends rest) (ends' : Ends rest')
    (same : bracketed params ++ rest = bracketed params' ++ rest') :
    params = params' ∧ rest = rest' := by
  -- A bracket cannot stand behind a struct type without parameters.
  have noBracket : ∀ {rest more : List Char}, Ends rest → rest ≠ '<' :: more := by
    rintro _ more ends rfl
    rcases ends '<' rfl with comma | closing
    · exact absurd comma (by decide)
    · exact absurd closing (by decide)
  cases params with
  | nil =>
    cases params' with
    | nil => exact ⟨rfl, same⟩
    | cons tag more => exact absurd same (noBracket ends)
  | cons tag more =>
    cases params' with
    | nil => exact absurd same.symm (noBracket ends')
    | cons tag' more' =>
      obtain ⟨first, others⟩ := List.forall_mem_cons.1 h
      simp only [bracketed, List.cons_append, List.append_assoc, List.cons.injEq, true_and,
        List.nil_append] at same
      obtain ⟨rfl, behind⟩ := first tag' _ _ (ends_followers more rest)
        (ends_followers more' rest') same
      obtain ⟨rfl, rests⟩ := followers_append_inj others behind
      exact ⟨rfl, rests⟩

theorem readable_vector {element : TypeTag} (h : Readable element) : Readable (vector element) := by
  refine readable_of_behind fun other rest rest' similar ends ends' same => ?_
  cases other with
  | vector element' =>
    simp only [behind, List.cons_append, List.append_assoc, List.cons.injEq, true_and,
      List.nil_append] at same
    obtain ⟨rfl, closing⟩ := h element' _ _ (ends_cons (.inr rfl) rest) (ends_cons (.inr rfl) rest')
      same
    exact ⟨rfl, (List.cons.inj closing).2⟩
  | _ => exact nomatch similar

theorem readable_struct {addr : Address} {moduleName name : Identifier} {params : List TypeTag}
    (h : ∀ tag ∈ params, Readable tag) : Readable (struct addr moduleName name params) := by
  refine readable_of_behind fun other rest rest' similar ends ends' same => ?_
  cases other with
  | struct addr' moduleName' name' params' =>
    obtain rfl : addr = addr' := similar
    have colon : ∀ more : List Char, WordEnds (':' :: more) := by
      intro more c first
      rw [← Option.some.inj first]
      rfl
    simp only [behind, List.cons_append, List.append_assoc, List.cons.injEq, true_and] at same
    obtain ⟨modules, same⟩ := word_append_inj (isBody_of_mem_text moduleName)
      (isBody_of_mem_text moduleName') (colon _) (colon _) same
    simp only [List.cons.injEq, true_and] at same
    obtain ⟨names, same⟩ := word_append_inj (isBody_of_mem_text name) (isBody_of_mem_text name')
      (wordEnds_bracketed params ends) (wordEnds_bracketed params' ends') same
    obtain ⟨rfl, rests⟩ := bracketed_append_inj h ends ends' same
    rw [Identifier.text_inj modules, Identifier.text_inj names]
    exact ⟨rfl, rests⟩
  | _ => exact nomatch similar

/-- A primitive type is told by its word alone. -/
theorem readable_of_similar {tag : TypeTag} (only : ∀ other, tag.Similar other → tag = other) :
    Readable tag := by
  refine readable_of_behind fun other rest rest' similar ends ends' same => ?_
  obtain rfl := only other similar
  exact ⟨rfl, List.append_cancel_left same⟩

mutual

/-- The text of a type shows where it ends and which type it is of. -/
theorem readable : (tag : TypeTag) → Readable tag
  | vector element => readable_vector (readable element)
  | struct _ _ _ params => readable_struct (readable_each params)
  | bool => readable_of_similar fun _ => id
  | u8 => readable_of_similar fun _ => id
  | u64 => readable_of_similar fun _ => id
  | u128 => readable_of_similar fun _ => id
  | address => readable_of_similar fun _ => id
  | signer => readable_of_similar fun _ => id

theorem readable_each : (tags : List TypeTag) → ∀ tag ∈ tags, Readable tag
  | [] => nofun
  | tag :: rest => List.forall_mem_cons.2 ⟨readable tag, readable_each rest⟩

end

theorem text_inj {tag other : TypeTag} (same : tag.text = other.text) : tag = other := by
  have nothing : Ends [] := nofun
  exact (readable tag other [] [] nothing nothing (by rw [same])).1

end TypeTag

theorem TypeTag.ofStruct_inj {s other : StructTag} (same : ofStruct s = ofStruct other) :
    s = other := by
  obtain ⟨addr, moduleName, name, params⟩ := s
  obtain ⟨rfl, rfl, rfl, rfl⟩ := TypeTag.struct.inj same
  rfl

/-- The text of a struct type is that of the type that it is. -/
theorem StructTag.text_eq (s : StructTag) : s.text = (TypeTag.ofStruct s).text := by
  rw [StructTag.text, TypeTag.ofStruct, TypeTag.text]

/-- Types have the same text only if they are the same type, however deep they are nested, and so have
struct types. -/
theorem text_tells_type :
    (∀ tag other : TypeTag, tag.text = other.text ↔ tag = other) ∧
      ∀ s other : StructTag, s.text = other.text ↔ s = other := by
  refine ⟨fun tag other => ⟨TypeTag.text_inj, congrArg TypeTag.text⟩,
    fun s other => ⟨fun same => ?_, congrArg StructTag.text⟩⟩
  rw [StructTag.text_eq, StructTag.text_eq] at same
  exact TypeTag.ofStruct_inj (TypeTag.text_inj same)

end LedgerClient
