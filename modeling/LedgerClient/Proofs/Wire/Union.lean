import LedgerClient.Proofs.Wire.Lawful

/-!
# Alternatives

The list of alternatives that a union is made of has to sort the values: each value belongs to an
alternative, and to one only (`Sorts`). Then the form of a value is the place of its alternative and
the form of its content, and the union is lawful if the contents are.
-/

set_option autoImplicit false

namespace LedgerClient.Codec

variable {α : Type}

/-- Every value belongs to one of the alternatives and to no other in front of it, and is opened to
the content that it was built from. -/
structure Sorts (cases : List (Case α)) : Prop where
  few : CountFits cases.length
  covers : ∀ v, ∃ place : Nat, ∃ case : Case α, ∃ content,
    cases[place]? = some case ∧ v = case.build content
  opens : ∀ case ∈ cases, ∀ content, case.open? (case.build content) = some content
  apart : cases.Pairwise fun before case => ∀ content, before.open? (case.build content) = none

/-- A value is written by its own alternative, behind the place of that. -/
theorem pushCase_build {cases : List (Case α)} {case : Case α} {place : Nat}
    (opens : ∀ case ∈ cases, ∀ content, case.open? (case.build content) = some content)
    (apart : cases.Pairwise fun before case => ∀ content, before.open? (case.build content) = none)
    (found : cases[place]? = some case) (content : case.Content) (index : Nat) (buffer : Buffer) :
    pushCase index cases (case.build content) buffer =
      case.content.push content (number.push (index + place) buffer) := by
  induction cases generalizing case place index with
  | nil => cases found
  | cons first others ih =>
    obtain ⟨own, opens⟩ := List.forall_mem_cons.1 opens
    obtain ⟨before, apart⟩ := List.pairwise_cons.1 apart
    cases place with
    | zero =>
      obtain rfl := Option.some.inj found
      simp only [pushCase, own content, Nat.add_zero]
    | succ place =>
      have later : others[place]? = some case := found
      have own := before case (List.mem_of_getElem? later) content
      simp only [pushCase, own]
      rw [ih opens apart later content (index + 1), Nat.add_right_comm, Nat.add_assoc]

section Union

variable {cases : List (Case α)} {typeName : String} {Fits : α → Prop} {case : Case α} {place : Nat}

theorem Sorts.push_build (sorts : Sorts cases) (found : cases[place]? = some case)
    (content : case.Content) (buffer : Buffer) :
    (union typeName cases).push (case.build content) buffer =
      case.content.push content (number.push place buffer) :=
  (pushCase_build sorts.opens sorts.apart found content 0 buffer).trans (by rw [Nat.zero_add])

theorem Sorts.appends_build (sorts : Sorts cases) (found : cases[place]? = some case)
    (content : case.Content) (appends : case.content.Appends) :
    Buffer.Appends ((union typeName cases).push (case.build content)) := by
  rw [funext (sorts.push_build found content)]
  exact (appends_number place).comp (appends content)

/-- The form of a value: the place of its alternative, and the form of its content. -/
theorem Sorts.write_build (sorts : Sorts cases) (found : cases[place]? = some case)
    (content : case.Content) (appends : case.content.Appends) :
    (union typeName cases).write (case.build content) =
      Uleb128.encode place ++ case.content.write content := by
  rw [write, funext (sorts.push_build found content),
    Buffer.contents_comp (appends_number place) (appends content), ← write, ← write, write_number]

/-- A value is as unambiguous as its content is in its alternative. -/
theorem Sorts.unambiguous_build (sorts : Sorts cases)
    (appends : ∀ case ∈ cases, case.content.Appends) (found : cases[place]? = some case)
    {content : case.Content} (h : case.content.Unambiguous content) :
    (union typeName cases).Unambiguous (case.build content) := by
  intro w s t same
  obtain ⟨place', case', content', found', rfl⟩ := sorts.covers w
  rw [sorts.write_build found content (appends case (List.mem_of_getElem? found)),
    sorts.write_build found' content' (appends case' (List.mem_of_getElem? found')),
    List.append_assoc, List.append_assoc] at same
  obtain ⟨rfl, more⟩ := Uleb128.encode_append_inj same
  obtain rfl := Option.some.inj (found.symm.trans found')
  obtain ⟨rfl, tails⟩ := h _ _ _ more
  exact ⟨rfl, tails⟩

/-- A union is lawful if it sorts the values and the contents of its alternatives are lawful. -/
theorem Lawful.union (sorts : Sorts cases)
    (contents : ∀ case ∈ cases, case.content.Lawful fun content => Fits (case.build content)) :
    (union typeName cases).Lawful Fits where
  appends v := by
    obtain ⟨place, case, content, found, rfl⟩ := sorts.covers v
    exact sorts.appends_build found content (contents case (List.mem_of_getElem? found)).appends
  read_write {v} fits rest := by
    obtain ⟨place, case, content, found, rfl⟩ := sorts.covers v
    have lawful := contents case (List.mem_of_getElem? found)
    have few : CountFits place := Nat.lt_trans (List.getElem?_eq_some_iff.1 found).1 sorts.few
    have step := Reader.andThen_of_ok (f := fun content => .ok (case.build content))
      (lawful.read_write fits rest)
    rw [sorts.write_build found content lawful.appends, List.append_assoc]
    refine (Reader.andThen_of_ok (Uleb128.read_encode few _)).trans ?_
    simp only [found]
    exact step
  eq_write_of_read {unread v rest} read := by
    obtain ⟨place, mid, index, chosen⟩ := Reader.andThen_eq_ok.1 read
    obtain ⟨rfl, -⟩ := Uleb128.eq_encode_of_read index
    rcases found : cases[place]? with _ | case
    · simp only [found] at chosen
      exact (Reader.not_fail_eq_ok chosen).elim
    · simp only [found] at chosen
      obtain ⟨content, mid', inner, value⟩ := Reader.andThen_eq_ok.1 chosen
      obtain ⟨rfl, rfl⟩ := Reader.ok_inj value
      have lawful := contents case (List.mem_of_getElem? found)
      obtain ⟨rfl, fits⟩ := lawful.eq_write_of_read inner
      rw [sorts.write_build found content lawful.appends, List.append_assoc]
      exact ⟨rfl, fits⟩
  unambiguous v := by
    obtain ⟨place, case, content, found, rfl⟩ := sorts.covers v
    have lawful := contents case (List.mem_of_getElem? found)
    exact sorts.unambiguous_build (fun case mem => (contents case mem).appends) found
      (lawful.unambiguous content)
  steady := .andThen Uleb128.steady_read fun place => by
    split
    · rename_i case found
      exact .andThen (contents case (List.mem_of_getElem? found)).steady fun content => .ok _
    · exact .fail _

/-- One alternative sorts the values that are all of it. -/
theorem Sorts.only (covers : ∀ v, ∃ content, v = case.build content)
    (opens : ∀ content, case.open? (case.build content) = some content) : Sorts [case] where
  few := (by decide : CountFits 1)
  covers v := by
    obtain ⟨content, equal⟩ := covers v
    exact ⟨0, case, content, rfl, equal⟩
  opens := List.forall_mem_singleton.2 opens
  apart := List.pairwise_singleton _ _

/-- A type with one alternative so far. -/
theorem Lawful.only (covers : ∀ v, ∃ content, v = case.build content)
    (opens : ∀ content, case.open? (case.build content) = some content)
    (h : case.content.Lawful fun content => Fits (case.build content)) :
    (Codec.union typeName [case]).Lawful Fits :=
  .union (.only covers opens) (List.forall_mem_singleton.2 h)

end Union

end LedgerClient.Codec
