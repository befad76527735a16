import LedgerClient.Proofs.Json.Fields

/-!
# Objects that are written, and changes to objects

An object is written from its fields, where a field without a value is left out (`written`), and all
of them are found in it again (`fields?_written`). A reader of known fields does not see the order
of the members, members of other names, or null for a field that may be missing: after such a change
each known field still reads as it did (`sameKnown_of_change`).
-/

set_option autoImplicit false

namespace LedgerClient.Json

/-! ## Writing -/

/-- The members of an object with these fields. A field without a value is left out. -/
def written (fields : List (String × Option Json)) : List (String × Json) :=
  fields.filterMap fun field => field.2.map fun value => (field.1, value)

section Written

variable {α : Type} {fields : List (String × Option Json)}

@[simp] theorem written_nil : written [] = [] := rfl

@[simp] theorem written_cons_some (name : String) (value : Json) (fields : List (String × Option Json)) :
    written ((name, some value) :: fields) = (name, value) :: written fields := rfl

@[simp] theorem written_cons_map (name : String) (write : α → Json) (o : Option α)
    (fields : List (String × Option Json)) :
    written ((name, o.map write) :: fields) = present name write o ++ written fields := by
  cases o <;> rfl

theorem names_written (fields : List (String × Option Json)) :
    ((written fields).map Prod.fst).Sublist (fields.map Prod.fst) := by
  induction fields with
  | nil => exact .slnil
  | cons field fields ih =>
    obtain ⟨name, value⟩ := field
    cases value with
    | none => exact ih.cons name
    | some value => exact ih.cons_cons name

theorem distinct_written (distinct : (fields.map Prod.fst).Nodup) :
    View.Distinct (written fields) :=
  distinct.sublist (names_written fields)

/-- Each field is found as it was written. -/
theorem lookup_written (distinct : (fields.map Prod.fst).Nodup) :
    ∀ field ∈ fields, (written fields).lookup field.1 = field.2 := by
  induction fields with
  | nil => exact nofun
  | cons first fields ih =>
    obtain ⟨name, value⟩ := first
    obtain ⟨absent, distinct⟩ := List.nodup_cons.1 distinct
    have found := ih distinct
    refine List.forall_mem_cons.2 ⟨?_, fun field mem => ?_⟩
    · cases value with
      | none =>
        refine List.lookup_eq_none_iff.2 fun member mem => bne_iff_ne.2 ?_
        rintro rfl
        exact absent ((names_written fields).subset (List.mem_map_of_mem mem))
      | some value => exact List.lookup_cons_self
    · rw [← found field mem]
      cases value with
      | none => rfl
      | some value =>
        have other : field.1 ≠ name := fun same => by
          have := List.mem_map_of_mem (f := Prod.fst) mem
          exact absent (same ▸ this)
        rw [written_cons_some, List.lookup_cons, beq_false_of_ne other]

/-- The fields of an object are read as they were written. -/
theorem fields?_written (distinct : (fields.map Prod.fst).Nodup) :
    view.fields? (fields.map Prod.fst) (.object (written fields)) =
      some (fields.map Prod.snd) := by
  rw [View.fields?_eq_lookup lawful_view rfl (distinct_written distinct), List.map_map]
  exact congrArg some (List.map_congr_left (lookup_written distinct))

end Written

namespace View

variable {D α : Type} {v : View D} {members members' front back : List (String × D)}
  {name : String} {d d' : D} {fields : Known D}

/-- The items of an array are read as they were written. -/
theorem mapM_map {write : α → D} {read : D → Option α} (reads : ∀ a, read (write a) = some a)
    (values : List α) : (values.map write).mapM read = some values := by
  induction values with
  | nil => rfl
  | cons a values ih => rw [List.map_cons, List.mapM_cons, reads, ih]; rfl

/-- A field that may be missing is read as it was written. -/
theorem optional_map {write : α → D} {read : D → Option α} (reads : ∀ a, read (write a) = some a)
    (shown : ∀ a, v.isNull (write a) = false) (o : Option α) :
    v.optional read (o.map write) = some o := by
  cases o with
  | none => rfl
  | some a => rw [Option.map_some, optional, shown, reads]; rfl

/-! ## Changing -/

/-- The order of the members does not count. -/
theorem member?_perm (perm : members.Perm members') (name : String) :
    member? members name = member? members' name := by
  have found := perm.filter fun member => member.1 == name
  rw [member?, member?]
  generalize members.filter _ = some at found ⊢
  generalize members'.filter _ = some' at found ⊢
  rcases some with _ | ⟨first, _ | ⟨second, more⟩⟩
  · rw [found.nil_eq]
  · rw [found.singleton_eq]
  · rcases some' with _ | ⟨first', _ | ⟨second', more'⟩⟩
    · exact absurd found.eq_nil (List.cons_ne_nil _ _)
    · exact absurd (List.perm_singleton.1 found) (by simp)
    · rfl

/-- A name that is not there is not found. -/
theorem member?_of_absent (absent : name ∉ members.map Prod.fst) :
    member? members name = some none := by
  rw [member?, filter_name_of_absent absent]

/-- A name that is not there elsewhere is found where it stands. -/
theorem member?_of_absent_elsewhere (absent : name ∉ (front ++ back).map Prod.fst) (d : D) :
    member? (front ++ (name, d) :: back) name = some (some d) := by
  rw [member?_perm List.perm_middle]
  exact member?_cons_self absent

/-- A name that stands there is found, or stands twice, whatever the value under it. -/
theorem member?_self (front back : List (String × D)) (name : String) :
    (∀ d, member? (front ++ (name, d) :: back) name = some (some d)) ∨
      ∀ d, member? (front ++ (name, d) :: back) name = none := by
  have found : ∀ d, (front ++ (name, d) :: back).filter (fun member => member.1 == name) =
      front.filter (fun member => member.1 == name) ++
        (name, d) :: back.filter fun member => member.1 == name := by
    intro d
    rw [List.filter_append, List.filter_cons, if_pos (beq_self_eq_true name)]
  simp only [member?, found]
  rcases front.filter _ with _ | ⟨first, _ | ⟨second, before⟩⟩
  · rcases back.filter _ with _ | ⟨last, behind⟩
    · exact .inl fun _ => rfl
    · exact .inr fun _ => rfl
  · exact .inr fun _ => rfl
  · exact .inr fun _ => rfl

/-- A known field, which counts as what a reader makes of it. -/
abbrev reading {β : Type} (name : String) (read : Option D → β) :
    String × (Option D → Option D → Prop) :=
  (name, fun o o' => read o = read o')

theorem sameKnown_perm (refl : ∀ field ∈ fields, ∀ o, field.2 o o) (perm : members.Perm members') :
    SameKnown fields members members' := by
  intro field mem
  rw [member?_perm perm]
  exact rel_refl (refl field mem) _

/-- What stands under a name may be changed to what the field takes for the same. -/
theorem sameKnown_replace (refl : ∀ field ∈ fields, ∀ o, field.2 o o)
    (same : ∀ field ∈ fields, field.1 = name → field.2 (some d) (some d')) :
    SameKnown fields (front ++ (name, d) :: back) (front ++ (name, d') :: back) := by
  intro field mem
  by_cases under : field.1 = name
  · rw [under]
    rcases member?_self front back name with found | twice
    · rw [found, found]
      exact .some (same field mem under)
    · rw [twice, twice]
      exact .none
  · rw [member?_insert front back (Ne.symm under), member?_insert front back (Ne.symm under)]
    exact rel_refl (refl field mem) _

/-- A field that is missing may be given as what the field takes for the same. -/
theorem sameKnown_give (refl : ∀ field ∈ fields, ∀ o, field.2 o o)
    (absent : name ∉ (front ++ back).map Prod.fst)
    (same : ∀ field ∈ fields, field.1 = name → field.2 none (some d)) :
    SameKnown fields (front ++ back) (front ++ (name, d) :: back) := by
  intro field mem
  by_cases under : field.1 = name
  · rw [under, member?_of_absent absent, member?_of_absent_elsewhere absent]
    exact .some (same field mem under)
  · rw [member?_insert front back (Ne.symm under)]
    exact rel_refl (refl field mem) _

end View

/-- Objects with the same known fields are both not read, or read as fields that agree. -/
theorem fields?_agree {fields : View.Known Json} {names : List String}
    {members members' : List (String × Json)} (known : fields.map Prod.fst = names)
    (same : View.SameKnown fields members members') :
    (view.fields? names (.object members) = none ∧ view.fields? names (.object members') = none) ∨
      ∃ os os', view.fields? names (.object members) = some os ∧
        view.fields? names (.object members') = some os' ∧ View.Fieldwise fields os os' := by
  have both : Option.Rel (View.Fieldwise fields) (view.fields? (fields.map Prod.fst) (.object members))
      (view.fields? (fields.map Prod.fst) (.object members')) :=
    View.fields?_of_sameKnown lawful_view rfl rfl same
  rw [known] at both
  generalize view.fields? names (.object members) = found at both
  generalize view.fields? names (.object members') = found' at both
  cases both with
  | none => exact .inl ⟨rfl, rfl⟩
  | some agree => exact .inr ⟨_, _, rfl, rfl, agree⟩

/-- A change to the members of an object that says nothing to a reader of some names, who takes null
for missing under some of them. -/
inductive Change (names optional : List String) :
    List (String × Json) → List (String × Json) → Prop
  /-- The members in another order. -/
  | reorder {members members' : List (String × Json)} (perm : members.Perm members') :
    Change names optional members members'
  /-- One more member, of a name that is not among those that are read. -/
  | unknown (front back : List (String × Json)) {name : String} (value : Json)
    (other : name ∉ names) :
    Change names optional (front ++ back) (front ++ (name, value) :: back)
  /-- Null for a field that is not there. -/
  | null (front back : List (String × Json)) {name : String} (mem : name ∈ optional)
    (absent : name ∉ (front ++ back).map Prod.fst) :
    Change names optional (front ++ back) (front ++ (name, .null) :: back)

/-- After a change each known field reads as it did. -/
theorem sameKnown_of_change {fields : View.Known Json} {optional : List String}
    {members members' : List (String × Json)} (refl : ∀ field ∈ fields, ∀ o, field.2 o o)
    (null : ∀ field ∈ fields, field.1 ∈ optional → field.2 none (some .null))
    (change : Change (fields.map Prod.fst) optional members members') :
    View.SameKnown fields members members' := by
  cases change with
  | reorder perm => exact View.sameKnown_perm refl perm
  | unknown front back value other => exact View.sameKnown_insert refl front back other
  | null front back mem absent =>
    exact View.sameKnown_give refl absent fun field known under => null field known (under ▸ mem)

end LedgerClient.Json
