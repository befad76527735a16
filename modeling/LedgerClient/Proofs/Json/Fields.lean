import LedgerClient.Json.View

/-!
# The fields of a record in JSON

A record is read from the members of its known names, so that two objects with the same known
members are read alike, whatever else they hold and in whatever order (`fields?_of_sameKnown`).
Where the names are distinct a field is simply looked up (`fields?_eq_lookup`), and a field that may
be missing or null is absent, is read, or spoils the whole.
-/

set_option autoImplicit false

namespace LedgerClient.Json

namespace View

variable {D α : Type}

/-- A view that tells objects, arrays and null apart. -/
structure Lawful (v : View D) : Prop where
  items?_of_members : ∀ {d members}, v.members? d = some members → v.items? d = none
  isNull_of_members : ∀ {d members}, v.members? d = some members → v.isNull d = false
  value?_eq_null_iff : ∀ {d}, v.value? d = some .null ↔ v.isNull d = true

end View

theorem lawful_view : view.Lawful where
  items?_of_members {d members} h := by
    cases d with
    | object found => rfl
    | _ => cases h
  isNull_of_members {d members} h := by
    cases d with
    | object found => rfl
    | _ => cases h
  value?_eq_null_iff {d} := by
    cases d with
    | null => exact iff_of_true rfl rfl
    | _ => exact iff_of_false nofun nofun

/-- Only the word for null has the value null. -/
theorem Document.value?_eq_null_iff {levels : Nat} {tree : Document} :
    tree.value? levels = some .null ↔ tree = .null := by
  cases tree with
  | null => simp [Document.value?]
  | bool value => simp [Document.value?]
  | number literal => simp [Document.value?]
  | string value => simp [Document.value?]
  | array items => cases levels <;> simp [Document.value?]
  | object found => cases levels <;> simp [Document.value?]

theorem Within.isNull_iff {d : Within} : Within.view.isNull d = true ↔ d.tree = .null := by
  obtain ⟨levels, tree⟩ := d
  cases tree with
  | null => exact iff_of_true rfl rfl
  | _ => exact iff_of_false nofun nofun

theorem Within.lawful_view : Within.view.Lawful where
  items?_of_members {d members} h := by
    obtain ⟨levels, tree⟩ := d
    cases tree with
    | object found => cases levels <;> rfl
    | _ => cases levels <;> cases h
  isNull_of_members {d members} h := by
    obtain ⟨levels, tree⟩ := d
    cases tree with
    | object found => rfl
    | _ => cases levels <;> cases h
  value?_eq_null_iff := Document.value?_eq_null_iff.trans Within.isNull_iff.symm

namespace View

variable {D α : Type} {v : View D} {members members' : List (String × D)} {d d' : D}
  {name other : String} {names : List String} {read : D → Option α}

/-! ## Looking a field up -/

/-- No name stands twice. -/
def Distinct (members : List (String × D)) : Prop := (members.map Prod.fst).Nodup

/-- A member of another name does not count, wherever it stands. -/
theorem member?_insert (front back : List (String × D)) (ne : other ≠ name) :
    member? (front ++ (other, d) :: back) name = member? (front ++ back) name := by
  have passed : ¬ (other == name) = true := fun same => ne (eq_of_beq same)
  have filtered : (front ++ (other, d) :: back).filter (fun member => member.1 == name) =
      (front ++ back).filter fun member => member.1 == name := by
    rw [List.filter_append, List.filter_append, List.filter_cons, if_neg passed]
  rw [member?, filtered, member?]

theorem filter_name_of_absent (absent : name ∉ members.map Prod.fst) :
    members.filter (fun member => member.1 == name) = [] := by
  refine List.filter_eq_nil_iff.2 fun member mem same => absent ?_
  rw [← eq_of_beq same]
  exact List.mem_map_of_mem mem

theorem member?_cons_self (absent : name ∉ members.map Prod.fst) :
    member? ((name, d) :: members) name = some (some d) := by
  have found : ((name, d) :: members).filter (fun member => member.1 == name) = [(name, d)] := by
    rw [List.filter_cons, if_pos (beq_self_eq_true name), filter_name_of_absent absent]
  rw [member?, found]

theorem member?_eq_lookup (distinct : Distinct members) (name : String) :
    member? members name = some (members.lookup name) := by
  induction members with
  | nil => rfl
  | cons member rest ih =>
    obtain ⟨other, d⟩ := member
    obtain ⟨absent, distinct⟩ := List.nodup_cons.1 distinct
    by_cases same : other = name
    · subst same
      rw [member?_cons_self absent, List.lookup_cons_self]
    · have passed : (name == other) = false := beq_false_of_ne (Ne.symm same)
      have first : member? ((other, d) :: rest) name = member? rest name :=
        member?_insert [] rest same
      rw [first, ih distinct, List.lookup_cons, passed]

theorem fields?_of_members (lawful : v.Lawful) (is : v.members? d = some members)
    (names : List String) : v.fields? names d = names.mapM (member? members) := by
  simp only [fields?, lawful.items?_of_members is, is]

theorem fields?_eq_lookup (lawful : v.Lawful) (is : v.members? d = some members)
    (distinct : Distinct members) (names : List String) :
    v.fields? names d = some (names.map fun name => members.lookup name) := by
  have found : member? members = fun name => pure (members.lookup name) :=
    funext (member?_eq_lookup distinct)
  rw [fields?_of_members lawful is, found, List.mapM_pure]
  rfl

/-! ## Fields that may be missing or null -/

/-- The value of a field, unless it is missing or null. -/
def shown? (v : View D) (members : List (String × D)) (name : String) : Option D :=
  (members.lookup name).filter fun d => !v.isNull d

theorem lookup_of_shown? (shown : v.shown? members name = some d) : members.lookup name = some d :=
  (Option.filter_eq_some_iff.1 shown).1

/-- The field has this value. -/
def Holds (v : View D) (read : D → Option α) (members : List (String × D)) (name : String) (a : α) :
    Prop :=
  ∃ d, v.shown? members name = some d ∧ read d = some a

/-- The field is there and is no such value. -/
def Spoils (v : View D) (read : D → Option α) (members : List (String × D)) (name : String) :
    Prop :=
  ∃ d, v.shown? members name = some d ∧ read d = none

theorem optional_lookup (v : View D) (read : D → Option α) (members : List (String × D))
    (name : String) :
    v.optional read (members.lookup name) =
      (v.shown? members name).elim (some none) fun d => (read d).map some := by
  unfold shown?
  cases members.lookup name with
  | none => rfl
  | some d =>
    cases null : v.isNull d with
    | true => simp [optional, Option.filter, null]
    | false => simp [optional, Option.filter, null]

theorem optional_eq_absent_iff :
    v.optional read (members.lookup name) = some none ↔ v.shown? members name = none := by
  rw [optional_lookup]
  cases v.shown? members name with
  | none => exact iff_of_true rfl rfl
  | some d => simp

theorem optional_eq_some_iff {a : α} :
    v.optional read (members.lookup name) = some (some a) ↔ v.Holds read members name a := by
  rw [optional_lookup, Holds]
  cases v.shown? members name with
  | none => simp
  | some d => simp

theorem optional_eq_none_iff :
    v.optional read (members.lookup name) = none ↔ v.Spoils read members name := by
  rw [optional_lookup, Spoils]
  cases v.shown? members name with
  | none => simp
  | some d => simp

/-- What is shown and does not spoil the object has its value. -/
theorem exists_holds (shown : v.shown? members name ≠ none)
    (fine : ¬ v.Spoils read members name) : ∃ a, v.Holds read members name a := by
  obtain ⟨d, shown⟩ := Option.ne_none_iff_exists'.1 shown
  obtain ⟨a, reads⟩ := Option.ne_none_iff_exists'.1 fun none => fine ⟨d, shown, none⟩
  exact ⟨a, d, shown, reads⟩

theorem not_spoils_of_holds {a : α} (holds : v.Holds read members name a) :
    ¬ v.Spoils read members name := by
  rw [← optional_eq_none_iff, optional_eq_some_iff.2 holds]
  exact nofun

theorem not_spoils_of_hidden (hidden : v.shown? members name = none) :
    ¬ v.Spoils read members name := by
  rw [← optional_eq_none_iff, optional_eq_absent_iff.2 hidden]
  exact nofun

theorem isNone_of_optional {o : Option α}
    (reads : v.optional read (members.lookup name) = some o) :
    o.isNone = (v.shown? members name).isNone := by
  cases o with
  | none =>
    rw [optional_eq_absent_iff.1 reads]
    rfl
  | some a =>
    obtain ⟨d, shown, -⟩ := optional_eq_some_iff.1 reads
    rw [shown]
    rfl

/-- The value of a field that is shown is not null. -/
theorem ne_null_of_holds (lawful : v.Lawful) {j : Json} (holds : v.Holds v.value? members name j) :
    j ≠ .null := by
  rintro rfl
  obtain ⟨d, shown, value⟩ := holds
  have null := lawful.value?_eq_null_iff.1 value
  have notNull := (Option.filter_eq_some_iff.1 shown).2
  simp [null] at notNull

/-! ## Objects with the same known fields -/

theorem rel_refl {R : D → D → Prop} (refl : ∀ d, R d d) (o : Option D) : Option.Rel R o o := by
  cases o with
  | none => exact .none
  | some d => exact .some (refl d)

/-- The names of known fields, each with what two findings under it have to have in common. -/
abbrev Known (D : Type) := List (String × (Option D → Option D → Prop))

/-- Each known field stands twice in both objects, or the findings in both have in common what they
have to. Members of other names and the order do not count. -/
def SameKnown (fields : Known D) (members members' : List (String × D)) : Prop :=
  ∀ field ∈ fields, Option.Rel field.2 (member? members field.1) (member? members' field.1)

/-- A member of a name that is not known may stand anywhere. -/
theorem sameKnown_insert {fields : Known D} (refl : ∀ field ∈ fields, ∀ o, field.2 o o)
    (front back : List (String × D)) (unknown : other ∉ fields.map Prod.fst) :
    SameKnown fields (front ++ back) (front ++ (other, d) :: back) := by
  intro field mem
  have ne : other ≠ field.1 := fun same => unknown (same ▸ List.mem_map_of_mem mem)
  rw [member?_insert front back ne]
  cases member? (front ++ back) field.1 with
  | none => exact .none
  | some o => exact .some (refl field mem o)

/-- The same piece of JSON, or two objects with the same known fields. -/
def Alike (v : View D) (fields : Known D) (d d' : D) : Prop :=
  d = d' ∨ ∃ members members', v.members? d = some members ∧ v.members? d' = some members' ∧
    SameKnown fields members members'

/-- Fields whose values have to be equal. -/
def plain (names : List String) : Known D :=
  names.map fun name => (name, Eq)

@[simp] theorem map_fst_plain (names : List String) : (plain names : Known D).map Prod.fst = names := by
  rw [plain, List.map_map]
  exact List.map_id names

/-- The values of known fields, one by one. -/
inductive Fieldwise : Known D → List (Option D) → List (Option D) → Prop
  | nil : Fieldwise [] [] []
  | cons {name : String} {R : Option D → Option D → Prop} {fields : Known D} {o o' : Option D}
    {os os' : List (Option D)} (first : R o o') (others : Fieldwise fields os os') :
    Fieldwise ((name, R) :: fields) (o :: os) (o' :: os')

theorem Fieldwise.eq_of_plain {os os' : List (Option D)} (same : Fieldwise (plain names) os os') :
    os = os' := by
  induction names generalizing os os' with
  | nil =>
    cases same
    rfl
  | cons name names ih =>
    cases same with
    | cons first others => rw [first, ih others]

/-- The induction is on the known fields; the first that stands twice ends both readings. -/
theorem mapM_member?_of_sameKnown {fields : Known D}
    (same : SameKnown fields members members') :
    Option.Rel (Fieldwise fields) ((fields.map Prod.fst).mapM (member? members))
      ((fields.map Prod.fst).mapM (member? members')) := by
  induction fields with
  | nil => exact .some .nil
  | cons field fields ih =>
    obtain ⟨name, R⟩ := field
    obtain ⟨first, others⟩ := List.forall_mem_cons.1 same
    have rest := ih others
    rw [List.map_cons, List.mapM_cons, List.mapM_cons]
    revert first rest
    cases member? members name with
    | none =>
      intro first rest
      generalize member? members' name = found' at first
      cases first
      exact .none
    | some o =>
      intro first rest
      generalize member? members' name = found' at first
      generalize (fields.map Prod.fst).mapM (member? members) = more at rest
      generalize (fields.map Prod.fst).mapM (member? members') = more' at rest
      cases first with
      | some values =>
        cases rest with
        | none => exact .none
        | some rest => exact .some (.cons values rest)

theorem fields?_of_sameKnown (lawful : v.Lawful) {fields : Known D}
    (is : v.members? d = some members) (is' : v.members? d' = some members')
    (same : SameKnown fields members members') :
    Option.Rel (Fieldwise fields) (v.fields? (fields.map Prod.fst) d)
      (v.fields? (fields.map Prod.fst) d') := by
  rw [fields?_of_members lawful is, fields?_of_members lawful is']
  exact mapM_member?_of_sameKnown same

/-- Objects whose known fields are equal have the same fields for the reader. -/
theorem fields?_congr (lawful : v.Lawful) (alike : v.Alike (plain names) d d') :
    v.fields? names d = v.fields? names d' := by
  rcases alike with rfl | ⟨members, members', is, is', same⟩
  · rfl
  · have fields := fields?_of_sameKnown lawful is is' same
    rw [map_fst_plain] at fields
    generalize v.fields? names d = found at fields
    generalize v.fields? names d' = found' at fields
    cases fields with
    | none => rfl
    | some fields => rw [fields.eq_of_plain]

/-! ## Values that are read in the same way -/

section Congr

variable {R : D → D → Prop} {o o' : Option D}

theorem required_congr (alike : Option.Rel R o o') (congr : ∀ {d d'}, R d d' → read d = read d') :
    required read o = required read o' := by
  cases alike with
  | none => rfl
  | some alike => exact congr alike

theorem defaulted_congr {value : α} (alike : Option.Rel R o o')
    (congr : ∀ {d d'}, R d d' → read d = read d') : defaulted value read o = defaulted value read o' := by
  cases alike with
  | none => rfl
  | some alike => exact congr alike

theorem optional_congr (alike : Option.Rel R o o')
    (isNull : ∀ {d d'}, R d d' → v.isNull d = v.isNull d')
    (congr : ∀ {d d'}, R d d' → read d = read d') :
    v.optional read o = v.optional read o' := by
  cases alike with
  | none => rfl
  | some alike => rw [optional, optional, isNull alike, congr alike]

theorem Alike.isNull_eq {fields : Known D} (lawful : v.Lawful)
    (alike : v.Alike fields d d') : v.isNull d = v.isNull d' := by
  rcases alike with rfl | ⟨members, members', is, is', -⟩
  · rfl
  · rw [lawful.isNull_of_members is, lawful.isNull_of_members is']

end Congr

end View

end LedgerClient.Json
