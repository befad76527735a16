import LedgerClient.Proofs.Record.Fields
import LedgerClient.Rpc.Envelope

/-!
# What an envelope shows

The object of an answer is an envelope unless a known field is ill typed, and then each field of the
envelope is what the object shows under its name (`read_eq_some_iff`, `read_eq_none_iff`). Two objects
with the same known fields are the same envelope but for what does not count in its result
(`read_rel`), and are answered alike.
-/

set_option autoImplicit false

namespace LedgerClient

open Json (View)

variable {D : Type} {v : View D} {members members' : List (String × D)} {d d' : D}

namespace Record

variable {j j' : Json}

theorem ofResult?_of_ne_null (ne : j ≠ .null) : ofResult? j = (ofJson? j).map some := by
  cases j with
  | null => exact absurd rfl ne
  | _ => rfl

theorem ofResult?_congr (alike : Alike Json.view j j') : ofResult? j = ofResult? j' := by
  by_cases null : j = .null
  · rw [null, alike.eq_null_iff.1 null]
  · have null' : j' ≠ .null := fun null' => null (alike.eq_null_iff.2 null')
    rw [ofResult?_of_ne_null null, ofResult?_of_ne_null null', ofJson?_congr alike]

end Record

namespace ServerError

variable {e : ServerError}

/-- What spells the error of a node: an object with a code and a message, or an array of the two. -/
def Spelled (v : View D) (d : D) (e : ServerError) : Prop :=
  ∃ code message, v.i64? code = some e.code ∧ v.string? message = some e.message ∧
    (v.items? d = some [code, message] ∨
      ∃ members, v.members? d = some members ∧
        members.lookup "code" = some code ∧ members.lookup "message" = some message)

/-- No name stands twice in the piece of JSON, if it is an object. -/
def Clear (v : View D) (d : D) : Prop :=
  ∀ members, v.members? d = some members → View.Distinct members

/-- Both fields have to be found, and to read. -/
theorem read_eq_some_iff_found :
    read v d = some e ↔ ∃ code message, v.i64? code = some e.code ∧
      v.string? message = some e.message ∧
        v.fields? ["code", "message"] d = some [some code, some message] := by
  constructor
  · intro h
    unfold read at h
    split at h
    · next code message found =>
      cases code with
      | none => cases h
      | some code =>
        cases message with
        | none => cases hc : v.i64? code <;> simp [View.required, hc] at h
        | some message =>
          simp only [View.required, Option.bind_eq_bind, Option.bind_eq_some_iff] at h
          obtain ⟨c, hc, m, hm, ⟨⟩⟩ := h
          exact ⟨code, message, hc, hm, found⟩
    · cases h
  · rintro ⟨code, message, hc, hm, found⟩
    simp only [read, found, View.required, hc, hm]
    rfl

theorem read_eq_some_iff (lawful : v.Lawful) (clear : Clear v d) :
    read v d = some e ↔ Spelled v d e := by
  rw [read_eq_some_iff_found, Spelled]
  refine exists₂_congr fun code message => and_congr_right fun _ => and_congr_right fun _ => ?_
  cases is : v.members? d with
  | some members =>
    rw [View.fields?_eq_lookup lawful is (clear members is), lawful.items?_of_members is]
    simp
  | none =>
    cases listed : v.items? d with
    | none => simp [View.fields?, listed, is]
    | some items =>
      have found : v.fields? ["code", "message"] d = some [some code, some message] ↔
          items = [code, message] := by
        simp only [View.fields?, listed]
        -- Two items fill both fields; fewer leave one missing, and more are refused.
        rcases items with _ | ⟨first, _ | ⟨second, _ | ⟨third, rest⟩⟩⟩ <;> simp
      simp [found]

theorem read_eq_none_iff (lawful : v.Lawful) (clear : Clear v d) :
    read v d = none ↔ ∀ e, ¬ Spelled v d e := by
  rw [Option.eq_none_iff_forall_ne_some]
  exact forall_congr' fun e => not_congr (read_eq_some_iff lawful clear)

theorem read_congr (lawful : v.Lawful) (alike : v.Alike (View.plain ["code", "message"]) d d') :
    read v d = read v d' := by
  rw [read, read, View.fields?_congr lawful alike]

end ServerError

namespace Envelope

variable {e : Envelope}

/-- No name stands twice in the object or in its error. -/
structure Clear (v : View D) (members : List (String × D)) : Prop where
  distinct : View.Distinct members
  error : ∀ {d}, members.lookup "error" = some d → ServerError.Clear v d

/-- A known field of the object is there and is not what it has to be. -/
def IllTyped (v : View D) (members : List (String × D)) : Prop :=
  v.Spoils v.value? members "result" ∨
    (∃ d, v.shown? members "error" = some d ∧ ∀ e, ¬ ServerError.Spelled v d e) ∨
    v.Spoils v.u8? members LedgerField.chainId.name ∨
    v.Spoils v.u64? members LedgerField.version.name ∨
    v.Spoils v.u64? members LedgerField.timestamp.name

/-- Each field of the envelope is what the object shows under its name. -/
structure Shows (v : View D) (members : List (String × D)) (e : Envelope) : Prop where
  result : v.optional v.value? (members.lookup "result") = some e.result
  error : v.optional (ServerError.read v) (members.lookup "error") = some e.error
  chainId : v.optional v.u8? (members.lookup LedgerField.chainId.name) = some e.chainId
  version : v.optional v.u64? (members.lookup LedgerField.version.name) = some e.version
  timestamp : v.optional v.u64? (members.lookup LedgerField.timestamp.name) = some e.timestamp

theorem read_of_members (lawful : v.Lawful) (is : v.members? d = some members)
    (distinct : View.Distinct members) :
    read v d = do
      let result ← v.optional v.value? (members.lookup "result")
      let error ← v.optional (ServerError.read v) (members.lookup "error")
      let chainId ← v.optional v.u8? (members.lookup LedgerField.chainId.name)
      let version ← v.optional v.u64? (members.lookup LedgerField.version.name)
      let timestamp ← v.optional v.u64? (members.lookup LedgerField.timestamp.name)
      return { result, error, chainId, version, timestamp } := by
  rw [read, View.fields?_eq_lookup lawful is distinct]
  rfl

theorem read_eq_some_iff (lawful : v.Lawful) (is : v.members? d = some members)
    (distinct : View.Distinct members) : read v d = some e ↔ Shows v members e := by
  simp only [read_of_members lawful is distinct, Option.bind_eq_bind, Option.bind_eq_some_iff]
  constructor
  · rintro ⟨result, hr, error, he, chainId, hc, version, hv, timestamp, ht, ⟨⟩⟩
    exact ⟨hr, he, hc, hv, ht⟩
  · rintro ⟨hr, he, hc, hv, ht⟩
    exact ⟨_, hr, _, he, _, hc, _, hv, _, ht, rfl⟩

/-- What is no object and no array is no envelope. -/
theorem read_eq_none_of_other (noItems : v.items? d = none) (noMembers : v.members? d = none) :
    read v d = none := by
  simp only [read, View.fields?, noItems, noMembers]

theorem spoils_error_iff (lawful : v.Lawful) (clear : Clear v members) :
    v.Spoils (ServerError.read v) members "error" ↔
      ∃ d, v.shown? members "error" = some d ∧ ∀ e, ¬ ServerError.Spelled v d e :=
  exists_congr fun _ => and_congr_right fun shown =>
    ServerError.read_eq_none_iff lawful (clear.error (View.lookup_of_shown? shown))

theorem read_eq_none_iff (lawful : v.Lawful) (is : v.members? d = some members)
    (clear : Clear v members) : read v d = none ↔ IllTyped v members := by
  rw [read_of_members lawful is clear.distinct, IllTyped, ← spoils_error_iff lawful clear]
  simp only [← View.optional_eq_none_iff]
  cases v.optional v.value? (members.lookup "result") with
  | none => simp
  | some result =>
    cases v.optional (ServerError.read v) (members.lookup "error") with
    | none => simp
    | some error =>
      cases v.optional v.u8? (members.lookup LedgerField.chainId.name) with
      | none => simp
      | some chainId =>
        cases v.optional v.u64? (members.lookup LedgerField.version.name) with
        | none => simp
        | some version =>
          cases v.optional v.u64? (members.lookup LedgerField.timestamp.name) with
          | none => simp
          | some timestamp => simp

/-! ## Fields that do not count -/

/-- The known fields of an envelope, and what two of them have to have in common under each: of a
result what counts in a record, of an error its code and its message. -/
def known (v : View D) : View.Known D :=
  [("result", Option.Rel fun d d' =>
      Option.Rel (Record.Alike Json.view) (v.value? d) (v.value? d')),
   ("error", Option.Rel (v.Alike (View.plain ["code", "message"]))),
   (LedgerField.chainId.name, Eq), (LedgerField.version.name, Eq),
   (LedgerField.timestamp.name, Eq)]

theorem map_fst_known (v : View D) : (known v).map Prod.fst = fieldNames := rfl

theorem known_refl (v : View D) : ∀ field ∈ known v, ∀ o, field.2 o o := by
  intro field mem o
  simp only [known, List.mem_cons, List.not_mem_nil, or_false] at mem
  rcases mem with rfl | rfl | rfl | rfl | rfl
  · exact View.rel_refl (fun d => View.rel_refl (fun _ => .inl rfl) (v.value? d)) o
  · exact View.rel_refl (fun _ => .inl rfl) o
  · rfl
  · rfl
  · rfl

/-- The same envelope, but for what does not count in the result. -/
def Alike (e e' : Envelope) : Prop :=
  ∃ result', e' = { e with result := result' } ∧
    Option.Rel (Record.Alike Json.view) e.result result'

/-- Values that are alike are null together. -/
theorem isNull_eq_of_alike (lawful : v.Lawful)
    (alike : Option.Rel (Record.Alike Json.view) (v.value? d) (v.value? d')) :
    v.isNull d = v.isNull d' := by
  rw [Bool.eq_iff_iff, ← lawful.value?_eq_null_iff, ← lawful.value?_eq_null_iff]
  generalize v.value? d = value at alike
  generalize v.value? d' = value' at alike
  cases alike with
  | none => rfl
  | some alike => rw [Option.some_inj, Option.some_inj, alike.eq_null_iff]

theorem result_rel (lawful : v.Lawful) {o o' : Option D}
    (alike : Option.Rel (fun d d' =>
      Option.Rel (Record.Alike Json.view) (v.value? d) (v.value? d')) o o') :
    Option.Rel (Option.Rel (Record.Alike Json.view)) (v.optional v.value? o)
      (v.optional v.value? o') := by
  cases alike with
  | none => exact .some .none
  | @some d d' alike =>
    rw [View.optional, View.optional, isNull_eq_of_alike lawful alike]
    cases v.isNull d' with
    | true => exact .some .none
    | false =>
      simp only [Bool.false_eq_true, if_false]
      generalize v.value? d = value at alike
      generalize v.value? d' = value' at alike
      cases alike with
      | none => exact .none
      | some alike => exact .some (.some alike)

theorem read_rel (lawful : v.Lawful) (is : v.members? d = some members)
    (is' : v.members? d' = some members') (same : View.SameKnown (known v) members members') :
    Option.Rel Alike (read v d) (read v d') := by
  have fields := View.fields?_of_sameKnown lawful is is' same
  rw [map_fst_known] at fields
  rw [read, read]
  generalize v.fields? fieldNames d = found at fields
  generalize v.fields? fieldNames d' = found' at fields
  cases fields with
  | none => exact .none
  | some fields =>
    -- Only the results and the errors can differ; the errors are read alike.
    obtain ⟨⟩ | ⟨result, fields⟩ := fields
    obtain ⟨⟩ | ⟨error, fields⟩ := fields
    obtain ⟨⟩ | @⟨_, _, _, chainId, _, _, _, rfl, fields⟩ := fields
    obtain ⟨⟩ | @⟨_, _, _, version, _, _, _, rfl, fields⟩ := fields
    obtain ⟨⟩ | @⟨_, _, _, timestamp, _, _, _, rfl, fields⟩ := fields
    cases fields
    simp only [View.optional_congr error (View.Alike.isNull_eq lawful)
      (ServerError.read_congr lawful)]
    have results := result_rel lawful result
    generalize v.optional v.value? _ = result at results
    generalize v.optional v.value? _ = result' at results
    cases results with
    | none => exact .none
    | some results =>
      cases v.optional (ServerError.read v) _ with
      | none => exact .none
      | some error =>
        cases v.optional v.u8? chainId with
        | none => exact .none
        | some chainId =>
          cases v.optional v.u64? version with
          | none => exact .none
          | some version =>
            cases v.optional v.u64? timestamp with
            | none => exact .none
            | some timestamp => exact .some ⟨_, rfl, results⟩

theorem answer_congr {e' : Envelope} (alike : Alike e e') :
    e.answer Record.ofResult? = e'.answer Record.ofResult? := by
  obtain ⟨result', rfl, results⟩ := alike
  have decoded : Record.ofResult? (e.result.getD .null) = Record.ofResult? (result'.getD .null) := by
    generalize e.result = result at results
    cases results with
    | none => rfl
    | some results => exact Record.ofResult?_congr results
  simp only [answer, decoded]

end Envelope

end LedgerClient
