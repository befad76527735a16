import LedgerClient.Proofs.Rpc.Precedence
import LedgerClient.Proofs.Text.Utf8

/-!
# How a call ends

A reply is a status and a body. `Delivery.Judged` gives the rules by which it ends the call, and
`reply_ends_by_first_rule` says that the code follows them, that fields of unknown names do not count,
and that a tracker moves only to a state which it accepts and which comes with a result.
-/

set_option autoImplicit false

namespace LedgerClient

open Json (View)

namespace Delivery

variable {status : Nat} {body body' : Bytes} {a : Answer (Option Record)}

/-- The status of an error. -/
def Failed (status : Nat) : Prop := 400 ≤ status ∧ status < 600

/-- The JSON that the body is a text of. -/
def json? (body : Bytes) : Option Json.Within :=
  Json.Within.ofText? (String.ofList (Utf8.decodeLossy body))

/-- The object that the body is a text of. -/
def members? (body : Bytes) : Option (List (String × Json.Within)) :=
  (json? body).bind Json.Within.view.members?

/-- The body is no array, and no name stands twice in its object or in the error there. -/
structure Clear (body : Bytes) : Prop where
  noArray : ∀ {d}, json? body = some d → Json.Within.view.items? d = none
  object : ∀ {members}, members? body = some members → Envelope.Clear Json.Within.view members

/-- How a reply ends the call: by the first rule that applies. -/
inductive Judged (status : Nat) (body : Bytes) : Answer (Option Record) → Prop
  | http (failed : Failed status) : Judged status body (.error (.http (some status)))
  | noObject (fine : ¬ Failed status) (other : members? body = none) :
    Judged status body (.error .malformed)
  | object {members : List (String × Json.Within)} {a : Answer (Option Record)}
    (fine : ¬ Failed status) (is : members? body = some members)
    (judged : Envelope.Judged Json.Within.view members a) : Judged status body a

theorem isErrorStatus_iff : isErrorStatus status = true ↔ Failed status := by
  simp [isErrorStatus, Failed]

theorem answer_of_failed {α : Type} {decode : Json → Option α} (failed : Failed status) :
    (answered status body).answer decode = .error (.http (some status)) := by
  rw [answer, if_pos (isErrorStatus_iff.2 failed)]

theorem answer_of_fine (fine : ¬ Failed status) :
    (answered status body).answer Record.ofResult? =
      Envelope.outcome ((json? body).bind (Envelope.read Json.Within.view)) := by
  rw [answer, if_neg fun failed => fine (isErrorStatus_iff.1 failed), Envelope.ofText?, ← json?]
  cases (json? body).bind (Envelope.read Json.Within.view) <;> rfl

theorem answer_of_noObject (clear : Clear body) (fine : ¬ Failed status)
    (other : members? body = none) :
    (answered status body).answer Record.ofResult? = .error .malformed := by
  rw [answer_of_fine fine]
  cases is : json? body with
  | none => rfl
  | some d =>
    rw [members?, is, Option.bind_some] at other
    rw [Option.bind_some, Envelope.read_eq_none_of_other (clear.noArray is) other]
    rfl

theorem answer_of_object {members : List (String × Json.Within)} (fine : ¬ Failed status)
    (is : members? body = some members) :
    ∃ d, Json.Within.view.members? d = some members ∧
      (answered status body).answer Record.ofResult? =
        Envelope.outcome (Envelope.read Json.Within.view d) := by
  obtain ⟨d, json, is⟩ := Option.bind_eq_some_iff.1 is
  exact ⟨d, is, by rw [answer_of_fine fine, json, Option.bind_some]⟩

theorem answer_eq_iff (clear : Clear body) :
    (answered status body).answer Record.ofResult? = a ↔ Judged status body a := by
  by_cases failed : Failed status
  · rw [answer_of_failed failed]
    constructor
    · rintro rfl
      exact .http failed
    · intro judged
      cases judged with
      | http _ => rfl
      | noObject fine _ => exact absurd failed fine
      | object fine _ _ => exact absurd failed fine
  · cases is : members? body with
    | none =>
      rw [answer_of_noObject clear failed is]
      constructor
      · rintro rfl
        exact .noObject failed is
      · intro judged
        cases judged with
        | http failed' => exact absurd failed' failed
        | noObject _ _ => rfl
        | object _ is' _ => simp [is] at is'
    | some members =>
      obtain ⟨d, shown, answered⟩ := answer_of_object failed is
      rw [answered, Envelope.outcome_iff Json.Within.lawful_view shown (clear.object is)]
      constructor
      · exact .object failed is
      · intro judged
        cases judged with
        | http failed' => exact absurd failed' failed
        | noObject _ other => simp [is] at other
        | object _ is' judged =>
          cases Option.some.inj (is.symm.trans is')
          exact judged

/-- Bodies with the same known fields end a call alike. -/
theorem answer_congr {members members' : List (String × Json.Within)}
    (is : members? body = some members) (is' : members? body' = some members')
    (same : View.SameKnown (Envelope.known Json.Within.view) members members') :
    (answered status body).answer Record.ofResult? =
      (answered status body').answer Record.ofResult? := by
  by_cases failed : Failed status
  · rw [answer_of_failed failed, answer_of_failed failed]
  · obtain ⟨d, shown, answered⟩ := answer_of_object failed is
    obtain ⟨d', shown', answered'⟩ := answer_of_object failed is'
    rw [answered, answered']
    exact Envelope.outcome_congr (Envelope.read_rel Json.Within.lawful_view shown shown' same)

end Delivery

/-- The tracker stays where it is, or a result comes with a state that it accepts. -/
theorem Tracker.receive_stays_or_accepts {α : Type} (t : Tracker) (answer : Answer α) :
    (t.receive answer).2 = t ∨ ∃ response, answer = .ok response ∧
      t.Accepts response.chainId response.state ∧
        t.receive answer = (.ok response.result, { t with last := response.state }) := by
  cases answer with
  | error cause => exact .inl rfl
  | ok response =>
    rcases t.foreign_or_outdated_or_accepts response.chainId response.state with
      foreign | outdated | accepts
    · exact .inl (by rw [receive_foreign foreign])
    · exact .inl (by rw [receive_outdated outdated])
    · exact .inr ⟨response, rfl, accepts, receive_accepted accepts⟩

namespace Delivery

/-- The status of an error ends a call whatever the body is, and any other reply ends it by the first
rule that applies. Bodies with the same known fields end it alike. A tracker moves only if there is
a result, and then to a state that it accepts. -/
theorem reply_ends_by_first_rule :
    (∀ status body, Failed status →
      (answered status body).answer Record.ofResult? = .error (.http (some status))) ∧
    (∀ status body, Clear body → ∀ a,
      (answered status body).answer Record.ofResult? = a ↔ Judged status body a) ∧
    (∀ status body body' members members', members? body = some members →
      members? body' = some members' →
      View.SameKnown (Envelope.known Json.Within.view) members members' →
      (answered status body).answer Record.ofResult? =
        (answered status body').answer Record.ofResult?) ∧
    (∀ (t : Tracker) (delivery : Delivery),
      (t.receive (delivery.answer Record.ofResult?)).2 ≠ t →
      ∃ response, delivery.answer Record.ofResult? = .ok response ∧
        t.Accepts response.chainId response.state ∧
        t.receive (delivery.answer Record.ofResult?) =
          (.ok response.result, { t with last := response.state })) := by
  refine ⟨fun status body failed => answer_of_failed failed,
    fun status body clear a => answer_eq_iff clear,
    fun status body body' members members' is is' same => answer_congr is is' same,
    fun t delivery moved => ?_⟩
  exact (t.receive_stays_or_accepts _).resolve_left moved

namespace Sample

theorem json?_encode (text : String) :
    json? (Utf8.encode text.toList) = Json.Within.ofText? text := by
  simp [json?]

/-- A reply that says where the ledger stands and nothing else. -/
def bare : Bytes :=
  Utf8.encode (String.toList
    "\x7b\"diem_chain_id\":2,\"diem_ledger_version\":5,\"diem_ledger_timestampusec\":5\x7d")

/-- The same with a field of another name. -/
def labelled : Bytes :=
  Utf8.encode (String.toList
    ("\x7b\"jsonrpc\":\"2.0\",\"diem_chain_id\":2,"
      ++ "\"diem_ledger_version\":5,\"diem_ledger_timestampusec\":5\x7d"))

/-- A reply with an error, a result that is no record, and nothing about the ledger. -/
def refusal : Bytes :=
  Utf8.encode (String.toList
    "\x7b\"result\":7,\"error\":\x7b\"message\":\"Invalid params\",\"code\":-32602\x7d\x7d")

/-- A reply with a record. -/
def carrying : Bytes :=
  Utf8.encode (String.toList
    ("\x7b\"result\":\x7b\"version\":5,\"hash\":\"AB\",\"gas_used\":0,"
      ++ "\"vm_status\":\x7b\"type\":\"executed\"\x7d\x7d,\"diem_chain_id\":2,"
      ++ "\"diem_ledger_version\":5,\"diem_ledger_timestampusec\":5\x7d"))

/-- The fields of the reply without a label. -/
def standing : List (String × Json.Within) :=
  [("diem_chain_id", ⟨126, .number ⟨false, [2], [], none⟩⟩),
   ("diem_ledger_version", ⟨126, .number ⟨false, [5], [], none⟩⟩),
   ("diem_ledger_timestampusec", ⟨126, .number ⟨false, [5], [], none⟩⟩)]

/-- The field of another name. -/
def label : String × Json.Within := ("jsonrpc", ⟨126, .string (some "2.0")⟩)

/-- The error of the reply with an error. -/
def fault : Json.Within :=
  ⟨126, .object [(some "message", .string (some "Invalid params")),
    (some "code", .number ⟨true, [3, 2, 6, 0, 2], [], none⟩)]⟩

/-- The fields of the reply with an error. -/
def refusing : List (String × Json.Within) :=
  [("result", ⟨126, .number ⟨false, [7], [], none⟩⟩), ("error", fault)]

/-- The result of the reply with a record. -/
def result : Json.Within :=
  ⟨126, .object [(some "version", .number ⟨false, [5], [], none⟩),
    (some "hash", .string (some "AB")), (some "gas_used", .number ⟨false, [0], [], none⟩),
    (some "vm_status", .object [(some "type", .string (some "executed"))])]⟩

/-- The record there. Its body and its events are left out. -/
def record : Record :=
  { version := 5, hash := "AB", gasUsed := 0, status := .ofKind "executed", body := .empty,
    events := [] }

/-- An object of these fields. -/
def object (members : List (String × Json.Within)) : Json.Within :=
  ⟨127, .object (members.map fun member => (some member.1, member.2.tree))⟩

section Texts

open Json.Grammar

-- The texts are read by following the grammar, character by character.
attribute [local simp] Json.Within.ofText? Json.maxNesting document? value members skipBlanks
  isBlank string parts characters? number unsigned whole fraction exponent someDigits digits
  digitValue object

theorem json?_bare : json? bare = some (object standing) := by
  rw [bare, json?_encode]
  simp [standing]

theorem json?_labelled : json? labelled = some (object (label :: standing)) := by
  rw [labelled, json?_encode]
  simp [label, standing]

theorem json?_refusal : json? refusal = some (object refusing) := by
  rw [refusal, json?_encode]
  simp [refusing, fault]

theorem json?_carrying : json? carrying = some (object (("result", result) :: standing)) := by
  rw [carrying, json?_encode]
  simp [result, standing]

end Texts

theorem members?_refusal : members? refusal = some refusing := by
  rw [members?, json?_refusal]
  rfl

theorem members?_bare : members? bare = some standing := by
  rw [members?, json?_bare]
  rfl

theorem members?_labelled : members? labelled = some (label :: standing) := by
  rw [members?, json?_labelled]
  rfl

theorem members?_carrying : members? carrying = some (("result", result) :: standing) := by
  rw [members?, json?_carrying]
  rfl

/-- Without an error only the names in the object itself can stand twice. -/
theorem clear_of_noError {body : Bytes} {members : List (String × Json.Within)}
    (json : json? body = some (object members)) (is : members? body = some members)
    (distinct : View.Distinct members) (noError : members.lookup "error" = none) : Clear body where
  noArray is := by
    cases json.symm.trans is
    rfl
  object is' := by
    cases is.symm.trans is'
    refine ⟨distinct, fun found => ?_⟩
    cases noError.symm.trans found

theorem clear_bare : Clear bare :=
  clear_of_noError json?_bare members?_bare (by simp [View.Distinct, standing]) rfl

theorem clear_carrying : Clear carrying :=
  clear_of_noError json?_carrying members?_carrying (by simp [View.Distinct, standing]) rfl

theorem clear_refusal : Clear refusal where
  noArray is := by
    cases json?_refusal.symm.trans is
    rfl
  object is := by
    cases members?_refusal.symm.trans is
    have error : refusing.lookup "error" = some fault := rfl
    refine ⟨by simp [View.Distinct, refusing], fun found members is => ?_⟩
    cases error.symm.trans found
    cases is
    simp [View.Distinct]

theorem stands_bare : Envelope.Stands Json.Within.view standing 2 ⟨5, 5⟩ where
  chainId := ⟨_, rfl, rfl⟩
  version := ⟨_, rfl, rfl⟩
  timestamp := ⟨_, rfl, rfl⟩

theorem judged_bare : Judged 200 bare (.ok { result := none, chainId := 2, state := ⟨5, 5⟩ }) := by
  have noError : Json.Within.view.shown? standing "error" = none := rfl
  have noResult : Json.Within.view.shown? standing "result" = none := rfl
  have typed : ¬ Envelope.IllTyped Json.Within.view standing :=
    Envelope.typed_of_stands noError stands_bare (View.not_spoils_of_hidden noResult)
  exact .object (by simp [Failed]) members?_bare (.absent typed noError stands_bare noResult)

theorem judged_carrying :
    Judged 200 carrying (.ok { result := some record, chainId := 2, state := ⟨5, 5⟩ }) := by
  have noError : Json.Within.view.shown? (("result", result) :: standing) "error" = none := rfl
  have stands : Envelope.Stands Json.Within.view (("result", result) :: standing) 2 ⟨5, 5⟩ :=
    ⟨⟨_, rfl, rfl⟩, ⟨_, rfl, rfl⟩, ⟨_, rfl, rfl⟩⟩
  have found : Json.Within.view.Holds Json.Within.view.value?
      (("result", result) :: standing) "result" (.object
        [("version", .nat 5), ("hash", .string "AB"), ("gas_used", .nat 0),
          ("vm_status", .object [("type", .string "executed")])]) :=
    ⟨result, rfl, rfl⟩
  have typed := Envelope.typed_of_stands noError stands (View.not_spoils_of_holds found)
  exact .object (by simp [Failed]) members?_carrying (.found typed noError stands found rfl)

theorem judged_refusal : Judged 200 refusal (.error (.server (-32602) "Invalid params")) := by
  have error : Json.Within.view.shown? refusing "error" = some fault := rfl
  have spelled : ServerError.Spelled Json.Within.view fault ⟨-32602, "Invalid params"⟩ :=
    ⟨_, _, rfl, rfl, .inr ⟨_, rfl, rfl, rfl⟩⟩
  have result : Json.Within.view.Holds Json.Within.view.value? refusing "result" (.nat 7) :=
    ⟨_, rfl, rfl⟩
  have typed : ¬ Envelope.IllTyped Json.Within.view refusing := by
    rintro (ill | ⟨d, shown, ill⟩ | ill | ill | ill)
    · exact View.not_spoils_of_holds result ill
    · cases error.symm.trans shown
      exact ill _ spelled
    · exact View.not_spoils_of_hidden rfl ill
    · exact View.not_spoils_of_hidden rfl ill
    · exact View.not_spoils_of_hidden rfl ill
  exact .object (by simp [Failed]) members?_refusal (.server typed error spelled)

theorem sameKnown_labelled :
    View.SameKnown (Envelope.known Json.Within.view) standing (label :: standing) :=
  View.sameKnown_insert (Envelope.known_refl _) [] standing (by decide)

end Sample

/-- An error comes before a bad result and missing ledger fields. The reply that there is no
transaction moves a tracker of its chain; a field of another name does not change it, and under the
status of an error it is no answer. The reply with a record moves the tracker as well, and the record
is handed out. -/
theorem bare_reply_moves_the_tracker :
    (Clear Sample.refusal ∧ (answered 200 Sample.refusal).answer Record.ofResult? =
      .error (.server (-32602) "Invalid params")) ∧
    (answered 503 Sample.bare).answer Record.ofResult? = .error (.http (some 503)) ∧
    (Clear Sample.bare ∧ (answered 200 Sample.bare).answer Record.ofResult? =
      .ok { result := none, chainId := 2, state := ⟨5, 5⟩ }) ∧
    (answered 200 Sample.labelled).answer Record.ofResult? =
      .ok { result := none, chainId := 2, state := ⟨5, 5⟩ } ∧
    ((Tracker.start 2).receive ((answered 200 Sample.bare).answer Record.ofResult?)).2 =
      { chainId := 2, last := ⟨5, 5⟩ } ∧
    (Clear Sample.carrying ∧ (answered 200 Sample.carrying).answer Record.ofResult? =
      .ok { result := some Sample.record, chainId := 2, state := ⟨5, 5⟩ }) ∧
    (Tracker.start 2).receive ((answered 200 Sample.carrying).answer Record.ofResult?) =
      (.ok (some Sample.record), { chainId := 2, last := ⟨5, 5⟩ }) := by
  obtain ⟨failed, judged, unknown, moves⟩ := reply_ends_by_first_rule
  have refused := (judged 200 Sample.refusal Sample.clear_refusal _).2 Sample.judged_refusal
  have answer := (judged 200 Sample.bare Sample.clear_bare _).2 Sample.judged_bare
  have same := unknown 200 Sample.bare Sample.labelled _ _ Sample.members?_bare
    Sample.members?_labelled Sample.sameKnown_labelled
  have found := (judged 200 Sample.carrying Sample.clear_carrying _).2 Sample.judged_carrying
  have accepts : (Tracker.start 2).Accepts 2 ⟨5, 5⟩ := ⟨rfl, by decide, by decide⟩
  have moved (result : Option Record) : ((Tracker.start 2).receive
      (.ok { result, chainId := 2, state := ⟨5, 5⟩ })).2 ≠ Tracker.start 2 := by
    rw [Tracker.receive_accepted accepts]
    simp [Tracker.start, LedgerState.zero]
  obtain ⟨response, is, -, received⟩ :=
    moves (.start 2) (answered 200 Sample.bare) (answer ▸ moved none)
  cases answer.symm.trans is
  obtain ⟨response, is, -, received'⟩ :=
    moves (.start 2) (answered 200 Sample.carrying) (found ▸ moved (some Sample.record))
  cases found.symm.trans is
  exact ⟨⟨Sample.clear_refusal, refused⟩, failed 503 Sample.bare ⟨by decide, by decide⟩,
    ⟨Sample.clear_bare, answer⟩, same.symm.trans answer, congrArg Prod.snd received,
    ⟨Sample.clear_carrying, found⟩, received'⟩

end Delivery

end LedgerClient
