import LedgerClient.Proofs.Ledger.Acceptance
import LedgerClient.Proofs.Rpc.Envelope

/-!
# Which fault of an answer counts

An answer can have several faults at once, and the first rule that applies decides: the status, the
form of the envelope, an error of the node, a missing ledger field in their order, and at last a
result that is no record. `Envelope.Judged` and `Delivery.Judged` state the rules on the fields that
an object shows. Some rule always applies (`exists_judged`), and the answer is as that rule says
(`outcome_of_judged`), so that the rules exclude each other.
-/

set_option autoImplicit false

namespace LedgerClient

open Json (View)

/-- The fields that say where the ledger stands, in the order in which they are missed. -/
def LedgerField.inOrder : List LedgerField := [chainId, version, timestamp]

namespace Envelope

variable {D : Type} {v : View D} {members : List (String × D)} {d : D} {e : Envelope}
  {a : Answer (Option Record)}

/-- The first field of the ledger that the object does not show. -/
def firstMissing (v : View D) (members : List (String × D)) : Option LedgerField :=
  LedgerField.inOrder.find? fun field => (v.shown? members field.name).isNone

/-- The object shows a chain and a state of the ledger. -/
structure Stands (v : View D) (members : List (String × D)) (chainId : UInt8)
    (state : LedgerState) : Prop where
  chainId : v.Holds v.u8? members LedgerField.chainId.name chainId
  version : v.Holds v.u64? members LedgerField.version.name state.version
  timestamp : v.Holds v.u64? members LedgerField.timestamp.name state.timestamp

/-- How an object is answered: by the first rule that applies. -/
inductive Judged (v : View D) (members : List (String × D)) : Answer (Option Record) → Prop
  | illTyped (ill : IllTyped v members) : Judged v members (.error .malformed)
  | server {d : D} {e : ServerError} (typed : ¬ IllTyped v members)
    (shown : v.shown? members "error" = some d) (spelled : ServerError.Spelled v d e) :
    Judged v members (.error (.server e.code e.message))
  | missing {field : LedgerField} (typed : ¬ IllTyped v members)
    (noError : v.shown? members "error" = none) (first : firstMissing v members = some field) :
    Judged v members (.error (.missing field))
  | noRecord {j : Json} (typed : ¬ IllTyped v members) (noError : v.shown? members "error" = none)
    (complete : firstMissing v members = none) (result : v.Holds v.value? members "result" j)
    (other : Record.ofJson? j = none) : Judged v members (.error .malformed)
  | absent {chainId : UInt8} {state : LedgerState} (typed : ¬ IllTyped v members)
    (noError : v.shown? members "error" = none) (stands : Stands v members chainId state)
    (noResult : v.shown? members "result" = none) :
    Judged v members (.ok { result := none, chainId, state })
  | found {chainId : UInt8} {state : LedgerState} {j : Json} {record : Record}
    (typed : ¬ IllTyped v members) (noError : v.shown? members "error" = none)
    (stands : Stands v members chainId state) (result : v.Holds v.value? members "result" j)
    (is : Record.ofJson? j = some record) :
    Judged v members (.ok { result := some record, chainId, state })

theorem firstMissing_eq_none_iff :
    firstMissing v members = none ↔ ∀ field : LedgerField, v.shown? members field.name ≠ none := by
  simp only [firstMissing, List.find?_eq_none, Option.isNone_iff_eq_none]
  refine ⟨fun all field => all field ?_, fun all field _ => all field⟩
  cases field <;> simp [LedgerField.inOrder]

theorem exists_stands (typed : ¬ IllTyped v members) (complete : firstMissing v members = none) :
    ∃ chainId state, Stands v members chainId state := by
  have shown := firstMissing_eq_none_iff.1 complete
  obtain ⟨chainId, hc⟩ :=
    View.exists_holds (shown .chainId) fun ill => typed (.inr (.inr (.inl ill)))
  obtain ⟨version, hv⟩ :=
    View.exists_holds (shown .version) fun ill => typed (.inr (.inr (.inr (.inl ill))))
  obtain ⟨timestamp, ht⟩ :=
    View.exists_holds (shown .timestamp) fun ill => typed (.inr (.inr (.inr (.inr ill))))
  exact ⟨chainId, ⟨version, timestamp⟩, hc, hv, ht⟩

/-- Where the ledger is shown to stand and no error is shown, only the result can be ill typed. -/
theorem typed_of_stands {chainId : UInt8} {state : LedgerState}
    (noError : v.shown? members "error" = none) (stands : Stands v members chainId state)
    (result : ¬ v.Spoils v.value? members "result") : ¬ IllTyped v members := by
  rintro (ill | ⟨d, shown, -⟩ | ill | ill | ill)
  · exact result ill
  · simp [noError] at shown
  · exact View.not_spoils_of_holds stands.chainId ill
  · exact View.not_spoils_of_holds stands.version ill
  · exact View.not_spoils_of_holds stands.timestamp ill

/-- Some rule applies. -/
theorem exists_judged (v : View D) (members : List (String × D)) : ∃ a, Judged v members a := by
  by_cases ill : IllTyped v members
  · exact ⟨_, .illTyped ill⟩
  cases error : v.shown? members "error" with
  | some d =>
    have spelled : ∃ e, ServerError.Spelled v d e := by
      by_contra none
      exact ill (.inr (.inl ⟨d, error, not_exists.1 none⟩))
    obtain ⟨e, spelled⟩ := spelled
    exact ⟨_, .server ill error spelled⟩
  | none =>
    cases missing : firstMissing v members with
    | some field => exact ⟨_, .missing ill error missing⟩
    | none =>
      obtain ⟨chainId, state, stands⟩ := exists_stands ill missing
      cases result : v.shown? members "result" with
      | none => exact ⟨_, .absent ill error stands result⟩
      | some d =>
        have shown : v.shown? members "result" ≠ none := by simp [result]
        obtain ⟨j, holds⟩ := View.exists_holds shown fun spoils => ill (.inl spoils)
        cases found : Record.ofJson? j with
        | none => exact ⟨_, .noRecord ill error missing holds found⟩
        | some record => exact ⟨_, .found ill error stands holds found⟩

/-! ## The answer of the code -/

section Answer

variable {decode : Json → Option (Option Record)}

theorem answer_of_error {error : ServerError} (h : e.error = some error) :
    e.answer decode = .error (.server error.code error.message) := by
  simp only [answer, h]

theorem answer_of_complete {chainId : UInt8} {state : LedgerState} (noError : e.error = none)
    (hc : e.chainId = some chainId) (hv : e.version = some state.version)
    (ht : e.timestamp = some state.timestamp) :
    e.answer decode = (decode (e.result.getD .null)).elim (.error .malformed) fun result =>
      .ok { result, chainId, state } := by
  simp only [answer, noError, hc, hv, ht]
  cases decode (e.result.getD .null) <;> rfl

/-- Whether a field of the ledger is missing. -/
def lacks (e : Envelope) : LedgerField → Bool
  | .chainId => e.chainId.isNone
  | .version => e.version.isNone
  | .timestamp => e.timestamp.isNone

theorem answer_of_lacks {field : LedgerField} (noError : e.error = none)
    (first : LedgerField.inOrder.find? e.lacks = some field) :
    e.answer decode = .error (.missing field) := by
  obtain ⟨result, error, chainId, version, timestamp⟩ := e
  cases noError
  cases chainId with
  | none =>
    cases first
    rfl
  | some chainId =>
    cases version with
    | none =>
      cases first
      rfl
    | some version =>
      cases timestamp with
      | none =>
        cases first
        rfl
      | some timestamp => cases first

end Answer

namespace Shows

variable (shows : Shows v members e)

include shows

theorem error_eq_none (noError : v.shown? members "error" = none) : e.error = none :=
  Option.some.inj (shows.error.symm.trans (View.optional_eq_absent_iff.2 noError))

theorem result_eq_none (noResult : v.shown? members "result" = none) : e.result = none :=
  Option.some.inj (shows.result.symm.trans (View.optional_eq_absent_iff.2 noResult))

theorem result_eq_some {j : Json} (holds : v.Holds v.value? members "result" j) :
    e.result = some j :=
  Option.some.inj (shows.result.symm.trans (View.optional_eq_some_iff.2 holds))

/-- A result that is shown is not null, so that it has to be a record. -/
theorem decoded (lawful : v.Lawful) {j : Json} (holds : v.Holds v.value? members "result" j) :
    Record.ofResult? (e.result.getD .null) = (Record.ofJson? j).map some := by
  rw [shows.result_eq_some holds, Option.getD_some,
    Record.ofResult?_of_ne_null (View.ne_null_of_holds lawful holds)]

theorem error_eq_some (lawful : v.Lawful) (clear : Clear v members) {error : ServerError}
    (shown : v.shown? members "error" = some d) (spelled : ServerError.Spelled v d error) :
    e.error = some error := by
  have unique := clear.error (View.lookup_of_shown? shown)
  have holds : v.Holds (ServerError.read v) members "error" error :=
    ⟨d, shown, (ServerError.read_eq_some_iff lawful unique).2 spelled⟩
  exact Option.some.inj (shows.error.symm.trans (View.optional_eq_some_iff.2 holds))

theorem lacks_eq (field : LedgerField) :
    e.lacks field = (v.shown? members field.name).isNone := by
  cases field with
  | chainId => exact View.isNone_of_optional shows.chainId
  | version => exact View.isNone_of_optional shows.version
  | timestamp => exact View.isNone_of_optional shows.timestamp

theorem find?_lacks : LedgerField.inOrder.find? e.lacks = firstMissing v members := by
  rw [firstMissing, funext (shows.lacks_eq)]

theorem answer_of_stands {decode : Json → Option (Option Record)} {chainId : UInt8}
    {state : LedgerState} (noError : e.error = none) (stands : Stands v members chainId state) :
    e.answer decode = (decode (e.result.getD .null)).elim (.error .malformed) fun result =>
      .ok { result, chainId, state } :=
  answer_of_complete noError
    (Option.some.inj (shows.chainId.symm.trans (View.optional_eq_some_iff.2 stands.chainId)))
    (Option.some.inj (shows.version.symm.trans (View.optional_eq_some_iff.2 stands.version)))
    (Option.some.inj (shows.timestamp.symm.trans (View.optional_eq_some_iff.2 stands.timestamp)))

/-- The rules say what an envelope is answered. -/
theorem answer_of_judged (lawful : v.Lawful) (clear : Clear v members)
    (typed : ¬ IllTyped v members) (judged : Judged v members a) :
    e.answer Record.ofResult? = a := by
  cases judged with
  | illTyped ill => exact absurd ill typed
  | server _ shown spelled => exact answer_of_error (shows.error_eq_some lawful clear shown spelled)
  | missing _ noError first =>
    exact answer_of_lacks (shows.error_eq_none noError) (shows.find?_lacks.trans first)
  | noRecord _ noError complete result other =>
    obtain ⟨chainId, state, stands⟩ := exists_stands typed complete
    rw [shows.answer_of_stands (shows.error_eq_none noError) stands, shows.decoded lawful result,
      other]
    rfl
  | absent _ noError stands noResult =>
    rw [shows.answer_of_stands (shows.error_eq_none noError) stands, shows.result_eq_none noResult]
    rfl
  | found _ noError stands result is =>
    rw [shows.answer_of_stands (shows.error_eq_none noError) stands, shows.decoded lawful result, is]
    rfl

end Shows

theorem Judged.eq_malformed (judged : Judged v members a) (ill : IllTyped v members) :
    a = .error .malformed := by
  cases judged with
  | illTyped _ => rfl
  | server typed _ _ => exact absurd ill typed
  | missing typed _ _ => exact absurd ill typed
  | noRecord typed _ _ _ _ => exact absurd ill typed
  | absent typed _ _ _ => exact absurd ill typed
  | found typed _ _ _ _ => exact absurd ill typed

/-- What an object is answered that may be no envelope. -/
def outcome (found : Option Envelope) : Answer (Option Record) :=
  found.elim (.error .malformed) (answer Record.ofResult?)

theorem outcome_congr {found found' : Option Envelope} (alike : Option.Rel Alike found found') :
    outcome found = outcome found' := by
  cases alike with
  | none => rfl
  | some alike => exact answer_congr alike

theorem exists_shows (lawful : v.Lawful) (is : v.members? d = some members)
    (clear : Clear v members) (typed : ¬ IllTyped v members) :
    ∃ e, read v d = some e ∧ Shows v members e := by
  obtain ⟨e, reads⟩ := Option.ne_none_iff_exists'.1
    fun none => typed ((read_eq_none_iff lawful is clear).1 none)
  exact ⟨e, reads, (read_eq_some_iff lawful is clear.distinct).1 reads⟩

theorem outcome_of_judged (lawful : v.Lawful) (is : v.members? d = some members)
    (clear : Clear v members) (judged : Judged v members a) : outcome (read v d) = a := by
  by_cases ill : IllTyped v members
  · rw [(read_eq_none_iff lawful is clear).2 ill, judged.eq_malformed ill]
    rfl
  · obtain ⟨e, reads, shows⟩ := exists_shows lawful is clear ill
    rw [reads]
    exact shows.answer_of_judged lawful clear ill judged

theorem outcome_iff (lawful : v.Lawful) (is : v.members? d = some members)
    (clear : Clear v members) : outcome (read v d) = a ↔ Judged v members a := by
  refine ⟨fun answered => ?_, outcome_of_judged lawful is clear⟩
  -- Some rule applies, and what it says is the answer.
  obtain ⟨a', judged⟩ := exists_judged v members
  have same : a' = a := (outcome_of_judged lawful is clear judged).symm.trans answered
  exact same ▸ judged

end Envelope

end LedgerClient
