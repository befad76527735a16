import LedgerClient.Client.Wait
import LedgerClient.Proofs.Ledger.Acceptance

/-!
# Which answer decides a wait

A wait judges each answer against the tracker as the answers before it left it. An answer that is
stale, or accepted and empty before the expiration, leaves the wait undecided (`Undecided`); every
other answer ends it, with one outcome (`Decides`). `turn_undecided` and `turn_decided` say what a
wait does with one answer, and `accounts_of_run` follows a wait that nobody cancels over all of its
answers: those before the last were undecided, and the outcome is the timeout or is the one that
the last answer decides.
-/

set_option autoImplicit false

namespace LedgerClient

/-- The tracker after the answers to the calls, in order. -/
def Tracker.afterCalls (t : Tracker) (tape : List TimedAnswer) : Tracker :=
  tape.foldl (fun t call => (t.receive call.answer).2) t

@[simp] theorem Tracker.afterCalls_nil (t : Tracker) : t.afterCalls [] = t := rfl

@[simp] theorem Tracker.afterCalls_cons (t : Tracker) (call : TimedAnswer)
    (rest : List TimedAnswer) :
    t.afterCalls (call :: rest) = (t.receive call.answer).2.afterCalls rest := rfl

@[simp] theorem Tracker.chainId_receive {α : Type} (t : Tracker) (answer : Answer α) :
    (t.receive answer).2.chainId = t.chainId := by
  rcases answer with cause | response
  · rfl
  rcases t.foreign_or_outdated_or_accepts response.chainId response.state
    with chain | outdated | accepted
  · simp [chain]
  · simp [outdated]
  · simp [accepted]

@[simp] theorem Tracker.chainId_afterCalls (t : Tracker) (tape : List TimedAnswer) :
    (t.afterCalls tape).chainId = t.chainId := by
  induction tape generalizing t with
  | nil => simp
  | cons call rest ih => simp [ih]

namespace Wait

/-- The expiration in microseconds, cut off at the greatest number of 64 bits. -/
def deadline (w : Wait) : Nat := min (1000000 * w.expiration.toNat) (UInt64.size - 1)

/-- An answer after which the wait goes on. -/
inductive Undecided (w : Wait) (t : Tracker) : Answer (Option Record) → Prop where
  | stale {response : Response (Option Record)}
      (outdated : t.Outdated response.chainId response.state) : Undecided w t (.ok response)
  | absent {response : Response (Option Record)}
      (accepted : t.Accepts response.chainId response.state)
      (empty : response.result = none)
      (early : response.state.timestamp.toNat < w.deadline) : Undecided w t (.ok response)

/-- An answer that ends the wait, and the outcome. A record is looked at only in an answer that the
tracker accepts: first whether it is the expected one, then how it was executed. -/
inductive Decides (w : Wait) (t : Tracker) :
    Answer (Option Record) → Except ClientError Record → Prop where
  | failure (cause : RpcError) : Decides w t (.error cause) (.error (.rpc cause))
  | foreign {response : Response (Option Record)} (chain : response.chainId ≠ t.chainId) :
      Decides w t (.ok response)
        (.error (.rejected (.foreignChain t.chainId response.chainId)))
  | mismatch {response : Response (Option Record)} {record : Record}
      (accepted : t.Accepts response.chainId response.state)
      (holds : response.result = some record)
      (other : w.expectation.isMetBy record = false) :
      Decides w t (.ok response)
        (.error (.mismatch w.expectation.expected (w.expectation.observed record)))
  | failed {response : Response (Option Record)} {record : Record}
      (accepted : t.Accepts response.chainId response.state)
      (holds : response.result = some record)
      (expected : w.expectation.isMetBy record = true)
      (broken : record.status.isExecuted = false) :
      Decides w t (.ok response) (.error (.failed record.status))
  | found {response : Response (Option Record)} {record : Record}
      (accepted : t.Accepts response.chainId response.state)
      (holds : response.result = some record)
      (expected : w.expectation.isMetBy record = true)
      (executed : record.status.isExecuted = true) :
      Decides w t (.ok response) (.ok record)
  | expired {response : Response (Option Record)}
      (accepted : t.Accepts response.chainId response.state)
      (empty : response.result = none)
      (late : w.deadline ≤ response.state.timestamp.toNat) :
      Decides w t (.ok response) (.error (.expired w.expiration response.state.timestamp))

/-- Nobody cancels: the wait has no token, or no call on the tape fires it. -/
def Uncancelled (w : Wait) (tape : List TimedAnswer) : Prop :=
  w.cancellable = false ∨ ∀ call ∈ tape, call.firesToken = false

theorem Uncancelled.first {w : Wait} {call : TimedAnswer} {rest : List TimedAnswer}
    (quiet : w.Uncancelled (call :: rest)) : w.cancellable = false ∨ call.firesToken = false :=
  quiet.imp_right fun silent => silent call List.mem_cons_self

theorem Uncancelled.rest {w : Wait} {call : TimedAnswer} {rest : List TimedAnswer}
    (quiet : w.Uncancelled (call :: rest)) : w.Uncancelled rest :=
  quiet.imp_right fun silent other mem => silent other (List.mem_cons_of_mem call mem)

/-- What becomes of a tape in a wait that comes to an end. -/
structure Accounts (w : Wait) (t : Tracker) (tape : List TimedAnswer) (course : Run)
    (outcome : Except ClientError Record) : Prop where
  /-- Every call is answered from the tape. -/
  calls_le : course.calls.length ≤ tape.length
  /-- The answers before the last leave the wait undecided, each against its own tracker. -/
  earlier : ∀ i call, tape[i]? = some call → i + 1 < course.calls.length →
    w.Undecided (t.afterCalls (tape.take i)) call.answer
  /-- The last answer decides, or it does not either and the time is up. -/
  last : (outcome = .error (.timedOut w.timeout) ∧
      ∀ i call, tape[i]? = some call → i + 1 = course.calls.length →
        w.Undecided (t.afterCalls (tape.take i)) call.answer) ∨
    ∃ i call, tape[i]? = some call ∧ i + 1 = course.calls.length ∧
      w.Decides (t.afterCalls (tape.take i)) call.answer outcome
  /-- The wait leaves the tracker as the answers left it. -/
  tracker_eq : course.tracker = t.afterCalls (tape.take course.calls.length)

section Step

variable {w : Wait} {tokenFirst : Nat → Bool} {call : TimedAnswer} {rest : List TimedAnswer}
  {token : Option Nat} {now : Nat} {t : Tracker} {outcome : Except ClientError Record}

/-- The expiration as the wait compares it is the saturated product. -/
theorem toNat_microseconds (w : Wait) : (microseconds w.expiration).toNat = w.deadline := by
  rw [microseconds, deadline, UInt64.toNat_ofNat']
  have size : UInt64.size = 18446744073709551616 := rfl
  exact Nat.mod_eq_of_lt (by omega)

@[simp] theorem expiry?_of_late {last : LedgerState} (late : w.deadline ≤ last.timestamp.toNat) :
    w.expiry? last = some (.expired w.expiration last.timestamp) := by
  simp [expiry?, UInt64.le_iff_toNat_le, toNat_microseconds, late]

@[simp] theorem expiry?_of_early {last : LedgerState} (early : last.timestamp.toNat < w.deadline) :
    w.expiry? last = none := by
  simp [expiry?, UInt64.le_iff_toNat_le, toNat_microseconds, early]

theorem undecided_or_decides (w : Wait) (t : Tracker) (answer : Answer (Option Record)) :
    w.Undecided t answer ∨ ∃ outcome, w.Decides t answer outcome := by
  rcases answer with cause | response
  · exact .inr ⟨_, .failure cause⟩
  rcases t.foreign_or_outdated_or_accepts response.chainId response.state
    with chain | outdated | accepted
  · exact .inr ⟨_, .foreign chain⟩
  · exact .inl (.stale outdated)
  cases holds : response.result with
  | none =>
    by_cases late : w.deadline ≤ response.state.timestamp.toNat
    · exact .inr ⟨_, .expired accepted holds late⟩
    · exact .inl (.absent accepted holds (by omega))
  | some record =>
    cases expected : w.expectation.isMetBy record with
    | false => exact .inr ⟨_, .mismatch accepted holds expected⟩
    | true =>
      cases executed : record.status.isExecuted with
      | false => exact .inr ⟨_, .failed accepted holds expected executed⟩
      | true => exact .inr ⟨_, .found accepted holds expected executed⟩

@[simp] theorem stop?_of_late (unfired : hasFired token now = false) (late : w.timeout ≤ now) :
    w.stop? now token = some (.timedOut w.timeout) := by
  simp [stop?, unfired, late]

@[simp] theorem stop?_of_before (unfired : hasFired token now = false) (before : now < w.timeout) :
    w.stop? now token = none := by
  simp [stop?, unfired, before]

theorem hear_of_undecided (undecided : w.Undecided t call.answer) :
    w.hear (t.receive call.answer).1 = .stale ∨
      w.hear (t.receive call.answer).1 = .absent ∧
        w.expiry? (t.receive call.answer).2.last = none := by
  generalize call.answer = answer at undecided ⊢
  cases undecided with
  | stale outdated =>
    left
    simp [outdated, hear, ClientError.isStale]
  | absent accepted empty early =>
    right
    simp [accepted, empty, hear, early]

theorem hear_of_decides (decides : w.Decides t call.answer outcome) :
    w.hear (t.receive call.answer).1 = .finished outcome ∨
      w.hear (t.receive call.answer).1 = .absent ∧
        ∃ e, w.expiry? (t.receive call.answer).2.last = some e ∧ outcome = .error e := by
  generalize call.answer = answer at decides ⊢
  cases decides with
  | failure cause => exact .inl rfl
  | foreign chain =>
    left
    simp [chain, hear, ClientError.isStale]
  | mismatch accepted holds other =>
    left
    simp [accepted, holds, hear, settle, other]
  | failed accepted holds expected broken =>
    left
    simp [accepted, holds, hear, settle, expected, broken]
  | found accepted holds expected executed =>
    left
    simp [accepted, holds, hear, settle, expected, executed]
  | expired accepted empty late =>
    right
    simp [accepted, empty, hear, late]

/-- The token after a call that does not cancel. -/
theorem token_of_quiet (quiet : w.cancellable = false ∨ call.firesToken = false) (answered : Nat) :
    (if call.firesToken then w.fire none answered else none) = none := by
  rcases quiet with closed | silent
  · simp [fire, closed]
  · simp [silent]

/-- After an undecided answer the wait goes on, not earlier, with the tracker that the answer
left. -/
theorem turn_undecided (tokenFirst : Nat → Bool) (now : Nat)
    (undecided : w.Undecided t call.answer)
    (quiet : w.cancellable = false ∨ call.firesToken = false) :
    ∃ later, now ≤ later ∧
      w.turn tokenFirst call now none t = .again later none (t.receive call.answer).2 := by
  rcases hear_of_undecided undecided with stale | ⟨absent, early⟩
  · refine ⟨now + call.delay, by omega, ?_⟩
    unfold turn
    simp only [stale, token_of_quiet quiet]
  · refine ⟨now + call.delay + w.pause (now + call.delay), by omega, ?_⟩
    unfold turn
    simp only [absent, early, token_of_quiet quiet, interruption?]

/-- After a deciding answer the wait ends, when the answer is there, whatever its token. -/
theorem turn_decided (tokenFirst : Nat → Bool) (now : Nat) (token : Option Nat)
    (decides : w.Decides t call.answer outcome) :
    w.turn tokenFirst call now token t =
      .over outcome (now + call.delay) (t.receive call.answer).2 := by
  rcases hear_of_decides decides with finished | ⟨absent, e, late, rfl⟩
  · unfold turn
    simp only [finished]
  · unfold turn
    simp only [absent, late]

/-- A wait that has a reason to stop makes no call, whatever is on the tape. -/
theorem run_of_stop? {e : ClientError} (stops : w.stop? now token = some e)
    (tape : List TimedAnswer) :
    w.run tokenFirst tape now token t = .ending (.error e) now t := by
  cases tape <;> simp only [run, stops]

/-- A wait makes no call when its time is up. -/
theorem run_of_late (late : w.timeout ≤ now) (tape : List TimedAnswer) :
    w.run tokenFirst tape now none t = .ending (.error (.timedOut w.timeout)) now t :=
  run_of_stop? (stop?_of_late rfl late) tape

end Step

section Course

variable {w : Wait} {tokenFirst : Nat → Bool} {call : TimedAnswer} {tape rest : List TimedAnswer}
  {now : Nat} {t : Tracker} {course : Run} {outcome : Except ClientError Record}

/-- A wait that is over before its first call. -/
theorem Accounts.timedOut (w : Wait) (t : Tracker) (tape : List TimedAnswer) (now : Nat) :
    w.Accounts t tape (.ending (.error (.timedOut w.timeout)) now t)
      (.error (.timedOut w.timeout)) where
  calls_le := by simp
  earlier i call _ h := by simp at h
  last := .inl ⟨rfl, fun i call _ h => by simp at h⟩
  tracker_eq := rfl

/-- A wait that its first answer ends. -/
theorem Accounts.decided (decides : w.Decides t call.answer outcome) (start answered : Nat) :
    w.Accounts t (call :: rest)
      (Run.prepend start (.ending outcome answered (t.receive call.answer).2)) outcome where
  calls_le := by simp
  earlier i call _ h := by simp at h
  last := .inr ⟨0, call, rfl, rfl, decides⟩
  tracker_eq := rfl

/-- A wait that goes on after its first answer. -/
theorem Accounts.undecided (undecided : w.Undecided t call.answer)
    (h : w.Accounts (t.receive call.answer).2 rest course outcome) (start : Nat) :
    w.Accounts t (call :: rest) (Run.prepend start course) outcome where
  calls_le := Nat.succ_le_succ h.calls_le
  earlier i answered at? lt := by
    cases i with
    | zero =>
      obtain rfl : call = answered := by simpa using at?
      exact undecided
    | succ i => exact h.earlier i answered at? (Nat.lt_of_succ_lt_succ lt)
  last := by
    rcases h.last with ⟨timedOut, final⟩ | ⟨i, answered, at?, len, decides⟩
    · refine .inl ⟨timedOut, fun i answered at? len => ?_⟩
      cases i with
      | zero =>
        obtain rfl : call = answered := by simpa using at?
        exact undecided
      | succ i => exact final i answered at? (Nat.succ.inj len)
    · exact .inr ⟨i + 1, answered, at?, congrArg Nat.succ len, decides⟩
  tracker_eq := h.tracker_eq

/-- The induction is on the tape; what carries it is that a turn hands its own tracker on. -/
theorem accounts_of_run (quiet : w.Uncancelled tape)
    (ends : (w.run tokenFirst tape now none t).outcome = some outcome) :
    w.Accounts t tape (w.run tokenFirst tape now none t) outcome := by
  induction tape generalizing now t with
  | nil =>
    by_cases late : w.timeout ≤ now
    · rw [run_of_late late] at ends ⊢
      obtain rfl := Option.some.inj ends
      exact .timedOut w t [] now
    · have before : w.stop? now none = none := stop?_of_before rfl (Nat.not_le.1 late)
      simp only [run, before] at ends
      cases ends
  | cons call rest ih =>
    by_cases late : w.timeout ≤ now
    · rw [run_of_late late] at ends ⊢
      obtain rfl := Option.some.inj ends
      exact .timedOut w t (call :: rest) now
    have before : w.stop? now none = none := stop?_of_before rfl (Nat.not_le.1 late)
    rcases w.undecided_or_decides t call.answer with undecided | ⟨result, decides⟩
    · obtain ⟨later, -, again⟩ := turn_undecided tokenFirst now undecided quiet.first
      simp only [run, before, again] at ends ⊢
      exact .undecided undecided (ih quiet.rest ends) now
    · simp only [run, before, turn_decided tokenFirst now none decides] at ends ⊢
      obtain rfl := Option.some.inj ends
      exact .decided decides now _

end Course

/-- A wait ends with the timeout or with what its last answer decides, and each answer counts
against the tracker as the ones before it left it. An answer that this tracker refuses, whatever
record it carries, ends the wait at most with the error of a foreign chain. -/
theorem run_ends_as_last_answer_decides (w : Wait) (tokenFirst : Nat → Bool)
    (tape : List TimedAnswer) (t : Tracker) (outcome : Except ClientError Record)
    (quiet : w.Uncancelled tape)
    (ends : (w.run tokenFirst tape 0 none t).outcome = some outcome) :
    w.Accounts t tape (w.run tokenFirst tape 0 none t) outcome ∧
      ∀ i call response, tape[i]? = some call →
        i + 1 = (w.run tokenFirst tape 0 none t).calls.length → call.answer = .ok response →
        ¬ (t.afterCalls (tape.take i)).Accepts response.chainId response.state →
        outcome = .error (.timedOut w.timeout) ∨
          outcome = .error (.rejected (.foreignChain t.chainId response.chainId)) := by
  have accounts := accounts_of_run quiet ends
  refine ⟨accounts, fun i call response at? len answered refused => ?_⟩
  rcases accounts.last with ⟨timedOut, -⟩ | ⟨j, last, lastAt?, lastLen, decides⟩
  · exact .inl timedOut
  obtain rfl : i = j := by omega
  obtain rfl : call = last := Option.some.inj (at?.symm.trans lastAt?)
  rw [answered] at decides
  right
  cases decides with
  | foreign chain => simp
  | mismatch accepted => exact absurd accepted refused
  | failed accepted => exact absurd accepted refused
  | found accepted => exact absurd accepted refused
  | expired accepted => exact absurd accepted refused

namespace Sample

/-- A record that shows a signature. -/
def record : Record where
  version := 7
  hash := ""
  gasUsed := 0
  status := .ofKind "executed"
  body := { Record.Body.empty with signature := some "Ab" }
  events := []

def wait : Wait where
  expectation := .signature "aB"
  expiration := 5
  timeout := 1000
  pollInterval := 100
  cancellable := false

/-- A stale answer that already carries the record, an empty answer, and the record again. -/
def tape : List TimedAnswer :=
  [⟨10, false, .ok ⟨some record, 2, ⟨4, 9⟩⟩⟩,
   ⟨10, false, .ok ⟨none, 2, ⟨6, 9⟩⟩⟩,
   ⟨10, false, .ok ⟨some record, 2, ⟨7, 11⟩⟩⟩]

def tracker : Tracker := ⟨2, ⟨5, 5⟩⟩

/-- A record that shows another signature. -/
def otherRecord : Record :=
  { record with body := { Record.Body.empty with signature := some "Cd" } }

/-- The other record, from a node that is behind and then from one that is not. -/
def otherTape : List TimedAnswer :=
  [⟨10, false, .ok ⟨some otherRecord, 2, ⟨4, 9⟩⟩⟩,
   ⟨10, false, .ok ⟨some otherRecord, 2, ⟨6, 9⟩⟩⟩]

end Sample

/-- A wait that finds its record, and one that is answered with another's. -/
theorem run_judges_the_accepted_record :
    (Sample.wait.run (fun _ => false) Sample.tape 0 none Sample.tracker).outcome =
        some (.ok Sample.record) ∧
      Sample.wait.Accounts Sample.tracker Sample.tape
        (Sample.wait.run (fun _ => false) Sample.tape 0 none Sample.tracker)
        (.ok Sample.record) ∧
      (Sample.wait.run (fun _ => false) Sample.otherTape 0 none Sample.tracker).outcome =
        some (.error (.mismatch "ab" "Cd")) ∧
      Sample.wait.Accounts Sample.tracker Sample.otherTape
        (Sample.wait.run (fun _ => false) Sample.otherTape 0 none Sample.tracker)
        (.error (.mismatch "ab" "Cd")) := by
  have found : (Sample.wait.run (fun _ => false) Sample.tape 0 none Sample.tracker).outcome =
      some (.ok Sample.record) := rfl
  have mismatch :
      (Sample.wait.run (fun _ => false) Sample.otherTape 0 none Sample.tracker).outcome =
        some (.error (.mismatch "ab" "Cd")) := rfl
  have finds := run_ends_as_last_answer_decides Sample.wait (fun _ => false) Sample.tape
    Sample.tracker _ (.inl rfl) found
  have refuses := run_ends_as_last_answer_decides Sample.wait (fun _ => false) Sample.otherTape
    Sample.tracker _ (.inl rfl) mismatch
  exact ⟨found, finds.1, mismatch, refuses.1⟩

end Wait
end LedgerClient
