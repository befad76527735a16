import LedgerClient.Proofs.Wait.Course

/-!
# What has been seen when a transaction may be submitted again

A wait that ends as expired or with its time up lets its caller submit the transaction again. Until
then no answer that the tracker accepted carried a record, of whatever transaction
(`records_seen_are_outdated`). An outdated answer is thrown away with all that it carries, and this
can be the very record that is waited for (`resubmittable_though_record_was_seen`).
-/

set_option autoImplicit false

namespace LedgerClient.Wait

variable {w : Wait} {t : Tracker} {answer : Answer (Option Record)}

/-- The answer has no record, or the tracker refuses it because its node is behind. -/
def Recordless (t : Tracker) (answer : Answer (Option Record)) : Prop :=
  ∃ response, answer = .ok response ∧
    (response.result = none ∨ t.Outdated response.chainId response.state)

theorem Undecided.recordless (undecided : w.Undecided t answer) : Recordless t answer := by
  cases undecided with
  | @stale response outdated => exact ⟨response, rfl, .inr outdated⟩
  | @absent response accepted empty early => exact ⟨response, rfl, .inl empty⟩

/-- Of the answers that end a wait, only the one by which the transaction has expired lets it be
submitted again. -/
theorem Decides.recordless {e : ClientError} (decides : w.Decides t answer (.error e))
    (resubmittable : e.isResubmittable = true) : Recordless t answer := by
  cases decides with
  | failure cause => cases resubmittable
  | foreign chain => cases resubmittable
  | mismatch accepted holds other => cases resubmittable
  | failed accepted holds expected broken => cases resubmittable
  | @expired response accepted empty late => exact ⟨response, rfl, .inl empty⟩

/-- When a wait lets its transaction be submitted again, every record that it was answered came from
a node that was behind. -/
theorem records_seen_are_outdated (w : Wait) (tokenFirst : Nat → Bool) (tape : List TimedAnswer)
    (token : Option Nat) (t : Tracker) (e : ClientError)
    (ends : (w.run tokenFirst tape 0 token t).outcome = some (.error e))
    (resubmittable : e.isResubmittable = true) (i : Nat) (call : TimedAnswer)
    (at? : tape[i]? = some call) (made : i < (w.run tokenFirst tape 0 token t).calls.length) :
    Recordless (t.afterCalls (tape.take i)) call.answer := by
  have course := w.course_of_run tokenFirst tape 0 token t
  rcases course.judged at? made with undecided | ⟨outcome, outcomeEq, decides⟩
  · exact undecided.recordless
  · obtain rfl := Option.some.inj (ends.symm.trans outcomeEq)
    exact decides.recordless resubmittable

namespace Sample

/-- The record from a node that is behind. -/
def outdated : Answer (Option Record) := .ok ⟨some record, 2, ⟨9, 9⟩⟩

/-- The tracker of a client that has seen a later ledger. -/
def laterTracker : Tracker := ⟨2, ⟨10, 10⟩⟩

/-- The record from a node that is behind, and then the expiration from one that is not. -/
def expiringTape : List TimedAnswer :=
  [⟨60, false, outdated⟩, ⟨10, false, .ok ⟨none, 2, ⟨10, 5000000⟩⟩⟩]

/-- A wait with time for two calls. -/
def shortWait : Wait := { wait with timeout := 100 }

def outdatedTape : List TimedAnswer := [⟨60, false, outdated⟩, ⟨60, false, outdated⟩]

end Sample

theorem expired_after_outdated_record :
    (Sample.wait.run (fun _ => false) Sample.expiringTape 0 none Sample.laterTracker).outcome =
        some (.error (.expired 5 5000000)) ∧
      (ClientError.expired 5 5000000).isResubmittable = true ∧
      Recordless Sample.laterTracker Sample.outdated :=
  have ends : (Sample.wait.run (fun _ => false) Sample.expiringTape 0 none
      Sample.laterTracker).outcome = some (.error (.expired 5 5000000)) := rfl
  ⟨ends, rfl, records_seen_are_outdated Sample.wait (fun _ => false) Sample.expiringTape none
    Sample.laterTracker _ ends rfl 0 ⟨60, false, Sample.outdated⟩ rfl (by decide)⟩

/-- A wait can let its transaction be submitted again although each answer carried its record, and
the record says that the transaction was executed. -/
theorem resubmittable_though_record_was_seen :
    (Sample.shortWait.run (fun _ => false) Sample.outdatedTape 0 none
        Sample.laterTracker).outcome = some (.error (.timedOut 100)) ∧
      (ClientError.timedOut 100).isResubmittable = true ∧
      (Sample.shortWait.run (fun _ => false) Sample.outdatedTape 0 none
        Sample.laterTracker).calls = [0, 60] ∧
      Sample.outdatedTape.map TimedAnswer.answer =
        List.replicate 2 (.ok ⟨some Sample.record, 2, ⟨9, 9⟩⟩) ∧
      Sample.shortWait.expectation.isMetBy Sample.record = true ∧
      Sample.record.status.isExecuted = true :=
  ⟨rfl, rfl, rfl, rfl, rfl, rfl⟩

end LedgerClient.Wait
