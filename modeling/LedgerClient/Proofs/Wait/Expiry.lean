import LedgerClient.Proofs.Wait.Course

/-!
# When a transaction has expired

The expiration is given in seconds and the time of the ledger in microseconds. The wait compares
them in 64 bits and cuts the product off, which changes nothing as long as the ledger can show a
later time (`deadline_le_iff`). At the last time that it can show every transaction counts as
expired, also one whose expiration lies beyond it (`expired_before_its_expiration`).
-/

set_option autoImplicit false

namespace LedgerClient.Wait

/-- The comparison with the product that is cut off is exact but for the greatest time. -/
theorem deadline_le_iff (w : Wait) (time : UInt64) :
    w.deadline ≤ time.toNat ↔
      1000000 * w.expiration.toNat ≤ time.toNat ∨ time.toNat = UInt64.size - 1 := by
  have bound := time.toNat_lt_size
  rw [deadline]
  omega

/-- An accepted answer without a record ends the wait as expired, with the values that it has been
given, if its ledger has reached the expiration. -/
theorem Course.expires_iff {w : Wait} {token : Option Nat} {t : Tracker} {now : Nat}
    {tape : List TimedAnswer} {course : Run} (h : w.Course token t now tape course) {i : Nat}
    {call : TimedAnswer} {response : Response (Option Record)} (at? : tape[i]? = some call)
    (made : i < course.calls.length) (answered : call.answer = .ok response)
    (accepted : (t.afterCalls (tape.take i)).Accepts response.chainId response.state)
    (empty : response.result = none) (expiration time : UInt64) :
    course.EndsAt i (.error (.expired expiration time)) ↔
      (expiration = w.expiration ∧ time = response.state.timestamp) ∧
        w.deadline ≤ time.toNat := by
  constructor
  · rintro ⟨last, ends⟩
    rcases h.endsAt_of_outcome ends with
      cancelled | timedOut | ⟨j, other, other?, ⟨last', -⟩, decides⟩
    · cases cancelled
    · cases timedOut
    · obtain rfl : i = j := by omega
      obtain rfl : call = other := Option.some.inj (at?.symm.trans other?)
      rw [answered] at decides
      cases decides with
      | expired _ _ late => exact ⟨⟨rfl, rfl⟩, late⟩
  · rintro ⟨⟨rfl, rfl⟩, late⟩
    refine h.endsAt_of_decides at? made ?_
    rw [answered]
    exact .expired accepted empty late

/-- An accepted answer without a record ends the wait as expired if the expiration, as an exact
number of microseconds, has been reached, or if the ledger shows the greatest time of all. An
expiration of more microseconds than 64 bits hold is reached at this one time only. -/
theorem empty_answer_expires_iff (w : Wait) (tokenFirst : Nat → Bool) (tape : List TimedAnswer)
    (token : Option Nat) (t : Tracker) (i : Nat) (call : TimedAnswer)
    (response : Response (Option Record)) (at? : tape[i]? = some call)
    (made : i < (w.run tokenFirst tape 0 token t).calls.length)
    (answered : call.answer = .ok response)
    (accepted : (t.afterCalls (tape.take i)).Accepts response.chainId response.state)
    (empty : response.result = none) :
    (∀ expiration time,
      (w.run tokenFirst tape 0 token t).EndsAt i (.error (.expired expiration time)) ↔
        (expiration = w.expiration ∧ time = response.state.timestamp) ∧
          (1000000 * w.expiration.toNat ≤ time.toNat ∨ time.toNat = UInt64.size - 1)) ∧
      (UInt64.size ≤ 1000000 * w.expiration.toNat →
        ((w.run tokenFirst tape 0 token t).EndsAt i
            (.error (.expired w.expiration response.state.timestamp)) ↔
          response.state.timestamp.toNat = UInt64.size - 1)) := by
  have course := w.course_of_run tokenFirst tape 0 token t
  have expires := course.expires_iff at? made answered accepted empty
  refine ⟨fun expiration time => ?_, fun large => ?_⟩
  · rw [expires, deadline_le_iff]
  · have unreached : ¬ 1000000 * w.expiration.toNat ≤ response.state.timestamp.toNat :=
      Nat.not_le.2 (Nat.lt_of_lt_of_le response.state.timestamp.toNat_lt_size large)
    rw [expires, deadline_le_iff, and_iff_right ⟨rfl, rfl⟩, or_iff_right unreached]

namespace Sample

def emptyTape (time : UInt64) : List TimedAnswer := [⟨10, false, .ok ⟨none, 2, ⟨6, time⟩⟩⟩]

/-- A wait whose expiration lies beyond all times that a ledger can show. -/
def distantWait : Wait := { wait with expiration := 18446744073710 }

end Sample

/-- The expiration is inclusive. -/
theorem expired_at_its_expiration :
    0 < (Sample.wait.run (fun _ => false) (Sample.emptyTape 5000000) 0 none
        Sample.tracker).calls.length ∧
      (Sample.wait.run (fun _ => false) (Sample.emptyTape 5000000) 0 none Sample.tracker).EndsAt 0
        (.error (.expired 5 5000000)) :=
  have made : 0 < (Sample.wait.run (fun _ => false) (Sample.emptyTape 5000000) 0 none
      Sample.tracker).calls.length := Nat.zero_lt_one
  have reached := empty_answer_expires_iff Sample.wait (fun _ => false) (Sample.emptyTape 5000000)
    none Sample.tracker 0 _ ⟨none, 2, ⟨6, 5000000⟩⟩ rfl made rfl ⟨rfl, by decide, by decide⟩ rfl
  ⟨made, (reached.1 5 5000000).2 ⟨⟨rfl, rfl⟩, .inl (by decide)⟩⟩

/-- A transaction can count as expired before its expiration, and with an expiration of more
microseconds than 64 bits hold. -/
theorem expired_before_its_expiration :
    (Sample.distantWait.run (fun _ => false) (Sample.emptyTape 18446744073709551615) 0 none
        Sample.tracker).EndsAt 0
        (.error (.expired 18446744073710 18446744073709551615)) ∧
      (18446744073709551615 : UInt64).toNat < 1000000 * Sample.distantWait.expiration.toNat ∧
      UInt64.size ≤ 1000000 * Sample.distantWait.expiration.toNat :=
  ⟨⟨rfl, rfl⟩, by decide, by decide⟩

end LedgerClient.Wait
