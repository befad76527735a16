import LedgerClient.Proofs.Wait.Cancellation

/-!
# A token that fires too late

A caller that passes a token does not wait in another way because of it. As long as the token has not
fired, the rules for the wait with it and for the same wait without it are the same
(`Course.withToken`), whichever kind of pause the wait makes. So a token that does not fire before
the end changes nothing: neither the outcome, nor a single call, nor the end itself, nor the tracker.
-/

set_option autoImplicit false

namespace LedgerClient.Wait

/-- The wait, begun with a token. -/
def withToken (w : Wait) : Wait := { w with cancellable := true }

/-- The wait, begun without a token. -/
def withoutToken (w : Wait) : Wait := { w with cancellable := false }

section Rules

variable {w : Wait} {t : Tracker} {answer : Answer (Option Record)} {token : Option Nat}
  {tape : List TimedAnswer} {course : Run} {now answered next : Nat}
  {outcome : Except ClientError Record}

/-- Whether there is a token makes no difference to what an answer decides. -/
theorem Decides.withToken (decides : w.withoutToken.Decides t answer outcome) :
    w.withToken.Decides t answer outcome := by
  cases decides with
  | failure cause => exact .failure cause
  | foreign chain => exact .foreign chain
  | mismatch accepted holds other => exact .mismatch accepted holds other
  | failed accepted holds expected broken => exact .failed accepted holds expected broken
  | found accepted holds expected executed => exact .found accepted holds expected executed
  | expired accepted empty late => exact .expired accepted empty late

/-- Whether there is a token makes no difference to when the loop comes round. -/
theorem Resumes.withToken (resumes : w.withoutToken.Resumes t answered answer next) :
    w.withToken.Resumes t answered answer next := by
  cases resumes with
  | stale outdated => exact .stale outdated
  | absent accepted empty early => exact .absent accepted empty early

/-- A wait does not end before it has begun. -/
theorem Course.le_ended (h : w.Course token t now tape course) : now ≤ course.ended := by
  induction h with
  | cancelled fired => exact Nat.le_refl _
  | timedOut unfired late => exact Nat.le_refl _
  | unanswered unfired early => exact Nat.le_refl _
  | decided unfired early decides => exact Nat.le_add_right _ _
  | interrupted unfired early resumes fires within =>
    exact Nat.le_trans (Nat.le_add_right _ _) (Nat.le_max_right _ _)
  | resumed unfired early resumes silent stays later ih =>
    exact Nat.le_trans (Nat.le_trans (Nat.le_add_right _ _) resumes.le) ih

/-- A token that fires after the end has not fired at any time before. -/
theorem unfired_of_late (late : ∀ time, w.Fires token tape course time → course.ended < time)
    (within : now ≤ course.ended) : hasFired token now = false := by
  cases set : token with
  | none => rfl
  | some time => exact hasFired_some_eq_false.2 (Nat.lt_of_le_of_lt within (late time (.own set)))

/-- A wait without a token takes its course by rules that hold for the wait with one, if this fires
after the end. The induction is on the rules; a call that fired the token would be answered by the
end, so that no call of the course does. -/
theorem Course.withToken (h : w.withoutToken.Course none t now tape course)
    (late : ∀ time, w.withToken.Fires token tape course time → course.ended < time) :
    w.withToken.Course token t now tape course := by
  induction h with
  | cancelled fired => cases fired
  | timedOut unfired elapsed => exact .timedOut (unfired_of_late late (Nat.le_refl _)) elapsed
  | unanswered unfired early => exact .unanswered (unfired_of_late late (Nat.le_refl _)) early
  | decided unfired early decides =>
    exact .decided (unfired_of_late late (Nat.le_add_right _ _)) early decides.withToken
  | interrupted unfired early resumes fires within =>
    rw [tokenAfter_of_silent (.inl rfl)] at fires
    cases fires
  | @resumed t now next call rest course unfired early resumes silent stays later ih =>
    have answered : now + call.delay ≤ course.ended := Nat.le_trans resumes.le later.le_ended
    have quiet : call.firesToken = false := by
      cases fires : call.firesToken with
      | false => rfl
      | true =>
        exact absurd (late _ (.call (i := 0) rfl fires rfl rfl)) (Nat.not_lt.2 answered)
    have afterwards : ∀ time, w.withToken.Fires token rest course time → course.ended < time :=
      fun time fires => late time ((fires_prepend_iff (.inr quiet)).2 fires)
    exact .resumed (unfired_of_late late (Nat.le_trans (Nat.le_add_right _ _) answered)) early
      resumes.withToken (.inr quiet) (unfired_of_late late later.le_ended) (ih afterwards)

/-- Nothing fires where there is no token. -/
theorem not_fires_withoutToken {time : Nat} : ¬ w.withoutToken.Fires none tape course time := by
  intro fires
  cases fires with
  | own set => cases set
  | call cancellable fires at? begun? => cases cancellable

end Rules

/-- A wait without a token is never cancelled; and a wait with a token that never fires, or fires
after the wait without one has ended, takes the course of the wait without one. -/
theorem late_token_changes_nothing (w : Wait) (tokenFirst otherFirst : Nat → Bool)
    (tape : List TimedAnswer) (token : Option Nat) (t : Tracker) :
    (w.withoutToken.run tokenFirst tape 0 none t).outcome ≠ some (.error .cancelled) ∧
      ((∀ time,
          w.withToken.Fires token tape (w.withoutToken.run tokenFirst tape 0 none t) time →
          (w.withoutToken.run tokenFirst tape 0 none t).ended < time) →
        w.withToken.run otherFirst tape 0 token t =
          w.withoutToken.run tokenFirst tape 0 none t) := by
  have course := w.withoutToken.course_of_run tokenFirst tape 0 none t
  constructor
  · intro cancelled
    obtain ⟨time, fires, -⟩ := course.cause cancelled
    exact not_fires_withoutToken fires
  · intro late
    exact (course.withToken late).run_eq otherFirst

namespace Sample

/-- The tape of the wait whose last pause is cut by its time, and a call that would fire the
token. -/
def longTape : List TimedAnswer := unevenTape ++ [⟨10, true, .ok ⟨none, 2, ⟨7, 9⟩⟩⟩]

/-- The wait is over before it makes the call that would fire the token. -/
theorem fires_after_end {time : Nat}
    (fires : unevenWait.withToken.Fires (some 1001) longTape
      (unevenWait.withoutToken.run (fun _ => false) longTape 0 none tracker) time) :
    time = 1001 := by
  cases fires with
  | own set => exact (Option.some.inj set).symm
  | @call i begun call cancellable fires at? begun? =>
    have made : i < 4 := (List.getElem?_eq_some_iff.1 begun?).1
    have silent : ∀ j < 4, ∀ other, longTape[j]? = some other → other.firesToken = false := by
      decide
    cases (silent i made call at?).symm.trans fires

end Sample

/-- The token fires a millisecond after the wait has given up, and nothing is changed; if it fires
when the wait gives up, the wait is cancelled. -/
theorem run_with_token_after_its_end :
    (∀ time, Sample.unevenWait.withToken.Fires (some 1001) Sample.longTape
        (Sample.unevenWait.withoutToken.run (fun _ => false) Sample.longTape 0 none
          Sample.tracker) time → 1000 < time) ∧
      Sample.unevenWait.withToken.run (fun _ => true) Sample.longTape 0 (some 1001)
          Sample.tracker =
        ⟨some (.error (.timedOut 1000)), 1000, [0, 430, 440, 860], ⟨2, ⟨7, 9⟩⟩⟩ ∧
      Sample.unevenWait.withToken.run (fun _ => true) Sample.longTape 0 (some 1000)
          Sample.tracker = Sample.cancelledCourse := by
  have late : ∀ time, Sample.unevenWait.withToken.Fires (some 1001) Sample.longTape
      (Sample.unevenWait.withoutToken.run (fun _ => false) Sample.longTape 0 none
        Sample.tracker) time → 1000 < time := by
    intro time fires
    rw [Sample.fires_after_end fires]
    exact Nat.lt_succ_self 1000
  exact ⟨late, (late_token_changes_nothing Sample.unevenWait (fun _ => false) (fun _ => true)
    Sample.longTape (some 1001) Sample.tracker).2 late, rfl⟩

end LedgerClient.Wait
