import LedgerClient.Proofs.Wait.Timing

/-!
# Cancelling a wait

The token of a wait fires by itself at some time, or while a call is in flight. From then on no call
is begun, and the wait is cancelled, unless a call that was in flight is answered with something
that decides. The wait looks at the token when the loop comes round and in the pauses, and that is
enough: wherever the token fires, the wait ends as soon as no call is in flight. Until then it goes on
as it does without a token (`Cancellation`).
-/

set_option autoImplicit false

namespace LedgerClient.Wait

/-- The token fires at this time: by itself, or by a call of the course when it is answered. -/
inductive Fires (w : Wait) (token : Option Nat) (tape : List TimedAnswer) (course : Run) :
    Nat → Prop where
  | own {time : Nat} (set : token = some time) : Fires w token tape course time
  | call {i begun : Nat} {call : TimedAnswer} (cancellable : w.cancellable = true)
      (fires : call.firesToken = true) (at? : tape[i]? = some call)
      (begun? : course.calls[i]? = some begun) :
      Fires w token tape course (begun + call.delay)

/-- What the token does to a wait that is begun at `start`. -/
structure Cancellation (w : Wait) (token : Option Nat) (t : Tracker) (start : Nat)
    (tape : List TimedAnswer) (course : Run) : Prop where
  begins : course.rounds[0]? = some start
  /-- After an answer that decides nothing the loop comes round when it does without a token, unless
  the token has fired by then. -/
  resumes : ∀ (i : Nat) (call : TimedAnswer) (begun : Nat), tape[i]? = some call →
    course.calls[i]? = some begun → w.Undecided (t.afterCalls (tape.take i)) call.answer →
    ∃ next, w.Resumes (t.afterCalls (tape.take i)) (begun + call.delay) call.answer next ∧
      (course.rounds[i + 1]? = some next ∨
        course.EndsAt i (.error .cancelled) ∧ course.ended ≤ next)
  /-- No call is begun once the token has fired by itself. -/
  calls_lt : ∀ time, token = some time → ∀ begun ∈ course.calls, begun < time
  /-- No call is begun once a call has fired the token. -/
  last : ∀ (i : Nat) (call : TimedAnswer), tape[i]? = some call → i < course.calls.length →
    w.cancellable = true → call.firesToken = true → i + 1 = course.calls.length
  /-- When the token has fired the wait is cancelled, or it ends with what a call decides that was
  in flight at that time. -/
  fired : ∀ time, w.Fires token tape course time → time ≤ course.ended →
    (course.outcome = some (.error .cancelled) ∧
      ∀ (i : Nat) (call : TimedAnswer), tape[i]? = some call → i < course.calls.length →
        w.Undecided (t.afterCalls (tape.take i)) call.answer) ∨
    ∃ (i begun : Nat) (call : TimedAnswer) (outcome : Except ClientError Record),
      tape[i]? = some call ∧ course.calls[i]? = some begun ∧
      begun ≤ time ∧ time ≤ begun + call.delay ∧
      w.Decides (t.afterCalls (tape.take i)) call.answer outcome ∧ course.outcome = some outcome
  /-- A wait is cancelled by its token only, and as soon as no call is in flight. -/
  cause : course.outcome = some (.error .cancelled) →
    ∃ time, w.Fires token tape course time ∧ course.ended = max time (course.answered tape start)
  /-- Nothing else ends the wait but its time and the answers that decide. -/
  ending : ∀ outcome, course.outcome = some outcome →
    outcome = .error .cancelled ∨
      outcome = .error (.timedOut w.timeout) ∧ w.timeout ≤ course.ended ∨
      ∃ i call, tape[i]? = some call ∧ course.EndsAt i outcome ∧
        w.Decides (t.afterCalls (tape.take i)) call.answer outcome
  /-- A wait that still goes on has not seen the token fire and has time left, and it has made a call
  for each answer that there is. -/
  unfinished : course.outcome = none →
    (∀ time, w.Fires token tape course time → course.ended < time) ∧
      course.ended < w.timeout ∧ course.calls.length = tape.length

section Fires

variable {w : Wait} {token : Option Nat} {tape rest : List TimedAnswer} {call : TimedAnswer}
  {course : Run} {now time : Nat} {t : Tracker} {outcome : Except ClientError Record}

theorem Fires.own_of_ending (h : w.Fires token tape (.ending outcome now t) time) :
    token = some time := by
  cases h with
  | own set => exact set
  | call cancellable fires at? begun? => simp at begun?

/-- With one call the token fires by itself, or when this call is answered. -/
theorem Fires.of_one_call {answered : Nat}
    (h : w.Fires token (call :: rest) (.prepend now (.ending outcome answered t)) time) :
    token = some time ∨ time = now + call.delay := by
  cases h with
  | own set => exact .inl set
  | @call i begun other cancellable fires at? begun? =>
    cases i with
    | zero =>
      obtain rfl := Option.some.inj at?
      obtain rfl := Option.some.inj begun?
      exact .inr rfl
    | succ i => simp at begun?

theorem fires_of_tokenAfter (after : w.tokenAfter call now token = some time) :
    w.Fires token (call :: rest) (.prepend now course) time := by
  have first : (course.prepend now).calls[0]? = some now := rfl
  unfold tokenAfter at after
  split at after
  · rename_i fires
    unfold fire at after
    split at after
    · rename_i cancellable
      have byCall : w.Fires token (call :: rest) (.prepend now course) (now + call.delay) :=
        .call cancellable fires rfl first
      cases set : token with
      | none =>
        rw [set] at after byCall
        obtain rfl := Option.some.inj after
        exact byCall
      | some own =>
        rw [set] at after byCall
        have least : min (now + call.delay) own = time := Option.some.inj after
        rcases Nat.le_total (now + call.delay) own with le | le
        · rw [Nat.min_eq_left le] at least
          exact least ▸ byCall
        · rw [Nat.min_eq_right le] at least
          exact .own (congrArg some least)
    · exact .own after
  · exact .own after

theorem fires_prepend_iff (silent : w.cancellable = false ∨ call.firesToken = false) :
    w.Fires token (call :: rest) (course.prepend now) time ↔ w.Fires token rest course time := by
  constructor
  · intro h
    cases h with
    | own set => exact .own set
    | @call i begun other cancellable fires at? begun? =>
      cases i with
      | zero =>
        obtain rfl := Option.some.inj at?
        exact absurd silent (not_silent cancellable fires)
      | succ i => exact .call cancellable fires at? begun?
  · intro h
    cases h with
    | own set => exact .own set
    | @call i begun other cancellable fires at? begun? =>
      exact .call (i := i + 1) cancellable fires at? begun?

/-- Where there is an answer, the start does not count for the last one. -/
theorem Run.answered_of_call {i begun : Nat} (at? : tape[i]? = some call)
    (begun? : course.calls[i]? = some begun) (start start' : Nat) :
    course.answered tape start = course.answered tape start' := by
  have mem : (begun, call) ∈ course.calls.zip tape := by
    refine List.mem_of_getElem? (i := i) ?_
    rw [List.getElem?_zip_eq_some]
    exact ⟨begun?, at?⟩
  unfold Run.answered
  cases zipped : course.calls.zip tape with
  | nil =>
    rw [zipped] at mem
    cases mem
  | cons first others => rw [List.map_cons, List.getLastD_cons, List.getLastD_cons]

end Fires

section Course

variable {w : Wait} {token : Option Nat} {t : Tracker} {now : Nat} {tape : List TimedAnswer}
  {course : Run}

/-- A token that has not fired yet fires later. -/
theorem lt_of_unfired {time : Nat} (unfired : hasFired token now = false)
    (set : token = some time) : now < time := by
  rw [set] at unfired
  exact hasFired_some_eq_false.1 unfired

theorem Course.calls_lt (h : w.Course token t now tape course) {time : Nat}
    (set : token = some time) : ∀ begun ∈ course.calls, begun < time := by
  induction h with
  | cancelled fired => simp
  | timedOut unfired late => simp
  | unanswered unfired early => simp
  | decided unfired early decides => simpa using lt_of_unfired unfired set
  | interrupted unfired early resumes fires within => simpa using lt_of_unfired unfired set
  | resumed unfired early resumes silent stays later ih =>
    simpa using ⟨lt_of_unfired unfired set, ih⟩

theorem Course.last (h : w.Course token t now tape course) {i : Nat} {call : TimedAnswer}
    (at? : tape[i]? = some call) (made : i < course.calls.length)
    (cancellable : w.cancellable = true) (fires : call.firesToken = true) :
    i + 1 = course.calls.length := by
  rcases h.at_call at? made with ⟨outcome, -, ⟨last, -⟩, -⟩ | ⟨-, last | silent⟩
  · exact last
  · exact last
  · exact absurd silent (not_silent cancellable fires)

/-- The call that is in flight when the token fires is the last, so that the wait is cancelled if
this call does not decide. -/
theorem Course.decided_of_fired (h : w.Course token t now tape course) {time : Nat}
    (fired : w.Fires token tape course time) (reached : time ≤ course.ended) :
    course.outcome = some (.error .cancelled) ∨
    ∃ (i begun : Nat) (call : TimedAnswer) (outcome : Except ClientError Record),
      tape[i]? = some call ∧ course.calls[i]? = some begun ∧
      begun ≤ time ∧ time ≤ begun + call.delay ∧
      w.Decides (t.afterCalls (tape.take i)) call.answer outcome ∧
      course.outcome = some outcome := by
  induction h with
  | cancelled => exact .inl rfl
  | timedOut unfired late =>
    exact absurd (lt_of_unfired unfired fired.own_of_ending) (Nat.not_lt.2 reached)
  | unanswered unfired early =>
    cases fired with
    | own set => exact absurd (lt_of_unfired unfired set) (Nat.not_lt.2 reached)
    | call cancellable fires at? begun? => simp at at?
  | @decided t now call rest outcome unfired early decides =>
    refine .inr ⟨0, now, call, outcome, rfl, rfl, ?_, reached, decides, rfl⟩
    rcases fired.of_one_call with set | rfl
    · exact Nat.le_of_lt (lt_of_unfired unfired set)
    · exact Nat.le_add_right _ _
  | interrupted => exact .inl rfl
  | resumed unfired early resumes silent stays later ih =>
    rcases ih ((fires_prepend_iff silent).1 fired) reached with cancelled |
      ⟨i, begun, call, outcome, at?, begun?, decided⟩
    · exact .inl cancelled
    · exact .inr ⟨i + 1, begun, call, outcome, at?, begun?, decided⟩

theorem Course.cause (h : w.Course token t now tape course)
    (cancelled : course.outcome = some (.error .cancelled)) :
    ∃ time, w.Fires token tape course time ∧ course.ended = max time (course.answered tape now) := by
  induction h with
  | @cancelled t now tape fired =>
    obtain ⟨time, set, past⟩ := hasFired_iff.1 fired
    exact ⟨time, .own set, (Nat.max_eq_right past).symm⟩
  | timedOut unfired late => cases cancelled
  | unanswered unfired early => cases cancelled
  | decided unfired early decides => exact absurd (Option.some.inj cancelled) decides.ne_cancelled
  | @interrupted t now next time call rest unfired early resumes after within =>
    exact ⟨time, fires_of_tokenAfter after, rfl⟩
  | @resumed t now next call rest course unfired early resumes silent stays later ih =>
    obtain ⟨time, fired, ended⟩ := ih cancelled
    refine ⟨time, (fires_prepend_iff silent).2 fired, ?_⟩
    rw [Run.answered_prepend]
    refine ended.trans ?_
    -- The last answer is that of the rest; if the rest has none, the token fires after the pause.
    cases fired with
    | own set =>
      have after := lt_of_unfired stays set
      have answered := resumes.le
      exact course.max_answered (by omega)
    | call cancellable fires at? begun? =>
      rw [Run.answered_of_call at? begun? next (now + call.delay)]

/-- What the rules say of the token. -/
theorem Course.cancellation (h : w.Course token t now tape course) :
    w.Cancellation token t now tape course where
  calls_lt _ set := h.calls_lt set
  last _ _ at? made := h.last at? made
  fired time fired reached := by
    rcases h.decided_of_fired fired reached with cancelled | decided
    · refine .inl ⟨cancelled, fun i call at? made => ?_⟩
      rcases h.judged at? made with undecided | ⟨outcome, ends, decides⟩
      · exact undecided
      · exact absurd (Option.some.inj (ends.symm.trans cancelled)) decides.ne_cancelled
    · exact .inr decided
  cause := h.cause
  begins := h.begins
  resumes _ _ _ := h.resumes
  ending outcome ends := by
    rcases h.endsAt_of_outcome ends with cancelled | rfl | decided
    · exact .inl cancelled
    · have ended := (h.timedOut_ended ends).2
      exact .inr (.inl ⟨rfl, ended ▸ Nat.le_max_left _ _⟩)
    · exact .inr (.inr decided)
  unfinished goesOn := by
    obtain ⟨answers, left⟩ := h.unfinished goesOn
    refine ⟨fun time fired => Nat.not_le.1 fun reached => ?_, left, answers⟩
    rcases h.decided_of_fired fired reached with
      cancelled | ⟨i, begun, call, outcome, -, -, -, -, -, ends⟩
    · cases goesOn.symm.trans cancelled
    · cases goesOn.symm.trans ends

end Course

/-- A wait obeys its token: no call is begun once it has fired, and the wait ends then, cancelled
unless a call in flight decides. It does not give up after that, even if its time is up as well, and
it does not matter which of the token and the end of a pause it sees first. -/
theorem run_obeys_its_token (w : Wait) (tokenFirst : Nat → Bool) (tape : List TimedAnswer)
    (token : Option Nat) (t : Tracker) :
    w.Cancellation token t 0 tape (w.run tokenFirst tape 0 token t) ∧
      (∀ timeout, (w.run tokenFirst tape 0 token t).outcome = some (.error (.timedOut timeout)) →
        ∀ time, w.Fires token tape (w.run tokenFirst tape 0 token t) time →
          (w.run tokenFirst tape 0 token t).ended < time) ∧
      ∀ otherFirst, w.run otherFirst tape 0 token t = w.run tokenFirst tape 0 token t := by
  have course := w.course_of_run tokenFirst tape 0 token t
  refine ⟨course.cancellation, fun timeout ends time fired => ?_, course.run_eq⟩
  refine Nat.not_le.1 fun reached => ?_
  rcases course.decided_of_fired fired reached with cancelled | ⟨i, begun, call, outcome, decided⟩
  · cases cancelled.symm.trans ends
  · obtain ⟨-, -, -, -, decides, outcomeEq⟩ := decided
    exact decides.ne_timedOut timeout (Option.some.inj (outcomeEq.symm.trans ends))

namespace Sample

/-- The wait whose last pause is cut by its time, with a token. -/
def cancellableWait : Wait := { unevenWait with cancellable := true }

/-- The course if the token fires just when the last pause and the time of the wait are over. -/
def cancelledCourse : Run := ⟨some (.error .cancelled), 1000, [0, 430, 440, 860], ⟨2, ⟨7, 9⟩⟩⟩

end Sample

theorem run_cancelled_at_its_deadline :
    Sample.cancellableWait.run (fun _ => true) Sample.unevenTape 0 (some 1000) Sample.tracker =
        Sample.cancelledCourse ∧
      Sample.cancellableWait.run (fun _ => false) Sample.unevenTape 0 (some 1000) Sample.tracker =
        Sample.cancelledCourse ∧
      Sample.cancellableWait.Cancellation (some 1000) Sample.tracker 0 Sample.unevenTape
        Sample.cancelledCourse := by
  have obeys := run_obeys_its_token Sample.cancellableWait (fun _ => true) Sample.unevenTape
    (some 1000) Sample.tracker
  exact ⟨rfl, obeys.2.2 fun _ => false, obeys.1⟩

end LedgerClient.Wait
