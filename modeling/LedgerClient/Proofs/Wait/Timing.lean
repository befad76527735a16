import LedgerClient.Proofs.Wait.Course

/-!
# When a wait calls

The answers of a wait that nobody cancels say when its loop comes round, and so does the time of the
wait: no call is begun any more once it is up. From the answer to the last call and the time of the
wait one can tell when it gives up, because a pause does not move the later of the two
(`Resumes.max_eq`). All of this is proved by induction on the rules of `Course`, whether or not there
is a token, and put together for waits that nobody cancels in `Course.timing`.
-/

set_option autoImplicit false

namespace LedgerClient.Wait

namespace Run

/-- When the loop comes round, up to the end of the wait. -/
def rounds (course : Run) : List Nat := course.calls ++ [course.ended]

/-- When the last call is answered, or the start if there is no call. -/
def answered (course : Run) (tape : List TimedAnswer) (start : Nat) : Nat :=
  ((course.calls.zip tape).map fun (begun, call) => begun + call.delay).getLastD start

/-- Whether there is a call that has begun by this time and is answered only after it. -/
def InFlight (course : Run) (tape : List TimedAnswer) (time : Nat) : Prop :=
  ∃ begun call, (begun, call) ∈ course.calls.zip tape ∧ begun < time ∧ time < begun + call.delay

@[simp] theorem rounds_ending (outcome : Except ClientError Record) (now : Nat) (t : Tracker) :
    (ending outcome now t).rounds = [now] := rfl

@[simp] theorem rounds_prepend (course : Run) (now : Nat) :
    (course.prepend now).rounds = now :: course.rounds := rfl

@[simp] theorem answered_ending (outcome : Except ClientError Record) (now start : Nat)
    (t : Tracker) (tape : List TimedAnswer) :
    (ending outcome now t).answered tape start = start := rfl

@[simp] theorem answered_prepend (course : Run) (call : TimedAnswer) (rest : List TimedAnswer)
    (now start : Nat) :
    (course.prepend now).answered (call :: rest) start =
      course.answered rest (now + call.delay) :=
  List.getLastD_cons

/-- Starts that a bound does not tell apart give last answers that it does not tell apart. -/
theorem max_answered (course : Run) {tape : List TimedAnswer} {bound start now : Nat}
    (same : max bound start = max bound now) :
    max bound (course.answered tape start) = max bound (course.answered tape now) := by
  unfold answered
  cases (course.calls.zip tape).map fun (begun, call) => begun + call.delay with
  | nil => exact same
  | cons first later => rw [List.getLastD_cons, List.getLastD_cons]

/-- What is answered by some time is answered by then at the last. -/
theorem answered_le {course : Run} {tape : List TimedAnswer} {start time : Nat}
    (begins : start ≤ time)
    (calls : ∀ begun call, (begun, call) ∈ course.calls.zip tape → begun + call.delay ≤ time) :
    course.answered tape start ≤ time := by
  unfold answered
  rw [List.getLastD_eq_getLast?]
  cases last : ((course.calls.zip tape).map fun (begun, call) => begun + call.delay).getLast? with
  | none => exact begins
  | some time' =>
    obtain ⟨⟨begun, call⟩, mem, rfl⟩ := List.mem_map.1 (List.mem_of_getLast? last)
    exact calls begun call mem

end Run

/-- The times of a wait that is begun at `start` and that nobody cancels. -/
structure Timing (w : Wait) (t : Tracker) (tape : List TimedAnswer) (start : Nat) (course : Run) :
    Prop where
  begins : course.rounds[0]? = some start
  /-- No call is begun when the time of the wait is up. -/
  calls_lt : ∀ begun ∈ course.calls, begun < w.timeout
  /-- Answers that decide nothing settle when the loop comes round next. -/
  resumes : ∀ (i : Nat) (call : TimedAnswer) (begun : Nat), tape[i]? = some call →
    course.calls[i]? = some begun → w.Undecided (t.afterCalls (tape.take i)) call.answer →
    ∃ next, course.rounds[i + 1]? = some next ∧
      w.Resumes (t.afterCalls (tape.take i)) (begun + call.delay) call.answer next
  /-- An answer that decides ends the wait when it is given. -/
  decides : ∀ (i : Nat) (call : TimedAnswer) (begun : Nat) (outcome : Except ClientError Record),
    tape[i]? = some call → course.calls[i]? = some begun →
    w.Decides (t.afterCalls (tape.take i)) call.answer outcome →
    course.EndsAt i outcome ∧ course.ended = begun + call.delay
  /-- Nothing ends the wait but its time and the answers that decide. -/
  ending : ∀ outcome, course.outcome = some outcome →
    outcome = .error (.timedOut w.timeout) ∨
      ∃ i call, tape[i]? = some call ∧ course.EndsAt i outcome ∧
        w.Decides (t.afterCalls (tape.take i)) call.answer outcome
  /-- The wait gives up when its time is over and its last call is answered, not before. -/
  timedOut : ∀ timeout, course.outcome = some (.error (.timedOut timeout)) →
    timeout = w.timeout ∧ course.ended = max w.timeout (course.answered tape start)
  /-- And it does give up then: a wait that still goes on has time left, and has made a call for each
  answer that there is. -/
  unfinished : course.outcome = none →
    course.calls.length = tape.length ∧ course.ended < w.timeout

section Rules

variable {w : Wait} {token : Option Nat} {t : Tracker} {now : Nat} {tape : List TimedAnswer}
  {course : Run}

theorem Course.begins (h : w.Course token t now tape course) : course.rounds[0]? = some now := by
  cases h with
  | unanswered unfired early => rfl
  | _ => simp

theorem Course.calls_lt_timeout (h : w.Course token t now tape course) :
    ∀ begun ∈ course.calls, begun < w.timeout := by
  induction h with
  | cancelled fired => simp
  | timedOut unfired late => simp
  | unanswered unfired early => simp
  | decided unfired early decides => simpa using early
  | interrupted unfired early resumes fires within => simpa using early
  | resumed unfired early resumes silent stays later ih => simpa using ⟨early, ih⟩

/-- After an answer that decides nothing the loop comes round, unless the token fires by then. -/
theorem Course.resumes (h : w.Course token t now tape course) {i begun : Nat} {call : TimedAnswer}
    (at? : tape[i]? = some call) (begun? : course.calls[i]? = some begun)
    (undecided : w.Undecided (t.afterCalls (tape.take i)) call.answer) :
    ∃ next, w.Resumes (t.afterCalls (tape.take i)) (begun + call.delay) call.answer next ∧
      (course.rounds[i + 1]? = some next ∨
        course.EndsAt i (.error .cancelled) ∧ course.ended ≤ next) := by
  induction h generalizing i with
  | cancelled fired => simp at begun?
  | timedOut unfired late => simp at begun?
  | unanswered unfired early => simp at begun?
  | decided unfired early decides =>
    cases i with
    | zero =>
      obtain rfl := Option.some.inj at?
      exact absurd decides undecided.not_decides
    | succ i => simp at begun?
  | @interrupted t now next time first rest unfired early resumes fires within =>
    cases i with
    | zero =>
      obtain rfl := Option.some.inj at?
      obtain rfl := Option.some.inj begun?
      exact ⟨next, resumes, .inr ⟨⟨rfl, rfl⟩, Nat.max_le.2 ⟨within, resumes.le⟩⟩⟩
    | succ i => simp at begun?
  | @resumed t now next first rest course unfired early resumes silent stays later ih =>
    cases i with
    | zero =>
      obtain rfl := Option.some.inj at?
      obtain rfl := Option.some.inj begun?
      exact ⟨next, resumes, .inl (by simpa using later.begins)⟩
    | succ i =>
      obtain ⟨next, resumes, round | ⟨endsAt, within⟩⟩ := ih at? begun? undecided
      · exact ⟨next, resumes, .inl (by simpa using round)⟩
      · exact ⟨next, resumes, .inr ⟨endsAt.prepend, within⟩⟩

/-- The induction is on the rules; what carries it is that a pause ends by the time of the wait. -/
theorem Course.timedOut_ended (h : w.Course token t now tape course) {timeout : Nat}
    (ends : course.outcome = some (.error (.timedOut timeout))) :
    timeout = w.timeout ∧ course.ended = max w.timeout (course.answered tape now) := by
  induction h with
  | cancelled fired => simp at ends
  | timedOut unfired late =>
    obtain ⟨⟩ := ends
    simp [Nat.max_eq_right late]
  | unanswered unfired early => simp at ends
  | decided unfired early decides => exact absurd (Option.some.inj ends) (decides.ne_timedOut _)
  | interrupted unfired early resumes fires within => simp at ends
  | @resumed t now next call rest course unfired early resumes silent stays later ih =>
    obtain ⟨rfl, ended⟩ := ih ends
    refine ⟨rfl, ?_⟩
    rw [Run.answered_prepend, ← course.max_answered resumes.max_eq]
    exact ended

theorem Course.outcome_ne_cancelled (h : w.Course none t now tape course)
    (quiet : w.Uncancelled tape) : course.outcome ≠ some (.error .cancelled) := by
  induction h with
  | cancelled fired => cases fired
  | timedOut unfired late => simp
  | unanswered unfired early => simp
  | decided unfired early decides => simpa using decides.ne_cancelled
  | interrupted unfired early resumes fires within =>
    rw [tokenAfter_of_silent quiet.first] at fires
    cases fires
  | resumed unfired early resumes silent stays later ih => exact ih quiet.rest

/-- What the rules say of the times where nobody cancels. -/
theorem Course.timing (h : w.Course none t now tape course) (quiet : w.Uncancelled tape) :
    w.Timing t tape now course where
  begins := h.begins
  calls_lt := h.calls_lt_timeout
  resumes i call begun at? begun? undecided := by
    obtain ⟨next, resumes, round | ⟨⟨-, cancelled⟩, -⟩⟩ := h.resumes at? begun? undecided
    · exact ⟨next, round, resumes⟩
    · exact absurd cancelled (h.outcome_ne_cancelled quiet)
  decides i call begun outcome at? begun? decides := by
    have made : i < course.calls.length := (List.getElem?_eq_some_iff.1 begun?).1
    exact ⟨h.endsAt_of_decides at? made decides, h.ended_of_decides at? begun? decides⟩
  ending outcome ends := by
    refine (h.endsAt_of_outcome ends).resolve_left fun cancelled => ?_
    exact h.outcome_ne_cancelled quiet (ends.trans (congrArg some cancelled))
  timedOut timeout := h.timedOut_ended
  unfinished := h.unfinished

end Rules

/-- A wait calls as long as its time lasts, and gives up at its end or, if a call is in flight then,
when this is answered. A wait that no answer decides does give up, unless the answers are used up
before its time is over. -/
theorem run_keeps_its_time (w : Wait) (tokenFirst : Nat → Bool) (tape : List TimedAnswer)
    (t : Tracker) (quiet : w.Uncancelled tape) :
    w.Timing t tape 0 (w.run tokenFirst tape 0 none t) ∧
      ((w.run tokenFirst tape 0 none t).outcome = some (.error (.timedOut w.timeout)) →
        ¬ (w.run tokenFirst tape 0 none t).InFlight tape w.timeout →
        (w.run tokenFirst tape 0 none t).ended = w.timeout) ∧
      ((∀ i call, tape[i]? = some call → i < (w.run tokenFirst tape 0 none t).calls.length →
          w.Undecided (t.afterCalls (tape.take i)) call.answer) →
        (w.run tokenFirst tape 0 none t).calls.length < tape.length ∨
          w.timeout ≤ (w.run tokenFirst tape 0 none t).ended →
        (w.run tokenFirst tape 0 none t).outcome = some (.error (.timedOut w.timeout))) ∧
      (w.timeout = 0 →
        w.run tokenFirst tape 0 none t = .ending (.error (.timedOut 0)) 0 t) := by
  have timing : w.Timing t tape 0 (w.run tokenFirst tape 0 none t) :=
    (w.course_of_run tokenFirst tape 0 none t).timing quiet
  refine ⟨timing, ?_, ?_, ?_⟩
  · intro ends landed
    have answered : (w.run tokenFirst tape 0 none t).answered tape 0 ≤ w.timeout := by
      refine Run.answered_le (Nat.zero_le _) fun begun call mem => Nat.not_lt.1 fun after => ?_
      exact landed ⟨begun, call, mem, timing.calls_lt begun (List.of_mem_zip mem).1, after⟩
    rw [(timing.timedOut w.timeout ends).2]
    exact Nat.max_eq_left answered
  · intro undecided enough
    cases ends : (w.run tokenFirst tape 0 none t).outcome with
    | none =>
      obtain ⟨answers, left⟩ := timing.unfinished ends
      omega
    | some outcome =>
      rcases timing.ending outcome ends with rfl | ⟨i, call, at?, ⟨last, -⟩, decides⟩
      · rfl
      · exact absurd decides (undecided i call at? (by omega)).not_decides
  · intro instant
    rw [run_of_late (Nat.le_of_eq instant), instant]

namespace Sample

/-- A wait whose time is no multiple of its poll interval. -/
def unevenWait : Wait := { wait with pollInterval := 400 }

/-- An empty answer, a stale one, and two that are empty again. -/
def unevenTape : List TimedAnswer :=
  [⟨30, false, .ok ⟨none, 2, ⟨6, 9⟩⟩⟩,
   ⟨10, false, .ok ⟨none, 2, ⟨5, 9⟩⟩⟩,
   ⟨20, false, .ok ⟨none, 2, ⟨6, 9⟩⟩⟩,
   ⟨50, false, .ok ⟨none, 2, ⟨7, 9⟩⟩⟩]

end Sample

theorem run_with_last_pause_cut :
    Sample.unevenWait.Uncancelled Sample.unevenTape ∧
      Sample.unevenWait.run (fun _ => false) Sample.unevenTape 0 none Sample.tracker =
        ⟨some (.error (.timedOut 1000)), 1000, [0, 430, 440, 860], ⟨2, ⟨7, 9⟩⟩⟩ ∧
      Sample.unevenWait.Timing Sample.tracker Sample.unevenTape 0
        (Sample.unevenWait.run (fun _ => false) Sample.unevenTape 0 none Sample.tracker) :=
  have quiet : Sample.unevenWait.Uncancelled Sample.unevenTape := .inl rfl
  ⟨quiet, rfl, (run_keeps_its_time Sample.unevenWait (fun _ => false) Sample.unevenTape
    Sample.tracker quiet).1⟩

end LedgerClient.Wait
