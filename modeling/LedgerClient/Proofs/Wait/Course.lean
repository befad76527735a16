import LedgerClient.Proofs.Wait.Decision

/-!
# The course of a wait

The loop of a wait comes round when it begins a call, and once more when it finds a reason to stop.
After a stale answer it comes round at once, and after an empty one when the pause is over, which ends
with the time of the wait at the latest (`Resumes`).

`Course` gives the rules by which a wait takes its course, whether or not its token fires: one rule
for each way to end without a further call, and one for each thing that an answer can lead to. The
rules do not say which of the token and the end of the pause is seen when both are ready, because
nothing hangs on it: there is one course (`exists_course`), and it is that of `Wait.run` for either
choice (`Course.run_eq`). What is proved of courses by induction on the rules therefore holds of
every run (`course_of_run`).

An answer that decides is the last one, and the wait ends with what it decides
(`Course.endsAt_of_decides`). Without one the wait is cancelled or its time is up
(`Course.endsAt_of_outcome`), or else it has used up the answers of its tape and still has time left
(`Course.unfinished`).
-/

set_option autoImplicit false

namespace LedgerClient.Wait

/-- When the loop comes round after an answer that leaves the wait undecided. -/
inductive Resumes (w : Wait) (t : Tracker) (answered : Nat) :
    Answer (Option Record) → Nat → Prop where
  | stale {response : Response (Option Record)}
      (outdated : t.Outdated response.chainId response.state) :
      Resumes w t answered (.ok response) answered
  | absent {response : Response (Option Record)}
      (accepted : t.Accepts response.chainId response.state)
      (empty : response.result = none)
      (early : response.state.timestamp.toNat < w.deadline) :
      Resumes w t answered (.ok response)
        (answered + min w.pollInterval (w.timeout - answered))

/-- The token when a call that began at `now` has been answered. -/
def tokenAfter (w : Wait) (call : TimedAnswer) (now : Nat) (token : Option Nat) : Option Nat :=
  if call.firesToken then w.fire token (now + call.delay) else token

/-- The rules for the rest of a wait that stands at `now`. -/
inductive Course (w : Wait) (token : Option Nat) :
    Tracker → Nat → List TimedAnswer → Run → Prop where
  /-- The token is looked at before the clock. -/
  | cancelled {t : Tracker} {now : Nat} {tape : List TimedAnswer}
      (fired : hasFired token now = true) :
      Course w token t now tape (.ending (.error .cancelled) now t)
  | timedOut {t : Tracker} {now : Nat} {tape : List TimedAnswer}
      (unfired : hasFired token now = false) (late : w.timeout ≤ now) :
      Course w token t now tape (.ending (.error (.timedOut w.timeout)) now t)
  /-- The tape ends and the wait does not. -/
  | unanswered {t : Tracker} {now : Nat} (unfired : hasFired token now = false)
      (early : now < w.timeout) :
      Course w token t now [] ⟨none, now, [], t⟩
  | decided {t : Tracker} {now : Nat} {call : TimedAnswer} {rest : List TimedAnswer}
      {outcome : Except ClientError Record} (unfired : hasFired token now = false)
      (early : now < w.timeout) (decides : w.Decides t call.answer outcome) :
      Course w token t now (call :: rest)
        (.prepend now (.ending outcome (now + call.delay) (t.receive call.answer).2))
  /-- The token fires before the loop comes round: in the call, or in the pause behind it. -/
  | interrupted {t : Tracker} {now next time : Nat} {call : TimedAnswer}
      {rest : List TimedAnswer} (unfired : hasFired token now = false) (early : now < w.timeout)
      (resumes : w.Resumes t (now + call.delay) call.answer next)
      (fires : w.tokenAfter call now token = some time) (within : time ≤ next) :
      Course w token t now (call :: rest)
        (.prepend now
          (.ending (.error .cancelled) (max time (now + call.delay)) (t.receive call.answer).2))
  | resumed {t : Tracker} {now next : Nat} {call : TimedAnswer} {rest : List TimedAnswer}
      {course : Run} (unfired : hasFired token now = false) (early : now < w.timeout)
      (resumes : w.Resumes t (now + call.delay) call.answer next)
      (silent : w.cancellable = false ∨ call.firesToken = false)
      (stays : hasFired token next = false)
      (later : Course w token (t.receive call.answer).2 next rest course) :
      Course w token t now (call :: rest) (.prepend now course)

/-- The answer to this call, counted from zero, is the last one, and the wait ends so. -/
def Run.EndsAt (course : Run) (i : Nat) (outcome : Except ClientError Record) : Prop :=
  i + 1 = course.calls.length ∧ course.outcome = some outcome

section Step

variable {w : Wait} {t : Tracker} {call : TimedAnswer} {answer : Answer (Option Record)}
  {tokenFirst : Nat → Bool} {token : Option Nat} {now next answered time : Nat}
  {outcome : Except ClientError Record}

/-- The pause does not move the later of the deadline and the answer. -/
theorem Resumes.max_eq (resumes : w.Resumes t now answer next) :
    max w.timeout next = max w.timeout now := by
  cases resumes with
  | stale outdated => rfl
  | absent accepted empty early => omega

theorem Undecided.resumes (undecided : w.Undecided t answer) (answered : Nat) :
    ∃ next, w.Resumes t answered answer next := by
  cases undecided with
  | stale outdated => exact ⟨_, .stale outdated⟩
  | absent accepted empty early => exact ⟨_, .absent accepted empty early⟩

theorem tokenAfter_of_silent (silent : w.cancellable = false ∨ call.firesToken = false) (now : Nat)
    (token : Option Nat) : w.tokenAfter call now token = token := by
  rcases silent with closed | silent
  · simp [tokenAfter, fire, closed]
  · simp [tokenAfter, silent]

/-- After an answer that is stale the wait asks again at once; after one that is empty it pauses,
unless the token cuts the pause short. -/
theorem turn_of_resumes (tokenFirst : Nat → Bool) (token : Option Nat)
    (resumes : w.Resumes t (now + call.delay) call.answer next) :
    w.turn tokenFirst call now token t =
        .again next (w.tokenAfter call now token) (t.receive call.answer).2 ∧
        next = now + call.delay ∨
      next = now + call.delay + w.pause (now + call.delay) ∧
        w.turn tokenFirst call now token t =
          match w.interruption? tokenFirst (w.tokenAfter call now token) (now + call.delay) with
          | some time => .over (.error .cancelled) time (t.receive call.answer).2
          | none => .again next (w.tokenAfter call now token) (t.receive call.answer).2 := by
  obtain ⟨delay, firesToken, answer⟩ := call
  cases resumes with
  | stale outdated =>
    refine .inl ⟨?_, rfl⟩
    simp [turn, outdated, hear, ClientError.isStale, tokenAfter]
  | absent accepted empty early =>
    refine .inr ⟨rfl, ?_⟩
    simp only [turn, Tracker.receive_accepted accepted, empty, hear, expiry?_of_early early,
      tokenAfter]
    rfl

/-- The same answer cannot let the wait go on and end it. -/
theorem Undecided.not_decides (undecided : w.Undecided t answer) :
    ¬ w.Decides t answer outcome := by
  intro decides
  have goesOn : w.Undecided t (TimedAnswer.mk 0 false answer).answer := undecided
  have ends : w.Decides t (TimedAnswer.mk 0 false answer).answer outcome := decides
  obtain ⟨later, -, again⟩ := turn_undecided (fun _ => false) 0 goesOn (.inr rfl)
  cases again.symm.trans (turn_decided (fun _ => false) 0 none ends)

/-- No answer has the wait give up. -/
theorem Decides.ne_timedOut (decides : w.Decides t answer outcome) (timeout : Nat) :
    outcome ≠ .error (.timedOut timeout) := by
  cases decides <;> exact nofun

/-- No answer cancels a wait. -/
theorem Decides.ne_cancelled (decides : w.Decides t answer outcome) :
    outcome ≠ .error .cancelled := by
  cases decides <;> exact nofun

theorem hasFired_iff : hasFired token now = true ↔ ∃ time, token = some time ∧ time ≤ now := by
  cases token <;> simp [hasFired]

theorem hasFired_some_eq_false : hasFired (some time) now = false ↔ now < time := by
  simp [hasFired]

theorem stop?_of_fired (fired : hasFired token now = true) :
    w.stop? now token = some .cancelled := by
  rw [stop?, if_pos fired]

theorem Run.EndsAt.prepend {course : Run} {i : Nat} {outcome : Except ClientError Record}
    (h : course.EndsAt i outcome) : (course.prepend now).EndsAt (i + 1) outcome :=
  ⟨congrArg Nat.succ h.1, h.2⟩

/-- The same answer cannot end the wait in two ways. -/
theorem Decides.unique {outcome other : Except ClientError Record}
    (decides : w.Decides t answer outcome) (decides' : w.Decides t answer other) :
    outcome = other := by
  have ends : w.Decides t (TimedAnswer.mk 0 false answer).answer outcome := decides
  have ends' : w.Decides t (TimedAnswer.mk 0 false answer).answer other := decides'
  have first := turn_decided (fun _ => false) 0 none ends
  exact (Turn.over.inj (first.symm.trans (turn_decided (fun _ => false) 0 none ends'))).1

/-- With one call there is only the first. -/
theorem Run.eq_zero_of_one_call {outcome : Except ClientError Record} {i : Nat}
    (made : i < (Run.prepend now (.ending outcome answered t)).calls.length) : i = 0 :=
  Nat.lt_one_iff.1 made

theorem Resumes.undecided (resumes : w.Resumes t answered answer next) : w.Undecided t answer := by
  cases resumes with
  | stale outdated => exact .stale outdated
  | absent accepted empty early => exact .absent accepted empty early

theorem Resumes.le (resumes : w.Resumes t answered answer next) : answered ≤ next := by
  cases resumes with
  | stale outdated => exact Nat.le_refl _
  | absent accepted empty early => exact Nat.le_add_right _ _

/-- A call that can fire the token and does is not silent. -/
theorem not_silent (cancellable : w.cancellable = true) (fires : call.firesToken = true) :
    ¬ (w.cancellable = false ∨ call.firesToken = false) := by
  rw [cancellable, fires]
  exact nofun

/-- A call that can fire the token has fired it by the time it is answered. -/
theorem tokenAfter_of_fires (cancellable : w.cancellable = true) (fires : call.firesToken = true)
    (now : Nat) (token : Option Nat) :
    ∃ time, w.tokenAfter call now token = some time ∧ time ≤ now + call.delay := by
  rw [tokenAfter, if_pos fires, fire, if_pos cancellable]
  refine ⟨_, rfl, ?_⟩
  cases token with
  | none => exact Nat.le_refl _
  | some time => exact Nat.min_le_left _ _

theorem silent_of_unfired (unfired : hasFired (w.tokenAfter call now token) next = false)
    (le : now + call.delay ≤ next) : w.cancellable = false ∨ call.firesToken = false := by
  cases closed : w.cancellable with
  | false => exact .inl rfl
  | true =>
    cases fires : call.firesToken with
    | false => exact .inr rfl
    | true =>
      obtain ⟨time, fired, answered⟩ := tokenAfter_of_fires closed fires now token
      rw [hasFired_iff.2 ⟨time, fired, Nat.le_trans answered le⟩] at unfired
      cases unfired

/-- A token that fires by the end of the pause cuts it short, or is ready when it ends. -/
theorem interruption?_of_fires (tokenFirst : Nat → Bool)
    (within : time ≤ answered + w.pause answered) :
    w.interruption? tokenFirst (some time) answered = some (max time answered) ∨
      w.interruption? tokenFirst (some time) answered = none ∧
        max time answered = answered + w.pause answered := by
  unfold interruption?
  by_cases cut : (max time answered < answered + w.pause answered ||
      (max time answered == answered + w.pause answered && tokenFirst answered)) = true
  · exact .inl (if_pos cut)
  · refine .inr ⟨if_neg cut, ?_⟩
    simp only [Bool.or_eq_true, decide_eq_true_eq, not_or] at cut
    omega

theorem interruption?_of_unfired (unfired : hasFired token (answered + w.pause answered) = false) :
    w.interruption? tokenFirst token answered = none := by
  cases token with
  | none => rfl
  | some time =>
    have later := hasFired_some_eq_false.1 unfired
    have notCut : ¬ max time answered < answered + w.pause answered := by omega
    have notReady : ¬ max time answered = answered + w.pause answered := by omega
    simp [interruption?, notCut, notReady]

end Step

section Rules

variable {w : Wait} {t : Tracker} {token : Option Nat} {now : Nat} {tape : List TimedAnswer}
  {course : Run}

/-- Every wait has a course. The induction is on the tape; the token stays the same from one call to
the next, because a call that fires it is the last. -/
theorem exists_course (w : Wait) (token : Option Nat) (t : Tracker) (now : Nat)
    (tape : List TimedAnswer) : ∃ course, w.Course token t now tape course := by
  induction tape generalizing t now with
  | nil =>
    cases fired : hasFired token now with
    | true => exact ⟨_, .cancelled fired⟩
    | false =>
      rcases Nat.lt_or_ge now w.timeout with early | late
      · exact ⟨_, .unanswered fired early⟩
      · exact ⟨_, .timedOut fired late⟩
  | cons call rest ih =>
    cases fired : hasFired token now with
    | true => exact ⟨_, .cancelled fired⟩
    | false =>
      rcases Nat.lt_or_ge now w.timeout with early | late
      · rcases w.undecided_or_decides t call.answer with undecided | ⟨outcome, decides⟩
        · obtain ⟨next, resumes⟩ := undecided.resumes (now + call.delay)
          cases within : hasFired (w.tokenAfter call now token) next with
          | true =>
            obtain ⟨time, fires, within⟩ := hasFired_iff.1 within
            exact ⟨_, .interrupted fired early resumes fires within⟩
          | false =>
            have silent := silent_of_unfired within resumes.le
            rw [tokenAfter_of_silent silent] at within
            obtain ⟨course, later⟩ := ih (t.receive call.answer).2 next
            exact ⟨_, .resumed fired early resumes silent within later⟩
        · exact ⟨_, .decided fired early decides⟩
      · exact ⟨_, .timedOut fired late⟩

/-- The rules describe `Wait.run`, whichever of the token and the end of the pause it sees first. The
induction is on the rules. Where both are ready the pause may end undisturbed, and then the token is
found when the loop comes round. -/
theorem Course.run_eq (h : w.Course token t now tape course) (tokenFirst : Nat → Bool) :
    w.run tokenFirst tape now token t = course := by
  induction h with
  | cancelled fired => exact run_of_stop? (stop?_of_fired fired) _
  | timedOut unfired late => exact run_of_stop? (stop?_of_late unfired late) _
  | unanswered unfired early => simp only [run, stop?_of_before unfired early]
  | decided unfired early decides =>
    simp only [run, stop?_of_before unfired early, turn_decided tokenFirst _ _ decides]
  | @interrupted t now next time call rest unfired early resumes fires within =>
    have begins : w.stop? now token = none := stop?_of_before unfired early
    have found := stop?_of_fired (w := w) (hasFired_iff.2 ⟨time, rfl, within⟩)
    rcases turn_of_resumes tokenFirst token resumes with ⟨again, rfl⟩ | ⟨rfl, turned⟩
    · have ready : max time (now + call.delay) = now + call.delay := Nat.max_eq_right within
      simp only [run, begins, again, fires, run_of_stop? found, ready]
    · rw [fires] at turned
      rcases interruption?_of_fires tokenFirst within with cut | ⟨undisturbed, ready⟩
      · rw [cut] at turned
        simp only [run, begins, turned]
      · rw [undisturbed] at turned
        simp only [run, begins, turned, run_of_stop? found, ready]
  | @resumed t now next call rest course unfired early resumes silent stays later ih =>
    have begins : w.stop? now token = none := stop?_of_before unfired early
    have same := tokenAfter_of_silent silent now token
    rcases turn_of_resumes tokenFirst token resumes with ⟨again, rfl⟩ | ⟨rfl, turned⟩
    · simp only [run, begins, again, same, ih]
    · rw [same, interruption?_of_unfired stays] at turned
      simp only [run, begins, turned, ih]

/-- What holds of every course holds of every run. -/
theorem course_of_run (w : Wait) (tokenFirst : Nat → Bool) (tape : List TimedAnswer) (now : Nat)
    (token : Option Nat) (t : Tracker) :
    w.Course token t now tape (w.run tokenFirst tape now token t) := by
  obtain ⟨course, h⟩ := w.exists_course token t now tape
  rw [h.run_eq tokenFirst]
  exact h

/-- An answer decides, and the wait ends with it when it is given, or it leaves the wait undecided. The
wait goes on after it only if its call does not fire the token. -/
theorem Course.at_call (h : w.Course token t now tape course) {i : Nat} {call : TimedAnswer}
    (at? : tape[i]? = some call) (made : i < course.calls.length) :
    (∃ outcome, w.Decides (t.afterCalls (tape.take i)) call.answer outcome ∧
        course.EndsAt i outcome ∧
        ∀ begun, course.calls[i]? = some begun → course.ended = begun + call.delay) ∨
      w.Undecided (t.afterCalls (tape.take i)) call.answer ∧
        (i + 1 = course.calls.length ∨ w.cancellable = false ∨ call.firesToken = false) := by
  induction h generalizing i with
  | cancelled fired => simp at made
  | timedOut unfired late => simp at made
  | unanswered unfired early => simp at made
  | decided unfired early decides =>
    obtain rfl := Run.eq_zero_of_one_call made
    obtain rfl := Option.some.inj at?
    refine .inl ⟨_, decides, ⟨rfl, rfl⟩, fun begun begun? => ?_⟩
    obtain rfl := Option.some.inj begun?
    rfl
  | interrupted unfired early resumes fires within =>
    obtain rfl := Run.eq_zero_of_one_call made
    obtain rfl := Option.some.inj at?
    exact .inr ⟨resumes.undecided, .inl rfl⟩
  | resumed unfired early resumes silent stays later ih =>
    cases i with
    | zero =>
      obtain rfl := Option.some.inj at?
      exact .inr ⟨resumes.undecided, .inr silent⟩
    | succ i =>
      rcases ih at? (Nat.lt_of_succ_lt_succ made) with ⟨outcome, decides, endsAt, ended⟩ |
        ⟨undecided, quiet⟩
      · exact .inl ⟨outcome, decides, endsAt.prepend, ended⟩
      · exact .inr ⟨undecided, quiet.imp_left (congrArg Nat.succ)⟩

/-- Each answer is judged against the tracker as the answers before it left it: it leaves the wait
undecided, or it is the last one and the wait ends with it. -/
theorem Course.judged (h : w.Course token t now tape course) {i : Nat} {call : TimedAnswer}
    (at? : tape[i]? = some call) (made : i < course.calls.length) :
    w.Undecided (t.afterCalls (tape.take i)) call.answer ∨
      ∃ outcome, course.outcome = some outcome ∧
        w.Decides (t.afterCalls (tape.take i)) call.answer outcome := by
  rcases h.at_call at? made with ⟨outcome, decides, ⟨-, ends⟩, -⟩ | ⟨undecided, -⟩
  · exact .inr ⟨outcome, ends, decides⟩
  · exact .inl undecided

/-- An answer that decides is the last one. -/
theorem Course.endsAt_of_decides (h : w.Course token t now tape course) {i : Nat}
    {call : TimedAnswer} {outcome : Except ClientError Record} (at? : tape[i]? = some call)
    (made : i < course.calls.length)
    (decides : w.Decides (t.afterCalls (tape.take i)) call.answer outcome) :
    course.EndsAt i outcome := by
  rcases h.at_call at? made with ⟨other, decides', endsAt, -⟩ | ⟨undecided, -⟩
  · rwa [decides.unique decides']
  · exact absurd decides undecided.not_decides

/-- The wait does not outlast an answer that decides. -/
theorem Course.ended_of_decides (h : w.Course token t now tape course) {i begun : Nat}
    {call : TimedAnswer} {outcome : Except ClientError Record} (at? : tape[i]? = some call)
    (begun? : course.calls[i]? = some begun)
    (decides : w.Decides (t.afterCalls (tape.take i)) call.answer outcome) :
    course.ended = begun + call.delay := by
  have made : i < course.calls.length := (List.getElem?_eq_some_iff.1 begun?).1
  rcases h.at_call at? made with ⟨-, -, -, ended⟩ | ⟨undecided, -⟩
  · exact ended begun begun?
  · exact absurd decides undecided.not_decides

/-- A wait goes on until it ends: it makes a call for each answer that the tape holds. -/
theorem Course.unfinished (h : w.Course token t now tape course) (goesOn : course.outcome = none) :
    course.calls.length = tape.length ∧ course.ended < w.timeout := by
  induction h with
  | cancelled fired => simp at goesOn
  | timedOut unfired late => simp at goesOn
  | unanswered unfired early => exact ⟨rfl, early⟩
  | decided unfired early decides => simp at goesOn
  | interrupted unfired early resumes fires within => simp at goesOn
  | resumed unfired early resumes silent stays later ih =>
    obtain ⟨answers, left⟩ := ih goesOn
    exact ⟨congrArg Nat.succ answers, left⟩

/-- A wait that ends is cancelled, has its time up, or ends with what its last answer decides. -/
theorem Course.endsAt_of_outcome (h : w.Course token t now tape course)
    {outcome : Except ClientError Record} (ends : course.outcome = some outcome) :
    outcome = .error .cancelled ∨ outcome = .error (.timedOut w.timeout) ∨
      ∃ i call, tape[i]? = some call ∧ course.EndsAt i outcome ∧
        w.Decides (t.afterCalls (tape.take i)) call.answer outcome := by
  induction h with
  | cancelled fired => exact .inl (Option.some.inj ends).symm
  | timedOut unfired late => exact .inr (.inl (Option.some.inj ends).symm)
  | unanswered unfired early => cases ends
  | @decided t now call rest result unfired early decides =>
    obtain rfl : result = outcome := Option.some.inj ends
    exact .inr (.inr ⟨0, call, rfl, ⟨rfl, rfl⟩, decides⟩)
  | interrupted unfired early resumes fires within => exact .inl (Option.some.inj ends).symm
  | resumed unfired early resumes silent stays later ih =>
    rcases ih ends with cancelled | timedOut | ⟨i, call, at?, endsAt, decides⟩
    · exact .inl cancelled
    · exact .inr (.inl timedOut)
    · exact .inr (.inr ⟨i + 1, call, at?, endsAt.prepend, decides⟩)

end Rules

end LedgerClient.Wait
