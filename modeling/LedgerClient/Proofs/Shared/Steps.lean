import LedgerClient.Proofs.Ledger.History

/-!
# Steps on a shared client

The tracker of a shared client has the history of all visits, in the order of the steps
(`Run.tracker_eq`), and a step moves only the wait that takes it (`Step.stage_of_ne`). A wait that
has the client to itself takes the steps that `Wait.run` describes: `run_is_shared_run` gives for
each of its courses the steps of a shared client that lead to the same outcome and the same tracker.
-/

set_option autoImplicit false

namespace LedgerClient

namespace SharedClient

variable {ι : Type} {waits : ι → Wait} {task : ι}

@[simp] theorem visits_append (events later : List (Event ι)) :
    visits (events ++ later) = visits events ++ visits later :=
  List.filterMap_append

@[simp] theorem trackerAfter_append (s : SharedClient ι) (events later : List (Event ι)) :
    s.trackerAfter (events ++ later) = (s.trackerAfter events).afterVisits (visits later) := by
  simp [trackerAfter]

section Order

variable [DecidableEq ι] {s s' s'' : SharedClient ι} {event : Event ι}
  {events later : List (Event ι)}

@[simp] theorem stage_move (s : SharedClient ι) (task : ι) (stage : Wait.Stage) (t : Tracker) :
    (s.move task stage t).stage task = stage := if_pos rfl

@[simp] theorem stage_move_of_ne {other : ι} (ne : other ≠ task) (stage : Wait.Stage) (t : Tracker) :
    (s.move task stage t).stage other = s.stage other := if_neg ne

theorem Step.tracker_eq (step : Step waits s event s') : s'.tracker = s.trackerAfter [event] := by
  cases step <;> rfl

/-- A wait moves by its own steps only. -/
theorem Step.stage_of_ne (step : Step waits s event s') (other : event.task? ≠ some task) :
    s'.stage task = s.stage task := by
  have apart : ∀ {mover : ι}, some mover ≠ some task → task ≠ mover :=
    fun ne same => ne (congrArg some same.symm)
  cases step with
  | visit v => rfl
  | hear answer polling => exact stage_move_of_ne (apart other) _ _
  | check unsettled => exact stage_move_of_ne (apart other) _ _
  | timeOut polling => exact stage_move_of_ne (apart other) _ _
  | cancel polling => exact stage_move_of_ne (apart other) _ _

/-- What a wait's own step makes of it. -/
theorem Step.own_cases (step : Step waits s event s') (own : event.task? = some task) :
    (∃ answer, event = .hear task answer ∧
        s'.stage task = .ofVerdict ((waits task).hear (s.tracker.receive answer).1)) ∨
      (event = .check task ∧ s.stage task = .unsettled ∧
        s'.stage task = .ofExpiry ((waits task).expiry? s.tracker.last)) ∨
      (event = .timeOut task ∧
        s'.stage task = .ended (.error (.timedOut (waits task).timeout))) ∨
      (event = .cancel task ∧ s'.stage task = .ended (.error .cancelled)) := by
  cases step with
  | visit v => cases own
  | hear answer polling =>
    obtain rfl := Option.some.inj own
    exact .inl ⟨answer, rfl, stage_move _ _ _ _⟩
  | check unsettled =>
    obtain rfl := Option.some.inj own
    exact .inr (.inl ⟨rfl, unsettled, stage_move _ _ _ _⟩)
  | timeOut polling =>
    obtain rfl := Option.some.inj own
    exact .inr (.inr (.inl ⟨rfl, stage_move _ _ _ _⟩))
  | cancel polling =>
    obtain rfl := Option.some.inj own
    exact .inr (.inr (.inr ⟨rfl, stage_move _ _ _ _⟩))

/-- The last step of a wait on the way to the stage where it stands. The induction is on the run;
what carries it is that the steps of others leave the stage alone. -/
theorem Run.last_own_step {stage : Wait.Stage} (run : Run waits s events s')
    (reached : s'.stage task = stage) (moved : s.stage task ≠ stage) :
    ∃ before event after mid mid', events = before ++ event :: after ∧ Run waits s before mid ∧
      Step waits mid event mid' ∧ event.task? = some task ∧ mid'.stage task = stage ∧
      ∀ later ∈ after, later.task? ≠ some task := by
  induction run with
  | nil => exact absurd reached moved
  | @snoc events mid mid' event run step ih =>
    by_cases own : event.task? = some task
    · exact ⟨events, event, [], mid, mid', rfl, run, step, own, reached, List.forall_mem_nil _⟩
    · rw [step.stage_of_ne own] at reached
      obtain ⟨before, last, after, first, second, rfl, rest, step, mine, stage, others⟩ :=
        ih reached
      refine ⟨before, last, after ++ [event], first, second, List.append_assoc _ _ _, rest, step,
        mine, stage, fun later mem => ?_⟩
      rcases List.mem_append.1 mem with mem | mem
      · exact others later mem
      · exact List.mem_singleton.1 mem ▸ own

theorem Run.tracker_eq (run : Run waits s events s') : s'.tracker = s.trackerAfter events := by
  induction run with
  | nil => rfl
  | snoc _ step ih =>
    rw [step.tracker_eq, trackerAfter_append, trackerAfter, ih]

theorem Run.append (run : Run waits s events s') (next : Run waits s' later s'') :
    Run waits s (events ++ later) s'' := by
  induction next with
  | nil => rwa [List.append_nil]
  | snoc _ step ih =>
    rw [← List.append_assoc]
    exact .snoc ih step

end Order

end SharedClient

namespace Wait

open SharedClient

variable {ι : Type} [DecidableEq ι] {waits : ι → Wait} {task : ι} {s : SharedClient ι}

/-- Where a course leaves the wait. -/
def Run.stage (course : Run) : Stage :=
  match course.outcome with
  | some outcome => .ended outcome
  | none => .polling

/-- The steps of one wait by which it takes in these answers and gets to this stage, and its client
to this tracker. -/
def Takes (waits : ι → Wait) (task : ι) (s : SharedClient ι)
    (answers : List (Answer (Option Record))) (stage : Stage) (t : Tracker) : Prop :=
  ∃ events s', SharedClient.Run waits s events s' ∧ (∀ event ∈ events, event.task? = some task) ∧
    visits events = answers.map .fetch ∧ s'.stage task = stage ∧ s'.tracker = t

theorem Takes.andThen {answers more : List (Answer (Option Record))} {stage stage' : Stage}
    {t t' : Tracker} (first : Takes waits task s answers stage t)
    (next : ∀ s' : SharedClient ι, s'.stage task = stage → s'.tracker = t →
      Takes waits task s' more stage' t') :
    Takes waits task s (answers ++ more) stage' t' := by
  obtain ⟨events, s', run, own, heard, middle, tracker⟩ := first
  obtain ⟨later, s'', run', own', heard', final, tracker'⟩ := next s' middle tracker
  refine ⟨events ++ later, s'', run.append run', ?_, ?_, final, tracker'⟩
  · intro event mem
    exact (List.mem_append.1 mem).elim (own event) (own' event)
  · rw [visits_append, heard, heard', List.map_append]

theorem takes_hear (polling : s.stage task = .polling) (answer : Answer (Option Record)) :
    Takes waits task s [answer] (.ofVerdict ((waits task).hear (s.tracker.receive answer).1))
      (s.tracker.receive answer).2 :=
  ⟨_, _, .snoc .nil (.hear answer polling), List.forall_mem_singleton.2 rfl, rfl,
    stage_move _ _ _ _, rfl⟩

theorem takes_check (unsettled : s.stage task = .unsettled) :
    Takes waits task s [] (.ofExpiry ((waits task).expiry? s.tracker.last)) s.tracker :=
  ⟨_, _, .snoc .nil (.check unsettled), List.forall_mem_singleton.2 rfl, rfl,
    stage_move _ _ _ _, rfl⟩

theorem takes_timeOut (polling : s.stage task = .polling) :
    Takes waits task s [] (.ended (.error (.timedOut (waits task).timeout))) s.tracker :=
  ⟨_, _, .snoc .nil (.timeOut polling), List.forall_mem_singleton.2 rfl, rfl,
    stage_move _ _ _ _, rfl⟩

theorem takes_cancel (polling : s.stage task = .polling) :
    Takes waits task s [] (.ended (.error .cancelled)) s.tracker :=
  ⟨_, _, .snoc .nil (.cancel polling), List.forall_mem_singleton.2 rfl, rfl,
    stage_move _ _ _ _, rfl⟩

/-- A wait stops by the token or by the clock, without an answer. -/
theorem takes_stop (polling : s.stage task = .polling) {now : Nat} {token : Option Nat}
    {e : ClientError} (stops : (waits task).stop? now token = some e) :
    Takes waits task s [] (.ended (.error e)) s.tracker := by
  unfold stop? at stops
  split at stops
  · obtain rfl := Option.some.inj stops
    exact takes_cancel polling
  split at stops
  · obtain rfl := Option.some.inj stops
    exact takes_timeOut polling
  · cases stops

/-- The steps of one call: the answer is taken in, and where it is empty the expiration is looked
at and the pause begins. -/
theorem takes_turn (waits : ι → Wait) (polling : s.stage task = .polling)
    (tokenFirst : Nat → Bool) (call : TimedAnswer) (now : Nat) (token : Option Nat) :
    match (waits task).turn tokenFirst call now token s.tracker with
    | .over outcome _ t => Takes waits task s [call.answer] (.ended outcome) t
    | .again _ _ t => Takes waits task s [call.answer] .polling t := by
  have hears : Takes waits task s [call.answer] _ (s.tracker.receive call.answer).2 :=
    takes_hear polling call.answer
  cases verdict : (waits task).hear (s.tracker.receive call.answer).1 with
  | finished outcome =>
    rw [verdict] at hears
    simp only [turn, verdict]
    exact hears
  | stale =>
    rw [verdict] at hears
    simp only [turn, verdict]
    exact hears
  | absent =>
    rw [verdict] at hears
    have looks : Takes waits task s [call.answer]
        (.ofExpiry ((waits task).expiry? (s.tracker.receive call.answer).2.last))
        (s.tracker.receive call.answer).2 :=
      hears.andThen fun s' unsettled same => same ▸ takes_check unsettled
    cases expiry : (waits task).expiry? (s.tracker.receive call.answer).2.last with
    | some e =>
      rw [expiry] at looks
      simp only [turn, verdict, expiry]
      exact looks
    | none =>
      rw [expiry] at looks
      simp only [turn, verdict, expiry]
      split
      · rename_i stops
        split at stops
        · obtain ⟨rfl, -, rfl⟩ := Turn.over.inj stops
          exact looks.andThen fun s' pausing same => same ▸ takes_cancel pausing
        · cases stops
      · rename_i resumes
        split at resumes
        · cases resumes
        · obtain ⟨-, -, rfl⟩ := Turn.again.inj resumes
          exact looks

/-- A wait that has a shared client to itself goes the way that `Wait.run` describes. The induction
is on the tape; what carries it is that a turn leaves the wait polling where it goes on. -/
theorem run_is_shared_run (polling : s.stage task = .polling) (tokenFirst : Nat → Bool)
    (tape : List TimedAnswer) (now : Nat) (token : Option Nat) :
    Takes waits task s
      ((tape.take ((waits task).run tokenFirst tape now token s.tracker).calls.length).map
        TimedAnswer.answer)
      ((waits task).run tokenFirst tape now token s.tracker).stage
      ((waits task).run tokenFirst tape now token s.tracker).tracker := by
  induction tape generalizing now token s with
  | nil =>
    cases stops : (waits task).stop? now token with
    | some e =>
      simpa [run, stops, Run.stage] using takes_stop polling stops
    | none =>
      simp only [run, stops, Run.stage, List.take_nil, List.map_nil]
      exact ⟨[], s, .nil, List.forall_mem_nil _, rfl, polling, rfl⟩
  | cons call rest ih =>
    cases stops : (waits task).stop? now token with
    | some e =>
      simpa [run, stops, Run.stage] using takes_stop polling stops
    | none =>
      have steps := takes_turn waits polling tokenFirst call now token
      match turned : (waits task).turn tokenFirst call now token s.tracker with
      | .over outcome ended t =>
        rw [turned] at steps
        simpa [run, stops, turned, Run.stage] using steps
      | .again resumed token t =>
        rw [turned] at steps
        simp only [run, stops, turned, Run.stage, Run.calls_prepend, Run.outcome_prepend,
          Run.tracker_prepend, List.length_cons, List.take_succ_cons, List.map_cons]
        exact steps.andThen fun s' polling same => same ▸ ih polling resumed token

end Wait

end LedgerClient
