import LedgerClient.Proofs.Shared.Steps
import LedgerClient.Proofs.Wait.Decision

/-!
# Expiration on a shared client

A wait that ends as expired has taken in an answer of its own that was accepted and empty, and has
then read the tracker in a step of its own. What it reads is the last state that the tracker
accepted from anyone: that of its own answer, unless other callers have visited the tracker in
between (`expired_by_last_accepted`). So the time that is held against the expiration need not be
that of an answer without the record: `expired_though_own_answer_is_early` has another caller being
handed the record in between.
-/

set_option autoImplicit false

namespace LedgerClient

namespace Wait

variable {w : Wait} {t : Tracker} {answer : Answer (Option Record)}

theorem eq_of_expiry? {last : LedgerState} {expiration time : UInt64}
    (expired : w.expiry? last = some (.expired expiration time)) :
    expiration = w.expiration ∧ time = last.timestamp ∧ w.deadline ≤ last.timestamp.toNat := by
  by_cases late : w.deadline ≤ last.timestamp.toNat
  · simp only [expiry?_of_late late] at expired
    obtain ⟨rfl, rfl⟩ := ClientError.expired.inj (Option.some.inj expired)
    exact ⟨rfl, rfl, late⟩
  · simp [Nat.not_le.1 late] at expired

/-- Only an answer that is accepted and empty leaves the expiration to be looked at. -/
theorem accepted_of_absent (absent : w.hear (t.receive answer).1 = .absent) :
    ∃ response, answer = .ok response ∧ t.Accepts response.chainId response.state ∧
      response.result = none := by
  rcases answer with cause | response
  · cases absent
  rcases t.foreign_or_outdated_or_accepts response.chainId response.state
    with chain | outdated | accepted
  · simp [chain, hear, ClientError.isStale] at absent
  · simp [outdated, hear, ClientError.isStale] at absent
  · cases holds : response.result with
    | none => exact ⟨response, rfl, accepted, holds⟩
    | some record => simp [accepted, holds, hear] at absent

theorem settle_ne_expired (w : Wait) (record : Record) (expiration time : UInt64) :
    w.settle record ≠ .error (.expired expiration time) := by
  unfold settle
  split
  · simp
  split
  · simp
  · simp

namespace Stage

theorem eq_absent_of_unsettled {verdict : Verdict} (h : ofVerdict verdict = .unsettled) :
    verdict = .absent := by
  cases verdict with
  | finished outcome => cases h
  | stale => cases h
  | absent => rfl

theorem eq_finished_of_ended {verdict : Verdict} {outcome : Except ClientError Record}
    (h : ofVerdict verdict = .ended outcome) : verdict = .finished outcome := by
  cases verdict with
  | finished other => exact congrArg Verdict.finished (ended.inj h)
  | stale => cases h
  | absent => cases h

theorem ofExpiry_ne_unsettled (expiry : Option ClientError) : ofExpiry expiry ≠ .unsettled := by
  cases expiry <;> exact nofun

theorem eq_some_of_ended {expiry : Option ClientError} {e : ClientError}
    (h : ofExpiry expiry = .ended (.error e)) : expiry = some e := by
  cases expiry with
  | none => cases h
  | some other => exact congrArg some (Except.error.inj (ended.inj h))

end Stage

/-- An answer by itself does not make a wait expire. -/
theorem hear_ne_expired (w : Wait) (t : Tracker) (answer : Answer (Option Record))
    (expiration time : UInt64) :
    w.hear (t.receive answer).1 ≠ .finished (.error (.expired expiration time)) := by
  rcases answer with cause | response
  · exact nofun
  rcases t.foreign_or_outdated_or_accepts response.chainId response.state
    with chain | outdated | accepted
  · simp [chain, hear, ClientError.isStale]
  · simp [outdated, hear, ClientError.isStale]
  · cases holds : response.result with
    | none => simp [accepted, holds, hear]
    | some record => simpa [accepted, holds, hear] using w.settle_ne_expired record expiration time

end Wait

namespace SharedClient

section Gap

variable {ι : Type} {waits : ι → Wait} {task : ι} {start s : SharedClient ι}
  {events before between : List (Event ι)} {response : Response (Option Record)}

/-- The steps after an answer of a wait that was accepted and empty, up to the look at the
expiration. Only others take steps there. -/
structure Gap (start : SharedClient ι) (task : ι) (before : List (Event ι))
    (response : Response (Option Record)) (between : List (Event ι)) : Prop where
  accepted : (start.trackerAfter before).Accepts response.chainId response.state
  empty : response.result = none
  others : ∀ event ∈ between, event.task? ≠ some task

/-- The states that the tracker accepts from others in the gap. -/
def acceptedBetween (start : SharedClient ι) (task : ι) (before : List (Event ι))
    (response : Response (Option Record)) (between : List (Event ι)) : List LedgerState :=
  (start.trackerAfter (before ++ [.hear task (.ok response)])).acceptedStates (visits between)

/-- How a wait that looks at the expiration after a gap comes to end as expired. -/
structure Expiry (waits : ι → Wait) (start : SharedClient ι) (task : ι)
    (before : List (Event ι)) (response : Response (Option Record)) (between : List (Event ι))
    (expiration time : UInt64) : Prop extends Gap start task before response between where
  expiration_eq : expiration = (waits task).expiration
  late : (waits task).deadline ≤ time.toNat
  /-- The time is that of the last accepted state, which need not be the wait's own. -/
  time_eq : time =
    ((start.acceptedBetween task before response between).getLastD response.state).timestamp
  /-- It is not behind the wait's own answer. -/
  own_le : response.state ≤
    (start.acceptedBetween task before response between).getLastD response.state
  /-- The wait's own answer has reached the expiration if nothing is accepted from others. -/
  own_late : start.acceptedBetween task before response between = [] →
    (waits task).deadline ≤ response.state.timestamp.toNat

theorem Gap.heard_eq (gap : Gap start task before response between) :
    start.trackerAfter (before ++ [.hear task (.ok response)]) =
      { start.trackerAfter before with last := response.state } := by
  rw [trackerAfter_append]
  have reports : (Visit.fetch (.ok response)).report? =
      some (response.chainId, response.state) := rfl
  exact (Visit.reply_accepted reports gap.accepted).2

/-- What the tracker holds after a gap is the last state accepted in it, or else the wait's own. -/
theorem Gap.last_eq (gap : Gap start task before response between) :
    (start.trackerAfter (before ++ .hear task (.ok response) :: between)).last =
        (start.acceptedBetween task before response between).getLastD response.state ∧
      response.state ≤
        (start.acceptedBetween task before response between).getLastD response.state := by
  have split : before ++ .hear task (.ok response) :: between =
      (before ++ [.hear task (.ok response)]) ++ between := by
    rw [List.append_assoc, List.singleton_append]
  have last := (Tracker.acceptedStates_chain (start.trackerAfter
    (before ++ [.hear task (.ok response)])) (visits between)).2
  have rises := Tracker.le_afterVisits (start.trackerAfter
    (before ++ [.hear task (.ok response)])) (visits between)
  rw [last, gap.heard_eq] at rises
  rw [split, trackerAfter_append, last, acceptedBetween, gap.heard_eq]
  exact ⟨rfl, rises⟩

variable [DecidableEq ι] {event : Event ι} {s' : SharedClient ι} {expiration time : UInt64}

/-- Only an answer that is accepted and empty brings a wait to look at the expiration. -/
theorem Step.heard_of_unsettled (step : Step waits s event s') (own : event.task? = some task)
    (unsettled : s'.stage task = .unsettled) :
    ∃ response, event = .hear task (.ok response) ∧
      s.tracker.Accepts response.chainId response.state ∧ response.result = none := by
  rcases step.own_cases own with ⟨answer, rfl, stage⟩ | ⟨-, -, stage⟩ | ⟨-, stage⟩ | ⟨-, stage⟩
  · have absent := Wait.Stage.eq_absent_of_unsettled (stage.symm.trans unsettled)
    obtain ⟨response, rfl, accepted, empty⟩ := Wait.accepted_of_absent absent
    exact ⟨response, rfl, accepted, empty⟩
  · exact absurd (stage.symm.trans unsettled) (Wait.Stage.ofExpiry_ne_unsettled _)
  · cases stage.symm.trans unsettled
  · cases stage.symm.trans unsettled

/-- Only a look at the expiration ends a wait as expired. -/
theorem Step.checked_of_expired (step : Step waits s event s') (own : event.task? = some task)
    (expired : s'.stage task = .ended (.error (.expired expiration time))) :
    event = .check task ∧ s.stage task = .unsettled ∧
      (waits task).expiry? s.tracker.last = some (.expired expiration time) := by
  rcases step.own_cases own with ⟨answer, -, stage⟩ | ⟨rfl, unsettled, stage⟩ | ⟨-, stage⟩ |
    ⟨-, stage⟩
  · have finished := Wait.Stage.eq_finished_of_ended (stage.symm.trans expired)
    exact absurd finished ((waits task).hear_ne_expired _ _ _ _)
  · exact ⟨rfl, unsettled, Wait.Stage.eq_some_of_ended (stage.symm.trans expired)⟩
  · cases stage.symm.trans expired
  · cases stage.symm.trans expired

theorem gap_of_unsettled (polling : start.stage task = .polling)
    (run : Run waits start events s) (unsettled : s.stage task = .unsettled) :
    ∃ before response between, events = before ++ .hear task (.ok response) :: between ∧
      Gap start task before response between := by
  have moved : start.stage task ≠ .unsettled := by
    rw [polling]
    exact nofun
  obtain ⟨before, event, between, mid, mid', rfl, earlier, step, own, stage, others⟩ :=
    run.last_own_step unsettled moved
  obtain ⟨response, rfl, accepted, empty⟩ := step.heard_of_unsettled own stage
  rw [earlier.tracker_eq] at accepted
  exact ⟨before, response, between, rfl, accepted, empty, others⟩

/-- A wait ends as expired by the last state that anyone has had accepted when it looks. -/
theorem expired_by_last_accepted (polling : start.stage task = .polling)
    (run : Run waits start events s)
    (expired : s.stage task = .ended (.error (.expired expiration time))) :
    ∃ before response between after,
      events = before ++ .hear task (.ok response) :: between ++ .check task :: after ∧
      Expiry waits start task before response between expiration time := by
  have moved : start.stage task ≠ .ended (.error (.expired expiration time)) := by
    rw [polling]
    exact nofun
  obtain ⟨earlier, event, after, mid, mid', rfl, reaches, step, own, stage, -⟩ :=
    run.last_own_step expired moved
  obtain ⟨rfl, unsettled, expiry⟩ := step.checked_of_expired own stage
  obtain ⟨before, response, between, rfl, gap⟩ := gap_of_unsettled polling reaches unsettled
  obtain ⟨rfl, rfl, late⟩ := Wait.eq_of_expiry? expiry
  obtain ⟨last, rises⟩ := gap.last_eq
  rw [reaches.tracker_eq, last] at late ⊢
  refine ⟨before, response, between, after, rfl, gap, rfl, late, rfl, rises, fun alone => ?_⟩
  rw [alone] at late
  exact late

end Gap

namespace Sample

/-- One wait; the expiration is at 5000000 microseconds. -/
def waits : Unit → Wait := fun _ => Wait.Sample.wait

def client : SharedClient Unit := ⟨Wait.Sample.tracker, fun _ => .polling⟩

/-- The wait's own answer: there is no record, and the expiration has not come. -/
def early : Response (Option Record) := ⟨none, 2, ⟨6, 4999999⟩⟩

/-- The answer to another caller's request: the record is there, and the expiration has passed. -/
def late : Response (Option Record) := ⟨some Wait.Sample.record, 2, ⟨8, 5000001⟩⟩

def events : List (Event Unit) := [.hear () (.ok early), .visit (.fetch (.ok late)), .check ()]

theorem run : ∃ s, Run waits client events s ∧
    s.stage () = .ended (.error (.expired 5 5000001)) :=
  ⟨_, .snoc (.snoc (.snoc .nil (.hear _ rfl)) (.visit _)) (.check rfl), rfl⟩

end Sample

theorem expired_after_anothers_answer :
    ∃ before response between after,
      Sample.events = before ++ .hear () (.ok response) :: between ++ .check () :: after ∧
      Expiry Sample.waits Sample.client () before response between 5 5000001 := by
  obtain ⟨s, run, expired⟩ := Sample.run
  exact expired_by_last_accepted rfl run expired

/-- A wait can be told that its transaction has expired although its only answer is from before the
expiration, and although another caller has been handed the executed record on the same client. -/
theorem expired_though_own_answer_is_early :
    (∃ s, Run Sample.waits Sample.client Sample.events s ∧
      s.stage () = .ended (.error (.expired 5 5000001))) ∧
    (∀ response, .hear () (.ok response) ∈ Sample.events →
      response.state.timestamp.toNat < (Sample.waits ()).deadline) ∧
    (Visit.fetch (.ok Sample.late)).reply
        (Sample.client.trackerAfter [.hear () (.ok Sample.early)]) =
      .ok (some (some Wait.Sample.record)) ∧
    Wait.Sample.wait.settle Wait.Sample.record = .ok Wait.Sample.record ∧
    (ClientError.expired 5 5000001).isResubmittable = true := by
  refine ⟨Sample.run, fun response mem => ?_, rfl, rfl, rfl⟩
  simp only [Sample.events, List.mem_cons, Event.hear.injEq, Except.ok.injEq, true_and,
    reduceCtorEq, List.not_mem_nil, or_false] at mem
  subst mem
  decide

end SharedClient

end LedgerClient
