import LedgerClient.Client.Wait

/-!
# Callers that share a client

Any number of callers may use one client at the same time. They meet in its tracker and nowhere
else, and a visit to the tracker is one step: the state that is reported is judged and, if it is
accepted, entered. A wait visits the tracker with the answer to each of its calls. If the answer is
accepted and empty it reads the tracker once more, in a step of its own, to look at the expiration;
visits of other callers can fall between the two steps.

`SharedClient.Step` leaves the clocks of the waits open: a wait that is not between these two steps
may at any time be cancelled or run out of time.
-/

set_option autoImplicit false

namespace LedgerClient

/-- What a caller brings to the tracker. -/
inductive Visit (α : Type) where
  /-- A chain and a state of its ledger. -/
  | validate (chainId : UInt8) (state : LedgerState)
  /-- The answer to a request. -/
  | fetch (answer : Answer α)

namespace Visit

variable {α : Type}

/-- The chain and the state by which the tracker judges the visit. A call that failed has none. -/
def report? : Visit α → Option (UInt8 × LedgerState)
  | validate chainId state => some (chainId, state)
  | fetch (.ok response) => some (response.chainId, response.state)
  | fetch (.error _) => none

/-- The result of the request, if the visit comes from one that was answered. -/
def payload? : Visit α → Option α
  | fetch (.ok response) => some response.result
  | _ => none

/-- What the caller is told, with the result of its request if it has made one. -/
def reply (t : Tracker) : Visit α → Except ClientError (Option α)
  | validate chainId state =>
    match t.accept chainId state with
    | .error cause => .error (.rejected cause)
    | .ok _ => .ok none
  | fetch answer =>
    match (t.receive answer).1 with
    | .error e => .error e
    | .ok result => .ok (some result)

/-- The tracker after the visit. -/
def leave (t : Tracker) : Visit α → Tracker
  | validate chainId state => t.observe chainId state
  | fetch answer => (t.receive answer).2

end Visit

namespace Tracker

variable {α : Type}

/-- The tracker after the visits of all callers, in the order in which they are made. -/
def afterVisits (t : Tracker) (visits : List (Visit α)) : Tracker := visits.foldl Visit.leave t

/-- The states that the tracker accepts from the visits, in order. -/
def acceptedStates (t : Tracker) : List (Visit α) → List LedgerState
  | [] => []
  | visit :: rest =>
    match visit.reply t, visit.report? with
    | .ok _, some (_, state) => state :: acceptedStates (visit.leave t) rest
    | _, _ => acceptedStates (visit.leave t) rest

end Tracker

namespace Wait

/-- Where a wait stands between two steps. -/
inductive Stage where
  /-- It asks, or pauses before it asks again. -/
  | polling
  /-- Its answer was accepted and empty, and it has not looked at the expiration yet. -/
  | unsettled
  | ended (outcome : Except ClientError Record)

namespace Stage

/-- The stage after an answer. -/
def ofVerdict : Verdict → Stage
  | .finished outcome => ended outcome
  | .stale => polling
  | .absent => unsettled

/-- The stage after the expiration has been held against a state of the ledger. -/
def ofExpiry : Option ClientError → Stage
  | some e => ended (.error e)
  | none => polling

end Stage

end Wait

/-- A client that any number of waits share. -/
structure SharedClient (ι : Type) where
  tracker : Tracker
  stage : ι → Wait.Stage

namespace SharedClient

variable {ι : Type}

/-- A step of one of the callers. -/
inductive Event (ι : Type) where
  /-- A caller that does not wait visits the tracker. -/
  | visit (v : Visit (Option Record))
  /-- A wait takes in the answer to its call. -/
  | hear (task : ι) (answer : Answer (Option Record))
  /-- A wait looks at the expiration. -/
  | check (task : ι)
  | timeOut (task : ι)
  | cancel (task : ι)

namespace Event

/-- The wait that takes the step. -/
def task? : Event ι → Option ι
  | visit _ => none
  | hear task _ => some task
  | check task => some task
  | timeOut task => some task
  | cancel task => some task

/-- The visit that the step is. -/
def visit? : Event ι → Option (Visit (Option Record))
  | visit v => some v
  | hear _ answer => some (.fetch answer)
  | check _ => none
  | timeOut _ => none
  | cancel _ => none

end Event

/-- The visits among some steps. -/
def visits (events : List (Event ι)) : List (Visit (Option Record)) :=
  events.filterMap Event.visit?

/-- The tracker after some steps. -/
def trackerAfter (s : SharedClient ι) (events : List (Event ι)) : Tracker :=
  s.tracker.afterVisits (visits events)

variable [DecidableEq ι]

/-- The client after a wait has moved on, with the tracker that it leaves. -/
def move (s : SharedClient ι) (task : ι) (stage : Wait.Stage) (tracker : Tracker) :
    SharedClient ι where
  tracker := tracker
  stage other := if other = task then stage else s.stage other

/-- What a step does. -/
inductive Step (waits : ι → Wait) (s : SharedClient ι) : Event ι → SharedClient ι → Prop where
  | visit (v : Visit (Option Record)) :
    Step waits s (.visit v) { s with tracker := v.leave s.tracker }
  | hear {task : ι} (answer : Answer (Option Record)) (polling : s.stage task = .polling) :
    Step waits s (.hear task answer)
      (s.move task (.ofVerdict ((waits task).hear (s.tracker.receive answer).1))
        (s.tracker.receive answer).2)
  | check {task : ι} (unsettled : s.stage task = .unsettled) :
    Step waits s (.check task)
      (s.move task (.ofExpiry ((waits task).expiry? s.tracker.last)) s.tracker)
  | timeOut {task : ι} (polling : s.stage task = .polling) :
    Step waits s (.timeOut task)
      (s.move task (.ended (.error (.timedOut (waits task).timeout))) s.tracker)
  | cancel {task : ι} (polling : s.stage task = .polling) :
    Step waits s (.cancel task) (s.move task (.ended (.error .cancelled)) s.tracker)

/-- Some steps in a row, of any callers in any order. -/
inductive Run (waits : ι → Wait) (s : SharedClient ι) :
    List (Event ι) → SharedClient ι → Prop where
  | nil : Run waits s [] s
  | snoc {events : List (Event ι)} {s' s'' : SharedClient ι} {event : Event ι} :
    Run waits s events s' → Step waits s' event s'' → Run waits s (events ++ [event]) s''

end SharedClient

end LedgerClient
