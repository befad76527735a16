import LedgerClient.Client.Expectation

/-!
# Waiting for a transaction

A wait asks for the transaction again and again until an answer decides, the transaction has
expired, the time is up or the wait is cancelled. It runs in virtual milliseconds from its start:
time passes in the calls and in the pauses between them, and nowhere else. A call in progress is
never interrupted; a pause is cut short by the cancellation.

`Wait.run` follows the calls that a tape holds, in order, one `Wait.turn` for each. `Wait.hear` and
`Wait.expiry?` are the two steps after a call: the answer is taken in, and then, where it brought
nothing, the expiration is held against the tracker as it is at that moment.
-/

set_option autoImplicit false

namespace LedgerClient

/-- What is waited for, and how. Times are in milliseconds. -/
structure Wait where
  expectation : Expectation
  /-- The expiration of the transaction, in seconds since 1970. -/
  expiration : UInt64
  timeout : Nat
  pollInterval : Nat
  /-- Whether the wait has a token by which it can be cancelled. -/
  cancellable : Bool

/-- A call that is made: how long it takes, whether the token fires before it is answered, and the
answer. -/
structure TimedAnswer where
  delay : Nat
  firesToken : Bool
  answer : Answer (Option Record)

/-- How a wait goes on after an answer. -/
inductive Verdict where
  | finished (outcome : Except ClientError Record)
  /-- The node was behind; it is asked again at once. -/
  | stale
  /-- There is no record yet. -/
  | absent

/-- The course of a wait. -/
structure Wait.Run where
  /-- How the wait ends, unless the tape ends first. -/
  outcome : Option (Except ClientError Record)
  ended : Nat
  /-- When each call starts. -/
  calls : List Nat
  tracker : Tracker

namespace Wait

/-- Seconds as microseconds, or the greatest number of 64 bits. -/
def microseconds (seconds : UInt64) : UInt64 :=
  UInt64.ofNat (min (1000000 * seconds.toNat) (UInt64.size - 1))

/-- The outcome of a wait that finds a record. -/
def settle (w : Wait) (r : Record) : Except ClientError Record :=
  if !w.expectation.isMetBy r then
    .error (.mismatch w.expectation.expected (w.expectation.observed r))
  else if !r.status.isExecuted then .error (.failed r.status)
  else .ok r

/-- How the wait goes on after what the tracker made of an answer. -/
def hear (w : Wait) : Except ClientError (Option Record) → Verdict
  | .error e => if e.isStale then .stale else .finished (.error e)
  | .ok (some r) => .finished (w.settle r)
  | .ok none => .absent

/-- The error of a transaction that has expired by the time of the ledger. -/
def expiry? (w : Wait) (last : LedgerState) : Option ClientError :=
  if microseconds w.expiration ≤ last.timestamp then some (.expired w.expiration last.timestamp)
  else none

/-- The time that is left for a pause. -/
def pause (w : Wait) (now : Nat) : Nat := min w.pollInterval (w.timeout - now)

/-- Whether a token has fired. A token is given by the time at which it fires. -/
def hasFired (token : Option Nat) (now : Nat) : Bool :=
  match token with
  | some time => time ≤ now
  | none => false

/-- The token after a call that fires it at `now`, if there is one. -/
def fire (w : Wait) (token : Option Nat) (now : Nat) : Option Nat :=
  if w.cancellable then some (token.elim now (min now)) else token

namespace Run

/-- A wait that ends without a further call. -/
def ending (outcome : Except ClientError Record) (now : Nat) (tracker : Tracker) : Run :=
  ⟨some outcome, now, [], tracker⟩

/-- The course of a wait with a call in front. -/
def prepend (start : Nat) (run : Run) : Run := { run with calls := start :: run.calls }

section

variable (outcome : Except ClientError Record) (now start : Nat) (tracker : Tracker) (run : Run)

@[simp] theorem outcome_ending : (ending outcome now tracker).outcome = some outcome := rfl

@[simp] theorem ended_ending : (ending outcome now tracker).ended = now := rfl

@[simp] theorem calls_ending : (ending outcome now tracker).calls = [] := rfl

@[simp] theorem tracker_ending : (ending outcome now tracker).tracker = tracker := rfl

@[simp] theorem outcome_prepend : (run.prepend start).outcome = run.outcome := rfl

@[simp] theorem ended_prepend : (run.prepend start).ended = run.ended := rfl

@[simp] theorem calls_prepend : (run.prepend start).calls = start :: run.calls := rfl

@[simp] theorem tracker_prepend : (run.prepend start).tracker = run.tracker := rfl

end

end Run

/-- The time at which the token cuts the pause short, if it does. The token can become ready at
the very moment at which the pause ends; then `tokenFirst` says which of the two is seen. -/
def interruption? (w : Wait) (tokenFirst : Nat → Bool) (token : Option Nat) (now : Nat) :
    Option Nat :=
  match token with
  | none => none
  | some time =>
    let ready := max time now
    let resumed := now + w.pause now
    if ready < resumed || (ready == resumed && tokenFirst now) then some ready else none

/-- Why a wait makes no call at `now`, if it makes none. -/
def stop? (w : Wait) (now : Nat) (token : Option Nat) : Option ClientError :=
  if hasFired token now then some .cancelled
  else if w.timeout ≤ now then some (.timedOut w.timeout)
  else none

/-- Where a wait stands after a call and the pause that may follow it. -/
inductive Turn where
  | over (outcome : Except ClientError Record) (ended : Nat) (tracker : Tracker)
  | again (resumed : Nat) (token : Option Nat) (tracker : Tracker)

/-- A call that starts at `now`, what is made of its answer, and the pause. -/
def turn (w : Wait) (tokenFirst : Nat → Bool) (call : TimedAnswer) (now : Nat)
    (token : Option Nat) (tracker : Tracker) : Turn :=
  let answered := now + call.delay
  let token := if call.firesToken then w.fire token answered else token
  let received := tracker.receive call.answer
  match w.hear received.1 with
  | .finished outcome => .over outcome answered received.2
  | .stale => .again answered token received.2
  | .absent =>
    match w.expiry? received.2.last with
    | some e => .over (.error e) answered received.2
    | none =>
      match w.interruption? tokenFirst token answered with
      | some time => .over (.error .cancelled) time received.2
      | none => .again (answered + w.pause answered) token received.2

/-- The course of a wait from `now` on. -/
def run (w : Wait) (tokenFirst : Nat → Bool) :
    (tape : List TimedAnswer) → (now : Nat) → (token : Option Nat) → (tracker : Tracker) → Run
  | [], now, token, tracker =>
    match w.stop? now token with
    | some e => .ending (.error e) now tracker
    | none => ⟨none, now, [], tracker⟩
  | call :: rest, now, token, tracker =>
    match w.stop? now token with
    | some e => .ending (.error e) now tracker
    | none =>
      Run.prepend now <|
        match w.turn tokenFirst call now token tracker with
        | .over outcome ended tracker => .ending outcome ended tracker
        | .again resumed token tracker => run w tokenFirst rest resumed token tracker

/-- The wait for a signed transaction, which is told by its hash. -/
def ofSigned (t : SignedTransaction) (timeout pollInterval : Nat) : Wait where
  expectation := .hash t.hash
  expiration := t.raw.expiration
  timeout := timeout
  pollInterval := pollInterval
  cancellable := false

end Wait

end LedgerClient
