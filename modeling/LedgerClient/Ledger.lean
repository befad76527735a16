/-!
# Ledger states

A node answers with the state of its ledger: how many transactions are committed, and when. A
tracker holds the last state that was accepted. It refuses answers from another chain, and answers
of a node that is behind in either respect, so that neither number ever falls.
-/

set_option autoImplicit false

namespace LedgerClient

/-- The state of a ledger. -/
structure LedgerState where
  /-- The number of the last committed transaction. -/
  version : UInt64
  /-- The time of the ledger, in microseconds since 1970. -/
  timestamp : UInt64
  deriving DecidableEq, Repr

namespace LedgerState

/-- The state before any answer. -/
def zero : LedgerState := ⟨0, 0⟩

/-- Whether a state is lower than another in its version or in its time. -/
def isBehind (s other : LedgerState) : Bool :=
  s.version < other.version || s.timestamp < other.timestamp

/-- The state as error messages show it. -/
def text (s : LedgerState) : String :=
  s!"\x7bversion: {s.version.toNat}, timestamp_usec: {s.timestamp.toNat}\x7d"

end LedgerState

/-- Why the state of an answer is refused. -/
inductive Rejection where
  /-- The answer comes from another chain. -/
  | foreignChain (expected got : UInt8)
  /-- The node is behind the last accepted state. -/
  | stale (last got : LedgerState)
  deriving DecidableEq, Repr

def Rejection.message : Rejection → String
  | foreignChain expected got =>
    s!"chain id mismatch: expected {expected.toNat}, got {got.toNat}"
  | stale last got => s!"stale response: last seen {last.text}, got {got.text}"

/-- The chain that answers must come from, and the last accepted state. -/
structure Tracker where
  chainId : UInt8
  last : LedgerState
  deriving DecidableEq, Repr

namespace Tracker

/-- A tracker that has seen no answer. -/
def start (chainId : UInt8) : Tracker := ⟨chainId, .zero⟩

/-- The tracker after a state that it accepts. The chain is looked at first. -/
def accept (t : Tracker) (chainId : UInt8) (state : LedgerState) : Except Rejection Tracker :=
  if chainId ≠ t.chainId then .error (.foreignChain t.chainId chainId)
  else if state.isBehind t.last then .error (.stale t.last state)
  else .ok { t with last := state }

/-- The tracker after a state that it accepts or refuses. -/
def observe (t : Tracker) (chainId : UInt8) (state : LedgerState) : Tracker :=
  match t.accept chainId state with
  | .ok next => next
  | .error _ => t

end Tracker

end LedgerClient
