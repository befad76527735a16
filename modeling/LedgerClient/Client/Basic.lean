import LedgerClient.Rpc.Envelope
import LedgerClient.Text.Duration

/-!
# Asking with a tracker

A client hands out the result of a call only if the tracker accepts the state that it comes with.
-/

set_option autoImplicit false

namespace LedgerClient

/-- Why a client has no result, or a wait no record. -/
inductive ClientError where
  | rejected (cause : Rejection)
  /-- The record under the sequence number is that of another transaction. -/
  | mismatch (expected got : String)
  /-- The transaction is committed and did not run to its end. -/
  | failed (status : Status)
  /-- The ledger has passed the expiration of the transaction; it is given in seconds. -/
  | expired (expiration ledgerTime : UInt64)
  /-- The wait is over, after so many milliseconds. -/
  | timedOut (timeout : Nat)
  | cancelled
  | rpc (cause : RpcError)
  deriving DecidableEq, Repr

namespace ClientError

/-- The wording of the cause, where it is not left to the transport. -/
def message? : ClientError → Option String
  | rejected cause => some cause.message
  | mismatch expected got => some s!"transaction mismatch: expected {expected}, got {got}"
  | failed status => some s!"transaction execution failed: {status.text}"
  | expired expiration ledgerTime =>
    some (s!"transaction expired: expiration {expiration.toNat}s, "
      ++ s!"ledger time {ledgerTime.toNat}us")
  | timedOut timeout =>
    some s!"timed out after {Duration.text timeout} waiting for transaction"
  | cancelled => some "wait cancelled"
  | rpc cause => cause.message?.map ("rpc error: " ++ ·)

/-- Whether the node was behind, so that the call may be repeated at once. -/
def isStale : ClientError → Bool
  | rejected (.stale _ _) => true
  | _ => false

/-- Whether the same transaction may be submitted again. -/
def isResubmittable : ClientError → Bool
  | expired _ _ => true
  | timedOut _ => true
  | _ => false

end ClientError

/-- The result of a call, if the tracker accepts its state, and the tracker afterwards. -/
def Tracker.receive {α : Type} (t : Tracker) : Answer α → Except ClientError α × Tracker
  | .error cause => (.error (.rpc cause), t)
  | .ok response =>
    match t.accept response.chainId response.state with
    | .error cause => (.error (.rejected cause), t)
    | .ok next => (.ok response.result, next)

end LedgerClient
