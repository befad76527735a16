import LedgerClient.Ledger
import LedgerClient.Octets.Basic
import LedgerClient.Record.Basic

/-!
# Remote calls

What a node is asked and how it answers: a result with the chain and the state of the ledger at
the time of the answer, or an error.
-/

set_option autoImplicit false

namespace LedgerClient

/-- A field that says where the ledger of a node stands. -/
inductive LedgerField where
  | chainId
  | version
  | timestamp
  deriving DecidableEq, Repr

/-- The name of the field in an answer. -/
def LedgerField.name : LedgerField → String
  | chainId => "diem_chain_id"
  | version => "diem_ledger_version"
  | timestamp => "diem_ledger_timestampusec"

/-- Why a call has no result. -/
inductive RpcError where
  /-- The exchange failed, or ended with the status of an error. -/
  | http (status : Option Nat)
  /-- The answer is not of the form that is expected. -/
  | malformed
  /-- The node answers with an error. -/
  | server (code : Int64) (message : String)
  /-- The answer does not say where the ledger stands. -/
  | missing (field : LedgerField)
  deriving DecidableEq, Repr

/-- The wording of the cause, where it is not left to the transport. -/
def RpcError.message? : RpcError → Option String
  | http _ => none
  | malformed => none
  | server code message => some s!"server error ({code.toInt}): {message}"
  | missing field => some ("response is missing ledger field " ++ "\x60" ++ field.name ++ "\x60")

/-- A result, with the chain and the state of the ledger that it comes from. -/
structure Response (α : Type) where
  result : α
  chainId : UInt8
  state : LedgerState
  deriving Repr

/-- What a call brings. -/
abbrev Answer (α : Type) := Except RpcError (Response α)

/-- What a node is asked. -/
structure Request where
  method : String
  params : Json

namespace Request

/-- The request for the transaction that an account sent under a sequence number. -/
def accountTransaction (account : Address) (sequenceNumber : UInt64) (includeEvents : Bool) :
    Request where
  method := "get_account_transaction"
  params := .array [.string account.hex, .nat sequenceNumber.toNat, .bool includeEvents]

/-- The JSON value that is sent for the request. -/
def toJson (r : Request) : Json :=
  .object
    [("jsonrpc", .string "2.0"), ("id", .nat 1), ("method", .string r.method),
     ("params", r.params)]

end Request

end LedgerClient
