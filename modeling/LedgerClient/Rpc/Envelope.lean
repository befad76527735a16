import LedgerClient.Rpc.Basic

/-!
# Reading the answers of a node

An answer comes as an HTTP status and a body. An error status decides by itself. The body is an
envelope: a result or an error, and where the ledger stands. An error object comes before missing
ledger fields, and these come before a result that does not read.
-/

set_option autoImplicit false

namespace LedgerClient

/-- What the transport brings. -/
inductive Delivery where
  | unreachable
  | answered (status : Nat) (body : Bytes)
  deriving DecidableEq, Repr

/-- The error that a node answers with. -/
structure ServerError where
  code : Int64
  message : String
  deriving DecidableEq, Repr

/-- Reads the error of an envelope. -/
def ServerError.read {D : Type} (v : Json.View D) (d : D) : Option ServerError :=
  match v.fields? ["code", "message"] d with
  | some [code, message] => do
    let code ← Json.View.required v.i64? code
    let message ← Json.View.required v.string? message
    return { code, message }
  | _ => none

/-- The body of an answer. -/
structure Envelope where
  result : Option Json
  error : Option ServerError
  chainId : Option UInt8
  version : Option UInt64
  timestamp : Option UInt64
  deriving Repr

namespace Envelope

/-- The names of the fields in JSON. -/
def fieldNames : List String :=
  ["result", "error", LedgerField.chainId.name, LedgerField.version.name,
   LedgerField.timestamp.name]

/-- Reads an envelope. -/
def read {D : Type} (v : Json.View D) (d : D) : Option Envelope :=
  match v.fields? fieldNames d with
  | some [result, error, chainId, version, timestamp] => do
    let result ← v.optional v.value? result
    let error ← v.optional (ServerError.read v) error
    let chainId ← v.optional v.u8? chainId
    let version ← v.optional v.u64? version
    let timestamp ← v.optional v.u64? timestamp
    return { result, error, chainId, version, timestamp }
  | _ => none

/-- The envelope that a text stands for. -/
def ofText? (text : String) : Option Envelope :=
  (Json.Within.ofText? text).bind (read Json.Within.view)

/-- What the envelope answers. A result that is missing is null. -/
def answer {α : Type} (decode : Json → Option α) (e : Envelope) : Answer α :=
  match e.error with
  | some error => .error (.server error.code error.message)
  | none =>
    match e.chainId with
    | none => .error (.missing .chainId)
    | some chainId =>
      match e.version with
      | none => .error (.missing .version)
      | some version =>
        match e.timestamp with
        | none => .error (.missing .timestamp)
        | some timestamp =>
          match decode (e.result.getD .null) with
          | none => .error .malformed
          | some result => .ok { result, chainId, state := { version, timestamp } }

end Envelope

namespace Delivery

/-- Whether a status is that of an error. -/
def isErrorStatus (status : Nat) : Bool := 400 ≤ status && status < 600

/-- What a call is answered. Bytes of the body that are no text are replaced. -/
def answer {α : Type} (decode : Json → Option α) : Delivery → Answer α
  | unreachable => .error (.http none)
  | answered status body =>
    if isErrorStatus status then .error (.http (some status))
    else
      match Envelope.ofText? (String.ofList (Utf8.decodeLossy body)) with
      | none => .error .malformed
      | some envelope => envelope.answer decode

end Delivery

/-- Reads the record that an account's transaction is answered with: null where there is none. -/
def Record.ofResult? : Json → Option (Option Record)
  | .null => some none
  | j => (Record.ofJson? j).map some

end LedgerClient
