import LedgerClient.Schema

/-!
# Reading sessions

A session reads one thing after another from the same bytes. A step that fails does not end it:
the next step goes on where the failure stopped.
-/

set_option autoImplicit false

namespace LedgerClient

/-- What is read next. -/
inductive Step where
  /-- A number in the variable-length form. -/
  | number
  /-- So many bytes. -/
  | raw (count : Nat)
  /-- A byte string with its length in front. -/
  | bytes
  | value (s : Schema)
  /-- The end of the input. -/
  | finish
  deriving DecidableEq, Repr

namespace Step

/-- What the step gives. -/
def Answer : Step → Type
  | number => Nat
  | raw _ => Bytes
  | bytes => Bytes
  | value s => s.Value
  | finish => Unit

/-- How the step reads. -/
def read : (step : Step) → Reader step.Answer
  | number => Uleb128.read
  | raw count => .take count
  | bytes => Codec.bytes.read
  | value s => s.codec.read
  | finish => .finish

end Step

/-- What is unread after each step of a session. -/
def Session.unread : List Step → Bytes → List Bytes
  | [], _ => []
  | step :: rest, unread =>
    let left := (step.read unread).2
    left :: Session.unread rest left

end LedgerClient
