import LedgerClient.Json.View

/-!
# Execution status

How a committed transaction ended: its kind and, where it failed, the place and the code.
-/

set_option autoImplicit false

namespace LedgerClient

/-- How a committed transaction ended. -/
structure Status where
  kind : String
  location : Option String
  abortCode : Option UInt64
  functionIndex : Option UInt16
  codeOffset : Option UInt16
  deriving DecidableEq, Repr

namespace Status

/-- A status that has only a kind. -/
def ofKind (kind : String) : Status := ⟨kind, none, none, none, none⟩

/-- Whether the transaction ran to its end. -/
def isExecuted (s : Status) : Bool := s.kind == "executed"

/-- The status as error messages show it. -/
def text (s : Status) : String :=
  s.kind
    ++ (match s.location with | some place => " at " ++ place | none => "")
    ++ (match s.abortCode with | some code => s!" (abort code {code.toNat})" | none => "")

/-- The names of the fields in JSON. -/
def fieldNames : List String := ["type", "location", "abort_code", "function_index", "code_offset"]

/-- Reads a status. -/
def read {D : Type} (v : Json.View D) (d : D) : Option Status :=
  match v.fields? fieldNames d with
  | some [kind, location, abortCode, functionIndex, codeOffset] => do
    let kind ← Json.View.required v.string? kind
    let location ← v.optional v.string? location
    let abortCode ← v.optional v.u64? abortCode
    let functionIndex ← v.optional v.u16? functionIndex
    let codeOffset ← v.optional v.u16? codeOffset
    return { kind, location, abortCode, functionIndex, codeOffset }
  | _ => none

/-- The status as a JSON value. -/
def toJson (s : Status) : Json :=
  .object <|
    [("type", .string s.kind)]
      ++ Json.present "location" .string s.location
      ++ Json.present "abort_code" (fun n => .nat n.toNat) s.abortCode
      ++ Json.present "function_index" (fun n => .nat n.toNat) s.functionIndex
      ++ Json.present "code_offset" (fun n => .nat n.toNat) s.codeOffset

end Status

end LedgerClient
