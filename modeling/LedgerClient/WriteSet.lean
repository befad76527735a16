import LedgerClient.Event
import LedgerClient.Script

/-!
# Write sets

Changes that a transaction makes to the storage directly, and the events that go with them.
-/

set_option autoImplicit false

namespace LedgerClient

/-- A place in the storage. -/
structure AccessPath where
  address : Address
  path : Bytes
  deriving DecidableEq, Repr

def AccessPath.codec : Codec AccessPath :=
  ((Codec.bare .address).pair Codec.bytes).via
    (fun (address, path) => { address, path })
    (fun p => (p.address, p.path))

/-- What is done to a place. -/
inductive WriteOp where
  | deletion
  | value (data : Bytes)
  deriving DecidableEq, Repr

namespace WriteOp

/-- The alternatives in the order of their indices. -/
def cases : List (Codec.Case WriteOp) :=
  [{ content := Codec.unit, build := fun () => deletion,
     open? := fun | deletion => some () | _ => none },
   { content := Codec.bytes, build := value, open? := fun | value v => some v | _ => none }]

def codec : Codec WriteOp := .union "WriteOp" cases

end WriteOp

/-- The changes, in order. -/
structure WriteSet where
  writes : List (AccessPath × WriteOp)
  deriving DecidableEq, Repr

/-- No change. -/
def WriteSet.empty : WriteSet := ⟨[]⟩

def WriteSet.codec : Codec WriteSet :=
  (AccessPath.codec.pair WriteOp.codec).list.via WriteSet.mk WriteSet.writes

/-- Changes with their events. -/
structure ChangeSet where
  writeSet : WriteSet
  events : List Event
  deriving Repr, BEq

/-- No change and no event. -/
def ChangeSet.empty : ChangeSet := ⟨.empty, []⟩

def ChangeSet.codec : Codec ChangeSet :=
  (WriteSet.codec.pair Event.codec.list).via
    (fun (writeSet, events) => { writeSet, events })
    (fun c => (c.writeSet, c.events))

/-- Where the changes come from: they are given, or a script that runs as an account makes them. -/
inductive WriteSetPayload where
  | direct (changes : ChangeSet)
  | script (executeAs : Address) (script : Script)
  deriving Repr, BEq

namespace WriteSetPayload

/-- The alternatives in the order of their indices. -/
def cases : List (Codec.Case WriteSetPayload) :=
  [{ content := ChangeSet.codec, build := direct, open? := fun | direct c => some c | _ => none },
   { content := (Codec.bare .address).pair Script.codec,
     build := fun (executeAs, s) => script executeAs s,
     open? := fun | script executeAs s => some (executeAs, s) | _ => none }]

def codec : Codec WriteSetPayload := .union "WriteSetPayload" cases

end WriteSetPayload

end LedgerClient
