import LedgerClient.Proofs.Json.Objects
import LedgerClient.Record.Basic

/-!
# Records read back from JSON

A record is written as an object that holds the objects of its status, its body and its events. Each
of them is written from its fields and read back, what is left out as missing, and so is the record
(`ofJson?_toJson`). The data of an event may be any JSON.
-/

set_option autoImplicit false

namespace LedgerClient

open Json (View view written fields?_written)

/-! ## Reading what is written -/

namespace Json.View

theorem below?_nat {bound n : Nat} (small : n < bound) : view.below? bound (.nat n) = some n := by
  have range : (0 : Int) ≤ n ∧ (n : Int) < bound := ⟨Int.natCast_nonneg n, Int.ofNat_lt.2 small⟩
  exact (if_pos range).trans rfl

@[simp] theorem u64?_nat (n : UInt64) : view.u64? (.nat n.toNat) = some n := by
  rw [u64?, below?_nat n.toNat_lt, Option.map_some, UInt64.ofNat_toNat]

@[simp] theorem u16?_nat (n : UInt16) : view.u16? (.nat n.toNat) = some n := by
  rw [u16?, below?_nat n.toNat_lt, Option.map_some, UInt16.ofNat_toNat]

@[simp] theorem required_string (s : String) :
    required view.string? (some (.string s)) = some s := rfl

@[simp] theorem required_u64 (n : UInt64) : required view.u64? (some (.nat n.toNat)) = some n := by
  rw [required, u64?_nat]

@[simp] theorem optional_string (o : Option String) :
    view.optional view.string? (o.map .string) = some o := by
  have reads : ∀ s, view.string? (.string s) = some s := fun _ => rfl
  exact optional_map reads (fun _ => rfl) o

@[simp] theorem optional_u64 (o : Option UInt64) :
    view.optional view.u64? (o.map fun n => .nat n.toNat) = some o :=
  optional_map u64?_nat (fun _ => rfl) o

@[simp] theorem optional_u16 (o : Option UInt16) :
    view.optional view.u16? (o.map fun n => .nat n.toNat) = some o :=
  optional_map u16?_nat (fun _ => rfl) o

end Json.View

/-- The fields of a status with their values. -/
def Status.fields (s : Status) : List (String × Option Json) :=
  [("type", some (.string s.kind)), ("location", s.location.map .string),
   ("abort_code", s.abortCode.map fun n => .nat n.toNat),
   ("function_index", s.functionIndex.map fun n => .nat n.toNat),
   ("code_offset", s.codeOffset.map fun n => .nat n.toNat)]

theorem Status.toJson_eq (s : Status) : s.toJson = .object (written s.fields) := by
  simp [toJson, fields]

@[simp] theorem Status.read_toJson (s : Status) : read view s.toJson = some s := by
  have found : view.fields? fieldNames s.toJson = some (s.fields.map Prod.snd) := by
    rw [toJson_eq]
    exact fields?_written (by decide : fieldNames.Nodup)
  simp [read, found, fields]

namespace Record

/-- The fields of a body with their values. -/
def Body.fields (b : Body) : List (String × Option Json) :=
  [("type", some (.string b.kind)), ("sender", b.sender.map .string),
   ("sequence_number", b.sequenceNumber.map fun n => .nat n.toNat),
   ("signature", b.signature.map .string), ("public_key", b.publicKey.map .string),
   ("expiration_timestamp_secs", b.expiration.map fun n => .nat n.toNat)]

theorem Body.toJson_eq (b : Body) : b.toJson = .object (written b.fields) := by
  simp [toJson, fields]

@[simp] theorem Body.read_toJson (b : Body) : read view b.toJson = some b := by
  have found : view.fields? fieldNames b.toJson = some (b.fields.map Prod.snd) := by
    rw [toJson_eq]
    exact fields?_written (by decide : fieldNames.Nodup)
  simp [read, found, fields]

/-- The fields of an event with their values. -/
def Entry.fields (e : Entry) : List (String × Option Json) :=
  [("key", some (.string e.key)), ("sequence_number", some (.nat e.sequenceNumber.toNat)),
   ("transaction_version", some (.nat e.version.toNat)), ("data", some e.data)]

theorem Entry.toJson_eq (e : Entry) : e.toJson = .object (written e.fields) := rfl

@[simp] theorem Entry.read_toJson (e : Entry) : read view e.toJson = some e := by
  have found : view.fields? fieldNames e.toJson = some (e.fields.map Prod.snd) := by
    rw [toJson_eq]
    exact fields?_written (by decide : fieldNames.Nodup)
  have data : View.defaulted .null view.value? (some e.data) = some e.data := rfl
  simp [read, found, fields, data]

/-- The fields of a record with their values. -/
def fields (r : Record) : List (String × Option Json) :=
  [("version", some (.nat r.version.toNat)), ("hash", some (.string r.hash)),
   ("gas_used", some (.nat r.gasUsed.toNat)), ("vm_status", some r.status.toJson),
   ("transaction", some r.body.toJson), ("events", some (.array (r.events.map Entry.toJson)))]

theorem toJson_eq (r : Record) : r.toJson = .object (written r.fields) := rfl

/-- A record is read back from its JSON. -/
@[simp] theorem ofJson?_toJson (r : Record) : ofJson? r.toJson = some r := by
  have found : view.fields? fieldNames r.toJson = some (r.fields.map Prod.snd) := by
    rw [toJson_eq]
    exact fields?_written (by decide : fieldNames.Nodup)
  have status : View.required (Status.read view) (some r.status.toJson) = some r.status :=
    Status.read_toJson r.status
  have body : View.defaulted .empty (Body.read view) (some r.body.toJson) = some r.body :=
    Body.read_toJson r.body
  have events : View.defaulted [] (view.list? (Entry.read view))
      (some (.array (r.events.map Entry.toJson))) = some r.events :=
    View.mapM_map Entry.read_toJson r.events
  simp [ofJson?, read, found, fields, status, body, events]

end Record

end LedgerClient
