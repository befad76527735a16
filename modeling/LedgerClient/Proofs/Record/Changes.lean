import LedgerClient.Proofs.Record.RoundTrip
import Mathlib.Logic.Relation

/-!
# What a reader of records does not see

The JSON of a record holds objects of four kinds: the record, its status, its body, and its events.
A reader does not see a change that leaves the known fields of one of them alone: another order,
a member of another name, null for a field that may be missing. One such change is a `Change`. Any
number of them, made or undone, leaves the record that is read as it was.
-/

set_option autoImplicit false

namespace LedgerClient.Record

open Json (View view)
open Json.View (reading)

/-- What an object in the JSON of a record describes. -/
inductive Part where
  | record
  | status
  | body
  | entry
  deriving DecidableEq, Repr

namespace Part

/-- What the object is read as. -/
abbrev Value : Part → Type
  | record => Record
  | status => Status
  | body => Body
  | entry => Entry

/-- Reads the object. -/
def read : (part : Part) → Json → Option part.Value
  | record => ofJson?
  | status => Status.read view
  | body => Body.read view
  | entry => Entry.read view

/-- The names of the fields. -/
def names : Part → List String
  | record => fieldNames
  | status => Status.fieldNames
  | body => Body.fieldNames
  | entry => Entry.fieldNames

/-- The names of the fields that are read as nothing where they are missing or null. -/
def optional : Part → List String
  | status => ["location", "abort_code", "function_index", "code_offset"]
  | body => ["sender", "sequence_number", "signature", "public_key", "expiration_timestamp_secs"]
  | _ => []

/-- The fields, each with what is read from it. -/
def known : Part → View.Known Json
  | record =>
    [reading "version" (View.required view.u64?), reading "hash" (View.required view.string?),
     reading "gas_used" (View.required view.u64?),
     reading "vm_status" (View.required (Status.read view)),
     reading "transaction" (View.defaulted .empty (Body.read view)),
     reading "events" (View.defaulted [] (view.list? (Entry.read view)))]
  | status =>
    [reading "type" (View.required view.string?), reading "location" (view.optional view.string?),
     reading "abort_code" (view.optional view.u64?),
     reading "function_index" (view.optional view.u16?),
     reading "code_offset" (view.optional view.u16?)]
  | body =>
    [reading "type" (View.required view.string?), reading "sender" (view.optional view.string?),
     reading "sequence_number" (view.optional view.u64?),
     reading "signature" (view.optional view.string?),
     reading "public_key" (view.optional view.string?),
     reading "expiration_timestamp_secs" (view.optional view.u64?)]
  | entry =>
    [reading "key" (View.required view.string?),
     reading "sequence_number" (View.required view.u64?),
     reading "transaction_version" (View.required view.u64?),
     reading "data" (View.defaulted .null view.value?)]

theorem map_fst_known (part : Part) : part.known.map Prod.fst = part.names := by
  cases part <;> rfl

theorem known_refl (part : Part) : ∀ field ∈ part.known, ∀ o, field.2 o o := by
  cases part <;> simp [known]

/-- Null reads as a field that is missing. -/
theorem known_null (part : Part) :
    ∀ field ∈ part.known, field.1 ∈ part.optional → field.2 none (some .null) := by
  cases part <;> simp [known, optional, View.optional, view]

variable {members members' : List (String × Json)}

/-! The fields of an object are read one by one, and each of them reads alike. -/

theorem status_congr (same : View.SameKnown (known status) members members') :
    Status.read view (.object members) = Status.read view (.object members') := by
  rw [Status.read, Status.read]
  have names : (known status).map Prod.fst = Status.fieldNames := rfl
  rcases Json.fields?_agree names same with
    ⟨none, none'⟩ | ⟨os, os', found, found', fields⟩
  · rw [none, none']
  · rw [found, found']
    obtain ⟨⟩ | ⟨kind, fields⟩ := fields
    obtain ⟨⟩ | ⟨location, fields⟩ := fields
    obtain ⟨⟩ | ⟨abortCode, fields⟩ := fields
    obtain ⟨⟩ | ⟨functionIndex, fields⟩ := fields
    obtain ⟨⟩ | ⟨codeOffset, fields⟩ := fields
    cases fields
    simp only [kind, location, abortCode, functionIndex, codeOffset]

theorem body_congr (same : View.SameKnown (known body) members members') :
    Body.read view (.object members) = Body.read view (.object members') := by
  rw [Body.read, Body.read]
  have names : (known body).map Prod.fst = Body.fieldNames := rfl
  rcases Json.fields?_agree names same with
    ⟨none, none'⟩ | ⟨os, os', found, found', fields⟩
  · rw [none, none']
  · rw [found, found']
    obtain ⟨⟩ | ⟨kind, fields⟩ := fields
    obtain ⟨⟩ | ⟨sender, fields⟩ := fields
    obtain ⟨⟩ | ⟨sequenceNumber, fields⟩ := fields
    obtain ⟨⟩ | ⟨signature, fields⟩ := fields
    obtain ⟨⟩ | ⟨publicKey, fields⟩ := fields
    obtain ⟨⟩ | ⟨expiration, fields⟩ := fields
    cases fields
    simp only [kind, sender, sequenceNumber, signature, publicKey, expiration]

theorem entry_congr (same : View.SameKnown (known entry) members members') :
    Entry.read view (.object members) = Entry.read view (.object members') := by
  rw [Entry.read, Entry.read]
  have names : (known entry).map Prod.fst = Entry.fieldNames := rfl
  rcases Json.fields?_agree names same with
    ⟨none, none'⟩ | ⟨os, os', found, found', fields⟩
  · rw [none, none']
  · rw [found, found']
    obtain ⟨⟩ | ⟨key, fields⟩ := fields
    obtain ⟨⟩ | ⟨sequenceNumber, fields⟩ := fields
    obtain ⟨⟩ | ⟨version, fields⟩ := fields
    obtain ⟨⟩ | ⟨data, fields⟩ := fields
    cases fields
    simp only [key, sequenceNumber, version, data]

theorem record_congr (same : View.SameKnown (known record) members members') :
    ofJson? (.object members) = ofJson? (.object members') := by
  rw [ofJson?, ofJson?, Record.read, Record.read]
  have names : (known record).map Prod.fst = fieldNames := rfl
  rcases Json.fields?_agree names same with
    ⟨none, none'⟩ | ⟨os, os', found, found', fields⟩
  · rw [none, none']
  · rw [found, found']
    obtain ⟨⟩ | ⟨version, fields⟩ := fields
    obtain ⟨⟩ | ⟨hash, fields⟩ := fields
    obtain ⟨⟩ | ⟨gasUsed, fields⟩ := fields
    obtain ⟨⟩ | ⟨status, fields⟩ := fields
    obtain ⟨⟩ | ⟨body, fields⟩ := fields
    obtain ⟨⟩ | ⟨events, fields⟩ := fields
    cases fields
    simp only [version, hash, gasUsed, status, body, events]

/-- Objects whose known fields read alike are read alike. -/
theorem read_of_sameKnown (part : Part) (same : View.SameKnown part.known members members') :
    part.read (.object members) = part.read (.object members') := by
  cases part with
  | record => exact record_congr same
  | status => exact status_congr same
  | body => exact body_congr same
  | entry => exact entry_congr same

end Part

/-- A change to one of the objects in the JSON of a record that leaves its known fields alone. The data
of an event is left as it is. -/
inductive Change : Part → Json → Json → Prop
  /-- The object itself is changed. -/
  | fields {part : Part} {members members' : List (String × Json)}
    (change : Json.Change part.names part.optional members members') :
    Change part (.object members) (.object members')
  /-- The status in a record is changed. -/
  | status {j j' : Json} (front back : List (String × Json)) (change : Change .status j j') :
    Change .record (.object (front ++ ("vm_status", j) :: back))
      (.object (front ++ ("vm_status", j') :: back))
  /-- The body in a record is changed. -/
  | body {j j' : Json} (front back : List (String × Json)) (change : Change .body j j') :
    Change .record (.object (front ++ ("transaction", j) :: back))
      (.object (front ++ ("transaction", j') :: back))
  /-- One of the events in a record is changed. -/
  | event {j j' : Json} (front back : List (String × Json)) (before behind : List Json)
    (change : Change .entry j j') :
    Change .record (.object (front ++ ("events", .array (before ++ j :: behind)) :: back))
      (.object (front ++ ("events", .array (before ++ j' :: behind)) :: back))

variable {part : Part} {j j' : Json}

theorem list?_replace (before behind : List Json)
    (same : Entry.read view j = Entry.read view j') :
    view.list? (Entry.read view) (.array (before ++ j :: behind)) =
      view.list? (Entry.read view) (.array (before ++ j' :: behind)) := by
  show (before ++ j :: behind).mapM (Entry.read view) = (before ++ j' :: behind).mapM (Entry.read view)
  rw [List.mapM_append, List.mapM_append, List.mapM_cons, List.mapM_cons, same]

/-- A field of the record reads alike, and the others are the same. -/
theorem record_replace {name : String} (front back : List (String × Json))
    (same : ∀ field ∈ Part.known .record, field.1 = name → field.2 (some j) (some j')) :
    ofJson? (.object (front ++ (name, j) :: back)) =
      ofJson? (.object (front ++ (name, j') :: back)) :=
  Part.read_of_sameKnown .record (View.sameKnown_replace (Part.known_refl .record) same)

/-- A change does not change what is read. The induction is on where the object stands. -/
theorem read_of_change (change : Change part j j') : part.read j = part.read j' := by
  induction change with
  | @fields part members members' change =>
    rw [← part.map_fst_known] at change
    exact part.read_of_sameKnown (Json.sameKnown_of_change part.known_refl part.known_null change)
  | @status j j' front back change same =>
    have same : View.required (Status.read view) (some j) =
      View.required (Status.read view) (some j') := same
    exact record_replace front back (by simpa [Part.known] using same)
  | @body j j' front back change same =>
    have same : View.defaulted .empty (Body.read view) (some j) =
      View.defaulted .empty (Body.read view) (some j') := same
    exact record_replace front back (by simpa [Part.known] using same)
  | @event j j' front back before behind change same =>
    have same : View.defaulted [] (view.list? (Entry.read view))
        (some (.array (before ++ j :: behind))) =
      View.defaulted [] (view.list? (Entry.read view)) (some (.array (before ++ j' :: behind))) :=
      list?_replace before behind same
    exact record_replace front back (by simpa [Part.known] using same)

/-- A record is read back from its JSON, and what is read does not depend on changes to the objects
in it, made or undone one after the other, that leave their known fields alone. -/
theorem record_read_despite_changes :
    (∀ r : Record, ofJson? r.toJson = some r) ∧
      ∀ j j', Relation.EqvGen (Change .record) j j' → ofJson? j = ofJson? j' := by
  refine ⟨ofJson?_toJson, fun j j' changes => ?_⟩
  induction changes with
  | rel j j' change => exact read_of_change change
  | refl j => rfl
  | symm j j' _ same => exact same.symm
  | trans j mid j' _ _ first second => exact first.trans second

namespace Sample

def entry : Entry := ⟨"00", 1, 100, .object [("key", .null), ("note", .array [.bool true])]⟩

/-- A record with an event, and without most of what a sender may write. -/
def record : Record where
  version := 100
  hash := "ABCD"
  gasUsed := 7
  status := .ofKind "executed"
  body := ⟨"user", none, some 3, some "ef01", none, none⟩
  events := [entry]

/-- The members of the record with these objects in it. -/
def members (status body event : Json) : List (String × Json) :=
  [("version", .nat 100), ("hash", .string "ABCD"), ("gas_used", .nat 7), ("vm_status", status),
   ("transaction", body), ("events", .array [event])]

/-- The status with a member that is not known. -/
def explained : Json := .object [("type", .string "executed"), ("explanation", .object [])]

/-- The body with null for its sender. -/
def unsent : Json :=
  .object [("type", .string "user"), ("sender", .null), ("sequence_number", .nat 3),
    ("signature", .string "ef01")]

/-- The event the other way round. -/
def turned : Json :=
  .object [("data", entry.data), ("transaction_version", .nat 100), ("sequence_number", .nat 1),
    ("key", .string "00")]

theorem changes : Relation.EqvGen (Change .record) record.toJson
    (.object (members explained unsent turned)) := by
  have status : Change .status record.status.toJson explained :=
    .fields (.unknown [("type", .string "executed")] [] (.object [])
      (by decide : "explanation" ∉ Status.fieldNames))
  have body : Change .body record.body.toJson unsent :=
    .fields (.null [("type", .string "user")]
      [("sequence_number", .nat 3), ("signature", .string "ef01")]
      (by decide : "sender" ∈ Part.body.optional) (by decide))
  have event : Change .entry entry.toJson turned := .fields (.reorder (List.reverse_perm _).symm)
  have first : Change .record record.toJson
      (.object (members explained record.body.toJson entry.toJson)) := .status [_, _, _] [_, _] status
  have second : Change .record (.object (members explained record.body.toJson entry.toJson))
      (.object (members explained unsent entry.toJson)) := .body [_, _, _, _] [_] body
  have third : Change .record (.object (members explained unsent entry.toJson))
      (.object (members explained unsent turned)) := .event [_, _, _, _, _] [] [] [] event
  exact .trans _ _ _ (.rel _ _ first) (.trans _ _ _ (.rel _ _ second) (.rel _ _ third))

end Sample

theorem changed_record_is_read :
    Relation.EqvGen (Change .record) Sample.record.toJson
        (.object (Sample.members Sample.explained Sample.unsent Sample.turned)) ∧
      ofJson? (.object (Sample.members Sample.explained Sample.unsent Sample.turned)) =
        some Sample.record :=
  ⟨Sample.changes, (record_read_despite_changes.2 _ _ Sample.changes).symm.trans
    (record_read_despite_changes.1 Sample.record)⟩

end LedgerClient.Record
