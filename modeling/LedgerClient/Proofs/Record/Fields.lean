import LedgerClient.Proofs.Json.Fields
import LedgerClient.Record.Basic
import Mathlib.Data.List.Forall2

/-!
# What counts in the JSON of a record

A record is told by the known fields of its object and of the objects in it: its status, its body and
its events. Two pieces of JSON that have these in common stand for the same record, or neither stands
for one (`ofJson?_congr`). The data of an event counts as it is.
-/

set_option autoImplicit false

namespace LedgerClient

open Json (View)

section Parts

variable {D : Type} {v : View D} {d d' : D}

theorem Status.read_congr (lawful : v.Lawful) (alike : v.Alike (View.plain fieldNames) d d') :
    read v d = read v d' := by
  rw [read, read, View.fields?_congr lawful alike]

theorem Record.Body.read_congr (lawful : v.Lawful) (alike : v.Alike (View.plain fieldNames) d d') :
    read v d = read v d' := by
  rw [read, read, View.fields?_congr lawful alike]

theorem Record.Entry.read_congr (lawful : v.Lawful)
    (alike : v.Alike (View.plain fieldNames) d d') : read v d = read v d' := by
  rw [read, read, View.fields?_congr lawful alike]

end Parts

namespace Record

variable {D : Type} {v : View D} {d d' : D} {j j' : Json}

/-- The same piece of JSON, or two arrays of events with the same known fields. -/
def EventsAlike (v : View D) (d d' : D) : Prop :=
  d = d' ∨ ∃ items items', v.items? d = some items ∧ v.items? d' = some items' ∧
    List.Forall₂ (v.Alike (View.plain Entry.fieldNames)) items items'

/-- The known fields of a record, and what two records have to have in common under each. -/
def known (v : View D) : View.Known D :=
  [("version", Eq), ("hash", Eq), ("gas_used", Eq),
   ("vm_status", Option.Rel (v.Alike (View.plain Status.fieldNames))),
   ("transaction", Option.Rel (v.Alike (View.plain Body.fieldNames))),
   ("events", Option.Rel (EventsAlike v))]

/-- Two pieces of JSON with the same known fields of a record. -/
def Alike (v : View D) (d d' : D) : Prop := v.Alike (known v) d d'

theorem map_fst_known (v : View D) : (known v).map Prod.fst = fieldNames := rfl

theorem list?_congr (lawful : v.Lawful) (alike : EventsAlike v d d') :
    v.list? (Entry.read v) d = v.list? (Entry.read v) d' := by
  rcases alike with rfl | ⟨items, items', is, is', alike⟩
  · rfl
  · have same : items.mapM (Entry.read v) = items'.mapM (Entry.read v) := by
      clear is is'
      induction alike with
      | nil => rfl
      | cons first others ih =>
        rw [List.mapM_cons, List.mapM_cons, Entry.read_congr lawful first, ih]
    simp only [View.list?, is, is', same]

theorem read_congr (lawful : v.Lawful) (alike : Alike v d d') : read v d = read v d' := by
  rcases alike with rfl | ⟨members, members', is, is', same⟩
  · rfl
  · have fields := View.fields?_of_sameKnown lawful is is' same
    rw [map_fst_known] at fields
    rw [read, read]
    generalize v.fields? fieldNames d = found at fields
    generalize v.fields? fieldNames d' = found' at fields
    cases fields with
    | none => rfl
    | some fields =>
      obtain ⟨⟩ | ⟨rfl, fields⟩ := fields
      obtain ⟨⟩ | ⟨rfl, fields⟩ := fields
      obtain ⟨⟩ | ⟨rfl, fields⟩ := fields
      obtain ⟨⟩ | ⟨status, fields⟩ := fields
      obtain ⟨⟩ | ⟨body, fields⟩ := fields
      obtain ⟨⟩ | ⟨events, fields⟩ := fields
      cases fields
      simp only [View.required_congr status (Status.read_congr lawful),
        View.defaulted_congr body (Body.read_congr lawful),
        View.defaulted_congr events (list?_congr lawful)]

theorem ofJson?_congr (alike : Alike Json.view j j') : ofJson? j = ofJson? j' :=
  read_congr Json.lawful_view alike

theorem Alike.eq_null_iff (alike : Alike Json.view j j') : j = .null ↔ j' = .null := by
  rcases alike with rfl | ⟨members, members', is, is', -⟩
  · rfl
  · have null : j ≠ .null := fun null => by simp [null, Json.view] at is
    have null' : j' ≠ .null := fun null' => by simp [null', Json.view] at is'
    exact iff_of_false null null'

end Record

end LedgerClient
