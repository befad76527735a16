import LedgerClient.Proofs.Wire.Reader
import LedgerClient.Wire.Codec
import LedgerClient.Wire.Cursor

/-!
# Readers as readings

A reader is a function of the unread bytes and does not show how it goes about them. Its `Plan` does:
a reading that comes to the same. Plans are put together as the readers are, so that each codec has one
for the reason that its parts have.
-/

set_option autoImplicit false

namespace LedgerClient

variable {α β : Type}

theorem Reading.onUnread_andThen (p : Reading α) (f : α → Reading β) :
    (p.andThen f).onUnread = .andThen p.onUnread fun a => (f a).onUnread := by
  induction p with
  | answer result => cases result <;> rfl
  | take count next ih =>
    funext unread
    by_cases enough : (unread.take count).length = count
    · simp only [andThen, onUnread, Reader.andThen, dif_pos enough, ih]
    · simp only [andThen, onUnread, Reader.andThen, dif_neg enough]
  | remaining next ih =>
    funext unread
    simp only [andThen, onUnread, Reader.andThen, ih]

/-- A reading that does what the reader does. -/
structure Reader.Plan (r : Reader α) where
  reading : Reading α
  faithful : reading.onUnread = r

namespace Reader.Plan

variable {r : Reader α} {f : α → Reader β}

protected def ofExcept (e : Except DataError α) : (ofExcept e).Plan := ⟨.answer e, rfl⟩

protected def ok (a : α) : (ok a).Plan := .ofExcept (.ok a)

protected def fail (e : DataError) : (fail e : Reader α).Plan := .ofExcept (.error e)

protected def take (count : Nat) : (take count).Plan where
  reading := .take count fun bytes => .answer (.ok bytes.toList)
  faithful := by
    funext unread
    simp only [Reading.onUnread, take]
    split <;> rfl

/-- One byte is the first of one byte. -/
protected def byte : byte.Plan where
  reading := .take 1 fun bytes => .answer <| .ok <| bytes.toList.head <| by
    intro empty
    have length := bytes.length_toList
    rw [empty] at length
    cases length
  faithful := by
    funext unread
    cases unread <;> rfl

protected def andThen (p : r.Plan) (q : ∀ a, (f a).Plan) : (andThen r f).Plan where
  reading := p.reading.andThen fun a => (q a).reading
  faithful := by
    rw [Reading.onUnread_andThen, p.faithful]
    exact congrArg (Reader.andThen r) (funext fun a => (q a).faithful)

protected def ite {c : Prop} [Decidable c] {r' : Reader α} (p : r.Plan) (q : r'.Plan) :
    (if c then r else r').Plan where
  reading := if c then p.reading else q.reading
  faithful := by
    split
    · exact p.faithful
    · exact q.faithful

protected def times (p : r.Plan) : (count : Nat) → (times count r).Plan
  | 0 => .ok []
  | count + 1 => .andThen p fun a => .andThen (p.times count) fun rest => .ok (a :: rest)

/-- Room is made for as many values as there are remaining bytes, and then they are read. -/
protected def withRoom (p : r.Plan) : r.Plan := ⟨.remaining fun _ => p.reading, p.faithful⟩

protected def finish : finish.Plan where
  reading := .remaining fun
    | 0 => .answer (.ok ())
    | left + 1 => .answer (.error (.trailing (left + 1)))
  faithful := by
    funext unread
    cases unread <;> rfl

/-- A group of a number in the variable-length form, and those behind it. -/
protected def groups : (groups : Nat) → (first : Bool) → (Uleb128.readGroups groups first).Plan
  | 0, _ => .fail .numberTooLarge
  | groups + 1, _ => .andThen .byte fun _ =>
    .ite (.ite (.fail .numberNotMinimal) (.ok _)) (.andThen (.groups groups false) fun _ => .ok _)

protected def number : Uleb128.read.Plan :=
  .andThen (.groups 5 true) fun _ => .ite (.ok _) (.fail .numberTooLarge)

end Reader.Plan

namespace Codec

/-- How the values are read. -/
abbrev Plan (c : Codec α) : Type := c.read.Plan

/-- A plan for the content of each alternative. -/
def Plans : List (Case α) → Type
  | [] => Unit
  | case :: rest => case.content.Plan × Plans rest

namespace Plan

variable {c : Codec α} {d : Codec β}

protected def checked {check : α → Except DataError β} {forget : β → α} (p : c.Plan) :
    (c.checked check forget).Plan :=
  .andThen p fun a => .ofExcept (check a)

protected def via {build : α → β} {forget : β → α} (p : c.Plan) : (c.via build forget).Plan :=
  .andThen p fun a => .ok (build a)

protected def unit : unit.Plan := .ok ()

protected def littleEndian (width : Nat) : (littleEndian width).Plan :=
  .andThen (.take width) fun _ => .ok _

protected def u8 : u8.Plan := .byte

protected def u16 : u16.Plan := .via (.littleEndian 2)

protected def u32 : u32.Plan := .via (.littleEndian 4)

protected def u64 : u64.Plan := .via (.littleEndian 8)

protected def u128 : u128.Plan := .via (.littleEndian 16)

protected def bool : bool.Plan :=
  .andThen .byte fun _ => .ite (.ok false) (.ite (.ok true) (.fail _))

protected def bytes : bytes.Plan := .andThen .number fun count => .take count

protected def text : text.Plan := .checked .bytes

protected def bare (kind : Octets.Kind) : (bare kind).Plan := .checked (.take kind.size)

protected def framed (kind : Octets.Kind) : (framed kind).Plan := .checked .bytes

protected def pair (p : c.Plan) (q : d.Plan) : (c.pair d).Plan :=
  .andThen p fun _ => .andThen q fun _ => .ok _

protected def option (p : c.Plan) : c.option.Plan :=
  .andThen .byte fun _ => .ite (.ok none) (.ite (.andThen p fun _ => .ok _) (.fail _))

protected def list (p : c.Plan) : c.list.Plan :=
  .andThen .number fun count => .withRoom (p.times count)

/-- The content at an index, if there is such an alternative. -/
protected def content {other : Reader α} (q : other.Plan) :
    (cases : List (Case α)) → Plans cases → (index : Nat) →
      Reader.Plan (match cases[index]? with
        | some case => .andThen case.content.read fun content => .ok (case.build content)
        | none => other)
  | [], _, _ => q
  | _ :: _, (p, _), 0 => .andThen p fun _ => .ok _
  | _ :: rest, (_, plans), index + 1 => Plan.content q rest plans index

protected def union {cases : List (Case α)} {typeName : String} (plans : Plans cases) :
    (union typeName cases).Plan :=
  .andThen .number fun index =>
    Plan.content (.fail (.unknownVariant typeName index)) cases plans index

end Plan

end Codec

end LedgerClient
