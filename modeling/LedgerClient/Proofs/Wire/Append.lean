import LedgerClient.Wire.Codec

/-!
# What writers put behind a buffer

A writer `Appends` if it puts the same bytes behind every buffer. Writers that do so can be run one
after the other, and what the second one writes does not depend on the first. From this follows the
written form of every combination of codecs.
-/

set_option autoImplicit false

namespace LedgerClient

namespace Buffer

variable {push first second : Buffer → Buffer}

/-- Behind every buffer the writer puts the bytes that it puts into an empty one. -/
def Appends (push : Buffer → Buffer) : Prop :=
  ∀ buffer, (push buffer).toList = buffer.toList ++ contents push

theorem contents_of_form {form : Bytes}
    (h : ∀ buffer, (push buffer).toList = buffer.toList ++ form) : contents push = form := by
  simp [contents, h, empty]

theorem Appends.of_form {form : Bytes}
    (h : ∀ buffer, (push buffer).toList = buffer.toList ++ form) : Appends push := by
  intro buffer
  rw [h buffer, contents_of_form h]

@[simp] theorem appends_id : Appends fun buffer => buffer :=
  .of_form fun buffer => (List.append_nil buffer.toList).symm

@[simp] theorem appends_add (bytes : Bytes) : Appends fun buffer => buffer.add bytes :=
  .of_form fun buffer => toList_add buffer bytes

@[simp] theorem contents_add (bytes : Bytes) : contents (fun buffer => buffer.add bytes) = bytes :=
  contents_of_form fun buffer => toList_add buffer bytes

@[simp] theorem appends_push (b : UInt8) : Appends fun buffer => buffer.push b :=
  .of_form fun _ => Array.toList_push

@[simp] theorem contents_push (b : UInt8) : contents (fun buffer => buffer.push b) = [b] :=
  contents_of_form fun _ => Array.toList_push

theorem toList_comp (hf : Appends first) (hs : Appends second) (buffer : Buffer) :
    (second (first buffer)).toList = buffer.toList ++ (contents first ++ contents second) := by
  simp [hs (first buffer), hf buffer]

theorem Appends.comp (hf : Appends first) (hs : Appends second) :
    Appends fun buffer => second (first buffer) :=
  .of_form (toList_comp hf hs)

/-- Of two writers one after the other, each writes what it writes alone. -/
theorem contents_comp (hf : Appends first) (hs : Appends second) :
    contents (fun buffer => second (first buffer)) = contents first ++ contents second :=
  contents_of_form (toList_comp hf hs)

end Buffer

namespace Codec

open Buffer (contents_add contents_push contents_comp appends_add appends_push)

variable {α β : Type} {a : Codec α} {b : Codec β}

/-- Whatever has been written before, the codec leaves it and puts the form of the value behind. -/
def Appends (c : Codec α) : Prop := ∀ v, Buffer.Appends (c.push v)

@[simp] theorem appends_number : number.Appends := fun n => appends_add (Uleb128.encode n)

@[simp] theorem write_number (n : Nat) : number.write n = Uleb128.encode n :=
  contents_add (Uleb128.encode n)

@[simp] theorem appends_raw (count : Nat) : (raw count).Appends := appends_add

@[simp] theorem write_raw (count : Nat) (s : Bytes) : (raw count).write s = s := contents_add s

@[simp] theorem write_bare {kind : Octets.Kind} (x : Octets kind) : (bare kind).write x = x.toList :=
  contents_add x.toList

@[simp] theorem write_u8 (v : UInt8) : u8.write v = [v] := contents_push v

@[simp] theorem write_u64 (v : UInt64) : u64.write v = Bytes.littleEndian 8 v.toNat :=
  contents_add (Bytes.littleEndian 8 v.toNat)

@[simp] theorem appends_bytes : bytes.Appends :=
  fun s => (appends_number s.length).comp (appends_add s)

@[simp] theorem write_bytes (s : Bytes) : bytes.write s = Uleb128.encode s.length ++ s := by
  have form := contents_comp (appends_number s.length) (appends_add s)
  rwa [contents_add, ← write, write_number] at form

@[simp] theorem Appends.pair (ha : a.Appends) (hb : b.Appends) : (a.pair b).Appends :=
  fun v => (ha v.1).comp (hb v.2)

@[simp] theorem write_pair (ha : a.Appends) (hb : b.Appends) (v : α × β) :
    (a.pair b).write v = a.write v.1 ++ b.write v.2 :=
  contents_comp (ha v.1) (hb v.2)

@[simp] theorem Appends.option (ha : a.Appends) : a.option.Appends
  | none => appends_push 0
  | some v => (appends_push 1).comp (ha v)

@[simp] theorem write_option_none : a.option.write none = [0] := contents_push 0

@[simp] theorem write_option_some (ha : a.Appends) (v : α) : a.option.write (some v) = 1 :: a.write v := by
  have form := contents_comp (appends_push 1) (ha v)
  rwa [contents_push, List.singleton_append] at form

/-- A list behind a buffer: the number of the values and the form of each. -/
theorem toList_push_list (ha : a.Appends) (vs : List α) (buffer : Buffer) :
    (a.list.push vs buffer).toList =
      buffer.toList ++ (Uleb128.encode vs.length ++ vs.flatMap a.write) := by
  have values : ∀ (vs : List α) (buffer : Buffer),
      (vs.foldl (fun buffer v => a.push v buffer) buffer).toList =
        buffer.toList ++ vs.flatMap a.write := by
    intro vs
    induction vs with
    | nil => simp
    | cons v vs ih =>
      intro buffer
      simp [ih, ha v buffer, write]
  have count := appends_number vs.length buffer
  rw [← write, write_number] at count
  simp [list, values, count]

@[simp] theorem Appends.list (ha : a.Appends) : a.list.Appends :=
  fun vs => .of_form (toList_push_list ha vs)

@[simp] theorem write_list (ha : a.Appends) (vs : List α) :
    a.list.write vs = Uleb128.encode vs.length ++ vs.flatMap a.write :=
  Buffer.contents_of_form (toList_push_list ha vs)

end Codec

end LedgerClient
