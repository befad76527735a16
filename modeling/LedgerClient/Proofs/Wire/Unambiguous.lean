import LedgerClient.Proofs.Octets.Parts
import LedgerClient.Proofs.Text.Utf8
import LedgerClient.Proofs.Wire.Append
import LedgerClient.Proofs.Wire.Number

/-!
# Forms that show where they end

A codec is unambiguous at a value if no form of another value can be told for it, whatever stands
behind the two. This is said value by value, so that it can be proved by induction on values whose
parts are of the same type, and it does not ask for a reader: values that no reader accepts have
unambiguous forms too.
-/

set_option autoImplicit false

namespace LedgerClient.Codec

variable {α β : Type} {a : Codec α} {b : Codec β}

/-- The form of the value, with anything behind it, is not that of another value with anything
behind it. -/
def Unambiguous (c : Codec α) (v : α) : Prop :=
  ∀ w s t, c.write v ++ s = c.write w ++ t → v = w ∧ s = t

theorem Unambiguous.eq {v w : α} (h : a.Unambiguous v) (same : a.write v = a.write w) : v = w :=
  (h w [] [] (congrArg (· ++ []) same)).1

/-- It depends on the writer only. -/
theorem Unambiguous.of_push {c : Codec α} {v : α} (h : a.Unambiguous v) (push : a.push = c.push) :
    c.Unambiguous v := by
  have write : a.write = c.write := by
    funext w
    rw [Codec.write, Codec.write, push]
  intro w s t same
  rw [← write] at same
  exact h w s t same

/-- Forms of one size are unambiguous if they differ. -/
theorem unambiguous_of_length (length : ∀ v w, (a.write v).length = (a.write w).length)
    (injective : ∀ v w, a.write v = a.write w → v = w) (v : α) : a.Unambiguous v := by
  intro w s t same
  obtain ⟨forms, tails⟩ := List.append_inj same (length v w)
  exact ⟨injective v w forms, tails⟩

theorem unambiguous_unit (v : Unit) : unit.Unambiguous v := fun _ _ _ same => ⟨rfl, same⟩

theorem unambiguous_u8 (v : UInt8) : u8.Unambiguous v := by
  intro w s t same
  rw [write_u8, write_u8] at same
  exact List.cons.inj same

theorem unambiguous_bool (v : Bool) : bool.Unambiguous v := by
  intro w s t same
  obtain ⟨byte, tails⟩ := List.cons.inj same
  refine ⟨?_, tails⟩
  revert byte
  cases v <;> cases w <;> decide

theorem unambiguous_number (n : Nat) : number.Unambiguous n := by
  intro m s t same
  rw [write_number, write_number] at same
  exact Uleb128.encode_append_inj same

/-- A byte string is found by its length. -/
theorem unambiguous_bytes (v : Bytes) : bytes.Unambiguous v := by
  intro w s t same
  rw [write_bytes, write_bytes, List.append_assoc, List.append_assoc] at same
  obtain ⟨lengths, contents⟩ := Uleb128.encode_append_inj same
  exact List.append_inj contents lengths

/-- What is written as something else is as unambiguous as that, if `forget` loses nothing. -/
theorem Unambiguous.checked {check : α → Except DataError β} {forget : β → α} {v : β}
    (h : a.Unambiguous (forget v)) (injective : ∀ v w, forget v = forget w → v = w) :
    (a.checked check forget).Unambiguous v := by
  intro w s t same
  obtain ⟨forgotten, tails⟩ := h _ _ _ same
  exact ⟨injective v w forgotten, tails⟩

theorem Unambiguous.via {build : α → β} {forget : β → α} {v : β}
    (h : a.Unambiguous (forget v)) (build_forget : ∀ v, build (forget v) = v) :
    (a.via build forget).Unambiguous v := by
  intro w s t same
  obtain ⟨forgotten, tails⟩ := h _ _ _ same
  exact ⟨by rw [← build_forget v, forgotten, build_forget], tails⟩

theorem Unambiguous.pair (ha : a.Appends) (hb : b.Appends) {v : α × β} (first : a.Unambiguous v.1)
    (second : b.Unambiguous v.2) : (a.pair b).Unambiguous v := by
  intro w s t same
  rw [write_pair ha hb, write_pair ha hb, List.append_assoc, List.append_assoc] at same
  obtain ⟨left, more⟩ := first _ _ _ same
  obtain ⟨right, tails⟩ := second _ _ _ more
  exact ⟨Prod.ext left right, tails⟩

theorem Unambiguous.option (ha : a.Appends) {o : Option α} (h : ∀ v, o = some v → a.Unambiguous v) :
    a.option.Unambiguous o := by
  intro o' s t same
  cases o <;> cases o' <;>
    simp only [write_option_none, write_option_some ha, List.cons_append, List.nil_append,
      List.cons.injEq] at same
  · exact ⟨rfl, same.2⟩
  · exact absurd same.1 (by decide)
  · exact absurd same.1 (by decide)
  · obtain ⟨rfl, tails⟩ := h _ rfl _ _ _ same.2
    exact ⟨rfl, tails⟩

/-- Equally many values, one after the other, are found one by one. -/
theorem flatMap_append_inj {vs ws : List α} {s t : Bytes} (h : ∀ v ∈ vs, a.Unambiguous v)
    (lengths : vs.length = ws.length)
    (same : vs.flatMap a.write ++ s = ws.flatMap a.write ++ t) : vs = ws ∧ s = t := by
  induction vs generalizing ws with
  | nil =>
    obtain rfl := List.length_eq_zero_iff.1 lengths.symm
    exact ⟨rfl, same⟩
  | cons v vs ih =>
    cases ws with
    | nil => cases lengths
    | cons w ws =>
      obtain ⟨first, others⟩ := List.forall_mem_cons.1 h
      rw [List.flatMap_cons, List.flatMap_cons, List.append_assoc, List.append_assoc] at same
      obtain ⟨rfl, more⟩ := first _ _ _ same
      obtain ⟨rfl, tails⟩ := ih others (Nat.succ.inj lengths) more
      exact ⟨rfl, tails⟩

theorem Unambiguous.list (ha : a.Appends) {vs : List α} (h : ∀ v ∈ vs, a.Unambiguous v) :
    a.list.Unambiguous vs := by
  intro ws s t same
  rw [write_list ha, write_list ha, List.append_assoc, List.append_assoc] at same
  obtain ⟨lengths, contents⟩ := Uleb128.encode_append_inj same
  exact flatMap_append_inj h lengths contents

end LedgerClient.Codec
