import Mathlib.Data.List.Forall2

/-!
# Texts up to the case of their letters

Only the letters of ASCII have two cases. `SameText` says of two texts that they agree character by
character, a letter in either case counting as the same, and has no lower case in it; two texts are
such if and only if they have the same lower case (`map_toLower_eq_iff`).
-/

set_option autoImplicit false

namespace LedgerClient.LetterCase

/-- The same character, or an ASCII letter in its two cases. -/
def SameLetter (c d : Char) : Prop :=
  c = d ∨ (c.isUpper = true ∧ d.toNat = c.toNat + 32) ∨ (d.isUpper = true ∧ c.toNat = d.toNat + 32)

/-- The texts agree but for the case of ASCII letters. -/
def SameText (a b : String) : Prop := List.Forall₂ SameLetter a.toList b.toList

theorem isUpper_iff {c : Char} : c.isUpper = true ↔ 65 ≤ c.toNat ∧ c.toNat ≤ 90 := by
  show decide ('A'.val ≤ c.val ∧ c.val ≤ 'Z'.val) = true ↔ _
  rw [decide_eq_true_iff, UInt32.le_iff_toNat_le, UInt32.le_iff_toNat_le]
  exact Iff.rfl

theorem toNat_toLower (c : Char) :
    c.toLower.toNat = if c.isUpper = true then c.toNat + 32 else c.toNat := by
  by_cases upper : c.isUpper = true
  · have small : c.toNat + 32 < 2 ^ 32 := by
      have range := isUpper_iff.1 upper
      omega
    have lower : c.toLower.toNat = (c.val + ('a'.val - 'A'.val)).toNat :=
      congrArg Char.toNat (dif_pos (of_decide_eq_true upper))
    rw [if_pos upper, lower, UInt32.toNat_add]
    exact Nat.mod_eq_of_lt small
  · rw [if_neg upper]
    exact congrArg Char.toNat (dif_neg fun range => upper (decide_eq_true range))

@[simp] theorem toLower_toLower (c : Char) : c.toLower.toLower = c.toLower := by
  have settled : ¬ c.toLower.isUpper = true := by
    rw [isUpper_iff, toNat_toLower]
    split
    · rename_i upper
      have := isUpper_iff.1 upper
      omega
    · rename_i other
      exact fun range => other (isUpper_iff.2 range)
  rw [← Char.toNat_inj, toNat_toLower c.toLower, if_neg settled]

theorem toLower_eq_toLower_iff {c d : Char} : c.toLower = d.toLower ↔ SameLetter c d := by
  rw [← Char.toNat_inj, toNat_toLower, toNat_toLower, SameLetter, ← Char.toNat_inj]
  simp only [isUpper_iff]
  split <;> split <;> omega

theorem map_toLower_eq_iff {a b : List Char} :
    a.map Char.toLower = b.map Char.toLower ↔ List.Forall₂ SameLetter a b := by
  rw [← List.forall₂_eq_eq_eq, List.forall₂_map_left_iff, List.forall₂_map_right_iff]
  simp only [toLower_eq_toLower_iff]

@[simp] theorem toList_toLower (text : String) : text.toLower.toList = text.toList.map Char.toLower :=
  String.toList_map

/-- Two texts have the same lower case if and only if they agree up to the case of letters. -/
theorem toLower_eq_iff {a b : String} : a.toLower = b.toLower ↔ SameText a b := by
  rw [← String.toList_inj, toList_toLower, toList_toLower]
  exact map_toLower_eq_iff

end LedgerClient.LetterCase
