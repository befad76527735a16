import LedgerClient.Proofs.Octets.Parts
import LedgerClient.Proofs.Text.Hex

/-!
# The text form of octets

A text is read as a value if it is, with its letters in either case, the text form of the value,
behind the mark where the kind has one. So a text is read as one value at most.
-/

set_option autoImplicit false

namespace LedgerClient.Octets

variable {kind : Kind}

@[simp] theorem ofBytes_eq_ok_iff {bytes : Bytes} {x : Octets kind} :
    ofBytes kind bytes = .ok x ↔ bytes = x.toList := by
  constructor
  · exact fun h => (toList_of_ofBytes h).symm
  · rintro rfl
    exact ofBytes_toList x

/-- Different values have different text forms. -/
@[simp] theorem hex_inj {x y : Octets kind} : x.hex = y.hex ↔ x = y := by
  simp [← String.toList_inj]

/-- Reading a text gives the value whose text form it is in lower case. -/
theorem ofHex_eq_ok_iff {text : String} {x : Octets kind} :
    ofHex kind text = .ok x ↔
      (digits kind text).toList.map Char.toLower = x.hex.toList := by
  rw [toList_hex, ← Hex.decode_eq_ok_iff, ofHex]
  constructor
  · intro h
    split at h
    · cases h
    · rename_i bytes read
      rw [read, ofBytes_eq_ok_iff.1 h]
  · intro read
    simp only [read]
    exact ofBytes_toList x

end LedgerClient.Octets
