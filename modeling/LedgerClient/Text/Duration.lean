import LedgerClient.Text.Digits

/-!
# Durations as text

A number of milliseconds in the largest of the units `s` and `ms` that leaves at least one unit,
with the fraction of a second written without trailing zeros.
-/

set_option autoImplicit false

namespace LedgerClient.Duration

/-- The text of a number of milliseconds. -/
def text (ms : Nat) : String :=
  if ms = 0 then "0ns"
  else if ms < 1000 then s!"{ms}ms"
  else if ms % 1000 = 0 then s!"{ms / 1000}s"
  else
    s!"{ms / 1000}." ++ String.ofList (Digits.trimZeros (Digits.padded 3 (ms % 1000))) ++ "s"

end LedgerClient.Duration
