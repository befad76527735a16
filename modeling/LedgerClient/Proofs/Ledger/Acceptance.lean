import LedgerClient.Client.Basic

/-!
# What a tracker accepts

A tracker makes one of three things of an answer with a ledger state. A state of another chain is
refused as foreign, whatever its numbers are. A state of the tracker's own chain is refused as
stale if it is behind the last accepted one in its version or in its time. Any other state is
accepted, and is from then on the last one. `receive_foreign`, `receive_outdated` and
`receive_accepted` say so for the answer of a call; `simp` uses them where it is told which of the
three is the case, and no later proof opens `accept`.
-/

set_option autoImplicit false

namespace LedgerClient

namespace LedgerState

variable {s other : LedgerState}

theorem isBehind_eq_true_iff :
    s.isBehind other = true ↔ s.version < other.version ∨ s.timestamp < other.timestamp := by
  simp [isBehind]

theorem isBehind_eq_false_iff :
    s.isBehind other = false ↔ other.version ≤ s.version ∧ other.timestamp ≤ s.timestamp := by
  simp [isBehind]

end LedgerState

namespace Tracker

/-- The tracker takes this for the new state: it comes from the tracker's chain, and neither of
its numbers is below that of the last state. -/
def Accepts (t : Tracker) (chainId : UInt8) (state : LedgerState) : Prop :=
  chainId = t.chainId ∧ t.last.version ≤ state.version ∧ t.last.timestamp ≤ state.timestamp

/-- The state comes from the tracker's chain and is behind the last one. -/
def Outdated (t : Tracker) (chainId : UInt8) (state : LedgerState) : Prop :=
  chainId = t.chainId ∧
    (state.version < t.last.version ∨ state.timestamp < t.last.timestamp)

variable {t : Tracker} {chainId : UInt8} {state : LedgerState}

@[simp] theorem accept_foreign (h : chainId ≠ t.chainId) :
    t.accept chainId state = .error (.foreignChain t.chainId chainId) := by
  simp [accept, h]

@[simp] theorem accept_outdated (h : t.Outdated chainId state) :
    t.accept chainId state = .error (.stale t.last state) := by
  obtain ⟨chain, behind⟩ := h
  simp [accept, chain, LedgerState.isBehind_eq_true_iff.2 behind]

@[simp] theorem accept_accepts (h : t.Accepts chainId state) :
    t.accept chainId state = .ok { t with last := state } := by
  obtain ⟨chain, notBehind⟩ := h
  simp [accept, chain, LedgerState.isBehind_eq_false_iff.2 notBehind]

/-- There is no fourth case. -/
theorem foreign_or_outdated_or_accepts (t : Tracker) (chainId : UInt8) (state : LedgerState) :
    chainId ≠ t.chainId ∨ t.Outdated chainId state ∨ t.Accepts chainId state := by
  by_cases chain : chainId = t.chainId
  · cases behind : state.isBehind t.last with
    | true => exact .inr (.inl ⟨chain, LedgerState.isBehind_eq_true_iff.1 behind⟩)
    | false => exact .inr (.inr ⟨chain, LedgerState.isBehind_eq_false_iff.1 behind⟩)
  · exact .inl chain

section Receive

variable {α : Type} {response : Response α}

@[simp] theorem receive_foreign (h : response.chainId ≠ t.chainId) :
    t.receive (.ok response) =
      (.error (.rejected (.foreignChain t.chainId response.chainId)), t) := by
  simp [receive, h]

@[simp] theorem receive_outdated (h : t.Outdated response.chainId response.state) :
    t.receive (.ok response) = (.error (.rejected (.stale t.last response.state)), t) := by
  simp [receive, h]

@[simp] theorem receive_accepted (h : t.Accepts response.chainId response.state) :
    t.receive (.ok response) = (.ok response.result, { t with last := response.state }) := by
  simp [receive, h]

end Receive

end Tracker

end LedgerClient
