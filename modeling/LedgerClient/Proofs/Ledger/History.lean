import LedgerClient.Client.Shared
import LedgerClient.Proofs.Ledger.Acceptance
import Mathlib.Order.Basic

/-!
# The history of a tracker

States are ordered by version and time together, so that of two states neither need be below the
other. A tracker accepts a visit exactly if the state that it reports comes from the tracker's chain
and is at least the last one (`judged`), and a refused visit leaves no trace
(`accepted_or_refused`). Over the visits of all callers, in whatever order they are made, the last
state therefore never falls, and it is the last one that was accepted (`history_of_start`).
-/

set_option autoImplicit false

namespace LedgerClient

namespace LedgerState

/-- A state is at most another if neither of its numbers is greater. -/
instance : PartialOrder LedgerState where
  le s other := s.version ≤ other.version ∧ s.timestamp ≤ other.timestamp
  le_refl _ := ⟨UInt64.le_refl _, UInt64.le_refl _⟩
  le_trans _ _ _ h h' := ⟨UInt64.le_trans h.1 h'.1, UInt64.le_trans h.2 h'.2⟩
  le_antisymm s other h h' := by
    cases s
    cases other
    exact congr (congrArg mk (UInt64.le_antisymm h.1 h'.1)) (UInt64.le_antisymm h.2 h'.2)

end LedgerState

namespace Visit

variable {α : Type} {t : Tracker} {visit : Visit α} {chainId : UInt8} {state : LedgerState}

theorem reply_foreign (reports : visit.report? = some (chainId, state))
    (chain : chainId ≠ t.chainId) :
    visit.reply t = .error (.rejected (.foreignChain t.chainId chainId)) ∧ visit.leave t = t := by
  match visit, reports with
  | .validate _ _, rfl =>
    simp [reply, leave, Tracker.observe, chain]
  | .fetch (.ok response), rfl =>
    simp [reply, leave, chain]

theorem reply_outdated (reports : visit.report? = some (chainId, state))
    (outdated : t.Outdated chainId state) :
    visit.reply t = .error (.rejected (.stale t.last state)) ∧ visit.leave t = t := by
  match visit, reports with
  | .validate _ _, rfl =>
    simp [reply, leave, Tracker.observe, outdated]
  | .fetch (.ok response), rfl =>
    simp [reply, leave, outdated]

theorem reply_accepted (reports : visit.report? = some (chainId, state))
    (accepted : t.Accepts chainId state) :
    visit.reply t = .ok visit.payload? ∧ visit.leave t = { t with last := state } := by
  match visit, reports with
  | .validate _ _, rfl =>
    simp [reply, leave, payload?, Tracker.observe, accepted]
  | .fetch (.ok response), rfl =>
    simp [reply, leave, payload?, accepted]

/-- A refused visit gives an error, and the tracker stays as it is. -/
theorem accepted_or_refused (t : Tracker) (visit : Visit α) :
    (∃ chainId state, visit.report? = some (chainId, state) ∧ t.Accepts chainId state) ∨
      ∃ e, visit.reply t = .error e ∧ visit.leave t = t := by
  cases reports : visit.report? with
  | none =>
    match visit, reports with
    | .fetch (.error cause), _ => exact .inr ⟨.rpc cause, rfl, rfl⟩
  | some report =>
    obtain ⟨chainId, state⟩ := report
    rcases t.foreign_or_outdated_or_accepts chainId state with chain | outdated | accepted
    · exact .inr ⟨_, reply_foreign reports chain⟩
    · exact .inr ⟨_, reply_outdated reports outdated⟩
    · exact .inl ⟨chainId, state, rfl, accepted⟩

theorem le_leave (t : Tracker) (visit : Visit α) : t.last ≤ (visit.leave t).last := by
  rcases accepted_or_refused t visit with ⟨chainId, state, reports, accepted⟩ | ⟨e, -, unchanged⟩
  · rw [(reply_accepted reports accepted).2]
    exact accepted.2
  · rw [unchanged]

@[simp] theorem chainId_leave (t : Tracker) (visit : Visit α) : (visit.leave t).chainId = t.chainId := by
  rcases accepted_or_refused t visit with ⟨chainId, state, reports, accepted⟩ | ⟨e, -, unchanged⟩
  · rw [(reply_accepted reports accepted).2]
  · rw [unchanged]

/-- A result that is handed out belongs to an answer that the tracker accepts. -/
theorem handed {answer : Answer α} {result : α}
    (ok : (fetch answer).reply t = .ok (some result)) :
    ∃ response, answer = .ok response ∧ result = response.result ∧
      t.Accepts response.chainId response.state := by
  rcases (fetch answer).accepted_or_refused t with ⟨chainId, state, reports, accepted⟩ |
    ⟨e, reply, -⟩
  · match answer, reports with
    | .ok response, rfl =>
      rw [(reply_accepted rfl accepted).1] at ok
      exact ⟨response, rfl, (Option.some.inj (Except.ok.inj ok)).symm, accepted⟩
  · rw [reply] at ok
    cases ok

/-- What a tracker makes of a visit that reports this chain and this state. The chain is looked at
first. -/
structure Judged (t : Tracker) (visit : Visit α) (chainId : UInt8) (state : LedgerState) :
    Prop where
  accepted_iff : (∃ payload, visit.reply t = .ok payload) ↔
    chainId = t.chainId ∧ ¬ state.version < t.last.version ∧ ¬ state.timestamp < t.last.timestamp
  accepted : ∀ payload, visit.reply t = .ok payload →
    visit.leave t = { t with last := state } ∧ payload = visit.payload?
  rejected : ∀ e, visit.reply t = .error e → visit.leave t = t ∧
    (chainId ≠ t.chainId ∧ e = .rejected (.foreignChain t.chainId chainId) ∨
      chainId = t.chainId ∧ e = .rejected (.stale t.last state))

theorem judged (t : Tracker) (reports : visit.report? = some (chainId, state)) :
    visit.Judged t chainId state := by
  rcases t.foreign_or_outdated_or_accepts chainId state with chain | outdated | accepted
  · obtain ⟨reply, unchanged⟩ := reply_foreign reports chain
    constructor
    · simp [reply, chain]
    · simp [reply]
    · simp [reply, unchanged, chain]
  · obtain ⟨reply, unchanged⟩ := reply_outdated reports outdated
    have behind : ¬ (¬ state.version < t.last.version ∧ ¬ state.timestamp < t.last.timestamp) :=
      fun level => outdated.2.elim level.1 level.2
    constructor
    · simp only [reply, outdated.1, behind, and_false, iff_false]
      exact nofun
    · simp [reply]
    · simp [reply, unchanged, outdated.1]
  · obtain ⟨reply, next⟩ := reply_accepted reports accepted
    have level := And.intro (UInt64.not_lt.2 accepted.2.1) (UInt64.not_lt.2 accepted.2.2)
    constructor
    · simp only [reply, accepted.1, level, not_false_eq_true, and_self, iff_true]
      exact ⟨_, rfl⟩
    · simp [reply, next]
    · simp [reply]

end Visit

namespace Tracker

variable {α : Type} {t : Tracker} {visit : Visit α} {rest : List (Visit α)}

@[simp] theorem afterVisits_nil (t : Tracker) : t.afterVisits ([] : List (Visit α)) = t := rfl

@[simp] theorem afterVisits_cons (t : Tracker) (visit : Visit α) (rest : List (Visit α)) :
    t.afterVisits (visit :: rest) = (visit.leave t).afterVisits rest := rfl

@[simp] theorem afterVisits_append (t : Tracker) (visits rest : List (Visit α)) :
    t.afterVisits (visits ++ rest) = (t.afterVisits visits).afterVisits rest :=
  List.foldl_append

@[simp] theorem chainId_afterVisits (t : Tracker) (visits : List (Visit α)) :
    (t.afterVisits visits).chainId = t.chainId := by
  induction visits generalizing t with
  | nil => simp
  | cons visit rest ih => simp [ih]

theorem le_afterVisits (t : Tracker) (visits : List (Visit α)) :
    t.last ≤ (t.afterVisits visits).last := by
  induction visits generalizing t with
  | nil => simp
  | cons visit rest ih => exact (visit.le_leave t).trans (ih _)

theorem acceptedStates_cons_accepted {chainId : UInt8} {state : LedgerState}
    (reports : visit.report? = some (chainId, state)) (accepted : t.Accepts chainId state) :
    t.acceptedStates (visit :: rest) =
      state :: acceptedStates { t with last := state } rest := by
  obtain ⟨reply, next⟩ := visit.reply_accepted reports accepted
  simp only [acceptedStates, reply, reports, next]

theorem acceptedStates_cons_refused {e : ClientError} (reply : visit.reply t = .error e)
    (unchanged : visit.leave t = t) :
    t.acceptedStates (visit :: rest) = t.acceptedStates rest := by
  simp only [acceptedStates, reply, unchanged]

/-- Each accepted state is at least those before it, and the last one stays. The induction is on the
visits; what carries it is that an accepted state is from then on the last one. -/
theorem acceptedStates_chain (t : Tracker) (visits : List (Visit α)) :
    (t.last :: t.acceptedStates visits).Pairwise (· ≤ ·) ∧
      (t.afterVisits visits).last = (t.acceptedStates visits).getLastD t.last := by
  induction visits generalizing t with
  | nil => exact ⟨List.pairwise_singleton _ _, rfl⟩
  | cons visit rest ih =>
    rcases visit.accepted_or_refused t with ⟨chainId, state, reports, accepted⟩ |
      ⟨e, reply, unchanged⟩
    · obtain ⟨chain, last⟩ := ih { t with last := state }
      have next := (visit.reply_accepted reports accepted).2
      rw [acceptedStates_cons_accepted reports accepted, afterVisits_cons, next, last]
      refine ⟨List.pairwise_cons.2 ⟨?_, chain⟩, List.getLastD_cons.symm⟩
      intro later mem
      rcases List.mem_cons.1 mem with rfl | mem
      · exact accepted.2
      · exact le_trans accepted.2 (List.rel_of_pairwise_cons chain mem)
    · rw [acceptedStates_cons_refused reply unchanged, afterVisits_cons, unchanged]
      exact ih t

/-- The tracker as visit `i` finds it. -/
def found (chainId : UInt8) (visits : List (Visit α)) (i : Nat) : Tracker :=
  (start chainId).afterVisits (visits.take i)

/-- What holds of a tracker over the visits of all its callers. -/
structure History (chainId : UInt8) (visits : List (Visit α)) : Prop where
  configured : ∀ i, (found chainId visits i).chainId = chainId
  judged : ∀ (i : Nat) (visit : Visit α), visits[i]? = some visit → ∀ chain state,
    visit.report? = some (chain, state) → visit.Judged (found chainId visits i) chain state
  /-- Neither number ever falls. -/
  rising : ∀ i j, i ≤ j → (found chainId visits i).last ≤ (found chainId visits j).last
  /-- Of two accepted states the later one is at least the earlier one. -/
  chain : ((start chainId).acceptedStates visits).Pairwise (· ≤ ·)
  last_eq : ∀ i, (found chainId visits i).last =
    ((start chainId).acceptedStates (visits.take i)).getLastD .zero
  /-- The result of a request is handed out only where the tracker accepts the answer. -/
  handed : ∀ (i : Nat) (answer : Answer α) (result : α), visits[i]? = some (.fetch answer) →
    (Visit.fetch answer).reply (found chainId visits i) = .ok (some result) →
    ∃ response, answer = .ok response ∧ result = response.result ∧
      (found chainId visits i).Accepts response.chainId response.state

/-- A tracker moves only forward, whoever visits it and in whatever order: each visit is judged
against the last state that was accepted before it. -/
theorem history_of_start (chainId : UInt8) (visits : List (Visit α)) :
    History chainId visits where
  configured _ := chainId_afterVisits _ _
  judged _ visit _ _ _ reports := visit.judged _ reports
  rising i j le := by
    have split : visits.take j = visits.take i ++ (visits.drop i).take (j - i) := by
      rw [← List.take_add, Nat.add_sub_cancel' le]
    rw [found, found, split, afterVisits_append]
    exact le_afterVisits _ _
  chain := (List.pairwise_cons.1 (acceptedStates_chain _ visits).1).2
  last_eq i := (acceptedStates_chain _ (visits.take i)).2
  handed _ _ _ _ ok := Visit.handed ok

end Tracker

end LedgerClient
