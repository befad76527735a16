import LedgerClient.Proofs.Ledger.History
import Mathlib.Data.List.Induction
import Mathlib.Order.Bounds.Basic
import Mathlib.Order.Preorder.Chain

/-!
# Answers in any order

Requests that run at the same time are answered in any order. The tracker does not take the greater
of two states but enters the new one or refuses it, so for states of which neither is at least the
other the order decides. The states that honest nodes report form a chain: of two of them one is at
least the other. Then a visit leaves the greater of the last state and its own
(`Visit.isGreatest_leave`), and all visits together leave the greatest state of all, in whatever
order they are made (`comparable_visits_converge`).
-/

set_option autoImplicit false

namespace LedgerClient

variable {α : Type} {t : Tracker} {visit : Visit α} {state : LedgerState}

namespace Visit

/-- A state of the tracker's chain is refused exactly if it is not at least the last one. -/
theorem refused_iff (reports : visit.report? = some (t.chainId, state)) :
    (∃ e, visit.reply t = .error e) ↔ ¬ t.last ≤ state := by
  rcases t.foreign_or_outdated_or_accepts t.chainId state with foreign | outdated | accepted
  · exact absurd rfl foreign
  · have behind : ¬ t.last ≤ state := by
      rintro ⟨version, timestamp⟩
      exact outdated.2.elim (UInt64.not_lt.2 version) (UInt64.not_lt.2 timestamp)
    exact iff_of_true ⟨_, (reply_outdated reports outdated).1⟩ behind
  · refine iff_of_false ?_ (not_not_intro accepted.2)
    rintro ⟨e, refused⟩
    rw [(reply_accepted reports accepted).1] at refused
    cases refused

/-- A visit whose state can be compared with the last one leaves the greater of the two. A visit of
another chain, or of a call that failed, leaves the last one. -/
theorem isGreatest_leave (t : Tracker) (visit : Visit α)
    (comparable : ∀ state, visit.report? = some (t.chainId, state) →
      t.last ≤ state ∨ state ≤ t.last) :
    IsGreatest {state | state = t.last ∨ visit.report? = some (t.chainId, state)}
      (visit.leave t).last := by
  rcases visit.accepted_or_refused t with ⟨chainId, next, reports, accepted⟩ |
    ⟨e, refused, unchanged⟩
  · obtain rfl := accepted.1
    rw [(reply_accepted reports accepted).2]
    refine ⟨.inr reports, ?_⟩
    rintro state (rfl | own)
    · exact accepted.2
    · rw [reports] at own
      cases own
      exact le_refl _
  · rw [unchanged]
    refine ⟨.inl rfl, ?_⟩
    rintro state (rfl | own)
    · exact le_refl _
    · exact (comparable state own).resolve_left ((refused_iff own).1 ⟨e, refused⟩)

end Visit

namespace Tracker

variable {visits before : List (Visit α)}

/-- The last state of the tracker, and those of its chain that the visits report. -/
def statesSeen (t : Tracker) (visits : List (Visit α)) : Set LedgerState :=
  {state | state = t.last ∨ ∃ visit ∈ visits, visit.report? = some (t.chainId, state)}

theorem statesSeen_subset {others : List (Visit α)} (sub : others ⊆ visits) :
    t.statesSeen others ⊆ t.statesSeen visits := by
  rintro state (first | ⟨visit, mem, reports⟩)
  · exact .inl first
  · exact .inr ⟨visit, sub mem, reports⟩

@[simp] theorem mem_statesSeen_snoc :
    state ∈ t.statesSeen (before ++ [visit]) ↔
      state ∈ t.statesSeen before ∨ visit.report? = some (t.chainId, state) := by
  simp [statesSeen, or_and_right, exists_or, or_assoc]

/-- After visits whose states form a chain with the last one, the greatest of them all is the last
one. The induction is on the visits from the end: the greatest state so far meets one more. -/
theorem isGreatest_afterVisits (comparable : IsChain (· ≤ ·) (t.statesSeen visits)) :
    IsGreatest (t.statesSeen visits) (t.afterVisits visits).last := by
  induction visits using List.reverseRecOn with
  | nil =>
    refine ⟨.inl rfl, ?_⟩
    rintro state (rfl | ⟨visit, mem, -⟩)
    · exact le_refl _
    · cases mem
  | append_singleton before visit ih =>
    have sub := t.statesSeen_subset (List.subset_append_left before [visit])
    obtain ⟨mem, upper⟩ := ih (comparable.mono sub)
    have step := visit.isGreatest_leave (t.afterVisits before)
    simp only [chainId_afterVisits] at step
    obtain ⟨one, both⟩ := step fun state own =>
      comparable.total (sub mem) (mem_statesSeen_snoc.2 (.inr own))
    rw [afterVisits_append]
    constructor
    · rcases one with kept | own
      · exact mem_statesSeen_snoc.2 (.inl (kept ▸ mem))
      · exact mem_statesSeen_snoc.2 (.inr own)
    · intro state seen
      rcases mem_statesSeen_snoc.1 seen with seen | own
      · exact (upper seen).trans (both (.inl rfl))
      · exact both (.inr own)

/-- A visit of the tracker's chain is refused after others exactly if its state is strictly behind
one of theirs or the first one. -/
theorem refused_afterVisits_iff (comparable : IsChain (· ≤ ·) (t.statesSeen (before ++ [visit])))
    (reports : visit.report? = some (t.chainId, state)) :
    (∃ e, visit.reply (t.afterVisits before) = .error e) ↔
      ∃ other ∈ t.statesSeen before, state < other := by
  have sub := t.statesSeen_subset (List.subset_append_left before [visit])
  have own : state ∈ t.statesSeen (before ++ [visit]) := mem_statesSeen_snoc.2 (.inr reports)
  obtain ⟨mem, upper⟩ := isGreatest_afterVisits (comparable.mono sub)
  rw [← t.chainId_afterVisits before] at reports
  rw [Visit.refused_iff reports]
  constructor
  · intro notLe
    have behind := (comparable.total (sub mem) own).resolve_left notLe
    exact ⟨_, mem, lt_of_le_not_ge behind notLe⟩
  · rintro ⟨other, seen, behind⟩ le
    exact absurd ((upper seen).trans le) (not_le_of_gt behind)

/-- Visits whose states form a chain with the last one leave the same tracker in every order, with
the greatest of the states. And in every order, a visit of the tracker's chain is refused exactly if
its state is strictly behind the first one or that of a visit made before it. -/
theorem comparable_visits_converge (comparable : IsChain (· ≤ ·) (t.statesSeen visits)) :
    ∃ greatest, IsGreatest (t.statesSeen visits) greatest ∧
      ∀ order : List (Visit α), order.Perm visits →
        t.afterVisits order = { t with last := greatest } ∧
        ∀ before visit after state, order = before ++ visit :: after →
          visit.report? = some (t.chainId, state) →
          ((∃ e, visit.reply (t.afterVisits before) = .error e) ↔
            ∃ other ∈ t.statesSeen before, state < other) := by
  have greatest := isGreatest_afterVisits comparable
  refine ⟨_, greatest, fun order perm => ⟨?_, ?_⟩⟩
  · have same : t.statesSeen order = t.statesSeen visits :=
      (statesSeen_subset perm.subset).antisymm (statesSeen_subset perm.symm.subset)
    have reached := isGreatest_afterVisits (same ▸ comparable)
    rw [same] at reached
    rw [← reached.unique greatest, ← t.chainId_afterVisits order]
  · intro before visit after state split reports
    have sub : before ++ [visit] ⊆ visits := by
      intro v mem
      apply perm.subset
      rw [split, List.append_cons]
      exact List.mem_append_left after mem
    exact refused_afterVisits_iff (comparable.mono (statesSeen_subset sub)) reports

namespace Sample

def tracker : Tracker := ⟨2, ⟨5, 50⟩⟩

def slow : Visit Unit := .fetch (.ok ⟨(), 2, ⟨6, 60⟩⟩)

def foreign : Visit Unit := .validate 9 ⟨100, 1⟩

def fast : Visit Unit := .validate 2 ⟨7, 70⟩

theorem comparable : IsChain (· ≤ ·) (tracker.statesSeen [slow, foreign, fast]) := by
  have states : tracker.statesSeen [slow, foreign, fast] ⊆ {⟨5, 50⟩, ⟨6, 60⟩, ⟨7, 70⟩} := by
    rintro state (rfl | ⟨visit, mem, reports⟩)
    · exact .inl rfl
    · simp only [List.mem_cons, List.not_mem_nil, or_false] at mem
      rcases mem with rfl | rfl | rfl
      · exact .inr (.inl (Prod.mk.inj (Option.some.inj reports)).2.symm)
      · exact absurd (Prod.mk.inj (Option.some.inj reports)).1 (by decide)
      · exact .inr (.inr (Prod.mk.inj (Option.some.inj reports)).2.symm)
  refine IsChain.mono states ((IsChain.singleton.insert ?_).insert ?_)
  · rintro other rfl _
    exact .inl ⟨by decide, by decide⟩
  · rintro other (rfl | rfl) _ <;> exact .inl ⟨by decide, by decide⟩

end Sample

theorem fast_answer_comes_first :
    IsChain (· ≤ ·) (Sample.tracker.statesSeen [Sample.slow, Sample.foreign, Sample.fast]) ∧
      Sample.tracker.afterVisits [Sample.fast, Sample.foreign, Sample.slow] = ⟨2, ⟨7, 70⟩⟩ ∧
      IsGreatest (Sample.tracker.statesSeen [Sample.slow, Sample.foreign, Sample.fast]) ⟨7, 70⟩ ∧
      ∃ e, Sample.slow.reply (Sample.tracker.afterVisits [Sample.fast, Sample.foreign]) =
        .error e := by
  obtain ⟨greatest, isGreatest, orders⟩ := comparable_visits_converge Sample.comparable
  obtain ⟨reached, refused⟩ := orders [Sample.fast, Sample.foreign, Sample.slow]
    (List.reverse_perm [Sample.slow, Sample.foreign, Sample.fast])
  obtain rfl : greatest = ⟨7, 70⟩ := (congrArg Tracker.last reached).symm
  refine ⟨Sample.comparable, reached, isGreatest, ?_⟩
  refine (refused [Sample.fast, Sample.foreign] Sample.slow [] ⟨6, 60⟩ rfl rfl).2 ⟨⟨7, 70⟩, ?_, ?_⟩
  · exact .inr ⟨Sample.fast, List.mem_cons_self, rfl⟩
  · exact lt_of_le_not_ge ⟨by decide, by decide⟩ fun le => absurd le.1 (by decide)

/-- Of two states of which neither is at least the other, the first one that arrives stays. -/
example :
    (start 2).afterVisits ([.validate 2 ⟨1, 2⟩, .validate 2 ⟨2, 1⟩] : List (Visit Unit)) ≠
      (start 2).afterVisits ([.validate 2 ⟨2, 1⟩, .validate 2 ⟨1, 2⟩] : List (Visit Unit)) := by
  decide

end Tracker

end LedgerClient
