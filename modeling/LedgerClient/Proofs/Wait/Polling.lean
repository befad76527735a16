import LedgerClient.Proofs.Wait.Timing
import Mathlib.Algebra.Order.Floor.Div

/-!
# How often a wait calls

A wait has no count of its calls, and a stale answer costs it no time. What bounds the calls is the
number of poll intervals that have begun before its time is up (`pollsLeft`): an answer that is
empty uses one of them up, even where the last pause is cut, and so does the answer that ends the
wait. Only stale answers come for nothing, and they are counted (`Course.length_calls_le`). If each
of them takes some time at least, the clock moves with every call and the wait ends
(`Course.ends_of_progress`).

The answers come from a sequence without end. `runOn` is the course of the wait as far as the first
answers of the sequence tell it.
-/

set_option autoImplicit false

namespace LedgerClient

namespace Tracker

/-- Whether the tracker refuses the answer because its node is behind. -/
def findsStale {α : Type} (t : Tracker) (answer : Answer α) : Bool :=
  match (t.receive answer).1 with
  | .error e => e.isStale
  | .ok _ => false

/-- The calls that are answered with something stale. -/
def staleCalls (t : Tracker) : List TimedAnswer → List TimedAnswer
  | [] => []
  | call :: rest =>
    (if t.findsStale call.answer then [call] else []) ++ (t.receive call.answer).2.staleCalls rest

section Stale

variable {α : Type} {t : Tracker} {response : Response α}

@[simp] theorem findsStale_of_outdated (outdated : t.Outdated response.chainId response.state) :
    t.findsStale (.ok response) = true := by
  simp [findsStale, outdated, ClientError.isStale]

@[simp] theorem findsStale_of_accepts (accepted : t.Accepts response.chainId response.state) :
    t.findsStale (.ok response) = false := by
  simp [findsStale, accepted]

@[simp] theorem staleCalls_nil (t : Tracker) : t.staleCalls [] = [] := rfl

@[simp] theorem length_staleCalls_cons (t : Tracker) (call : TimedAnswer) (rest : List TimedAnswer) :
    (t.staleCalls (call :: rest)).length =
      (if t.findsStale call.answer then 1 else 0) +
        ((t.receive call.answer).2.staleCalls rest).length := by
  rw [staleCalls, List.length_append]
  split <;> rfl

@[simp] theorem mem_staleCalls_cons {t : Tracker} {call other : TimedAnswer} {rest : List TimedAnswer} :
    other ∈ t.staleCalls (call :: rest) ↔
      (t.findsStale call.answer = true ∧ other = call) ∨
        other ∈ (t.receive call.answer).2.staleCalls rest := by
  rw [staleCalls, List.mem_append]
  refine or_congr_left ?_
  split <;> simp_all

theorem mem_of_mem_staleCalls {t : Tracker} {call : TimedAnswer} {tape : List TimedAnswer}
    (mem : call ∈ t.staleCalls tape) : call ∈ tape := by
  induction tape generalizing t with
  | nil => simp at mem
  | cons first rest ih =>
    rcases mem_staleCalls_cons.1 mem with ⟨-, rfl⟩ | behind
    · exact List.mem_cons_self
    · exact List.mem_cons_of_mem _ (ih behind)

end Stale

end Tracker

namespace Wait

/-- The number of poll intervals that begin before the time of the wait is up. -/
def pollsLeft (w : Wait) (now : Nat) : Nat := (w.timeout - now) ⌈/⌉ w.pollInterval

/-- An accepted answer that has no record and comes before the expiration. -/
def Absent (w : Wait) (t : Tracker) (answer : Answer (Option Record)) : Prop :=
  ∃ response, answer = .ok response ∧ t.Accepts response.chainId response.state ∧
    response.result = none ∧ response.state.timestamp.toNat < w.deadline

/-- The answers to the first calls. -/
def firstAnswers (answers : Nat → TimedAnswer) (n : Nat) : List TimedAnswer :=
  (List.range n).map answers

/-- The course of a wait as far as the first `n` answers tell it. -/
def runOn (w : Wait) (tokenFirst : Nat → Bool) (answers : Nat → TimedAnswer) (token : Option Nat)
    (t : Tracker) (n : Nat) : Run :=
  w.run tokenFirst (firstAnswers answers n) 0 token t

section Polls

variable {w : Wait} {t : Tracker} {answer : Answer (Option Record)} {now answered next : Nat}

@[simp] theorem pollsLeft_of_late (late : w.timeout ≤ now) : w.pollsLeft now = 0 := by
  simp [pollsLeft, Nat.sub_eq_zero_of_le late]

theorem pollsLeft_anti (later : now ≤ next) : w.pollsLeft next ≤ w.pollsLeft now := by
  simp only [pollsLeft, Nat.ceilDiv_eq_add_pred_div]
  exact Nat.div_le_div_right (by omega)

/-- A pause uses one poll interval up, also where it is cut by the end of the wait. -/
theorem pollsLeft_pause (polls : 0 < w.pollInterval) (early : now < w.timeout) :
    w.pollsLeft (now + min w.pollInterval (w.timeout - now)) + 1 = w.pollsLeft now := by
  have left : w.timeout - (now + min w.pollInterval (w.timeout - now)) =
      w.timeout - now - w.pollInterval := by omega
  rw [pollsLeft, pollsLeft, left]
  generalize remaining : w.timeout - now = x
  have begun : w.pollInterval ≤ x + w.pollInterval - 1 := by omega
  rw [Nat.ceilDiv_eq_add_pred_div, Nat.ceilDiv_eq_add_pred_div, Nat.div_eq_sub_div polls begun]
  rcases Nat.lt_or_ge x w.pollInterval with short | long
  · have last : x - w.pollInterval = 0 := by omega
    rw [last, Nat.div_eq_of_lt (by omega), Nat.div_eq_of_lt (by omega)]
  · have shorter : x - w.pollInterval + w.pollInterval - 1 =
        x + w.pollInterval - 1 - w.pollInterval := by omega
    rw [shorter]

theorem pollsLeft_pos (polls : 0 < w.pollInterval) (early : now < w.timeout) :
    0 < w.pollsLeft now := by
  rw [← pollsLeft_pause polls early]
  exact Nat.succ_pos _

/-- An answer that leaves the wait undecided uses a poll interval up, or it is stale. -/
theorem Resumes.pollsLeft_lt (resumes : w.Resumes t answered answer next)
    (polls : 0 < w.pollInterval) (early : now < w.timeout) (begun : now ≤ answered) :
    w.pollsLeft next + 1 ≤ w.pollsLeft now + if t.findsStale answer then 1 else 0 := by
  cases resumes with
  | stale outdated =>
    simpa [outdated] using pollsLeft_anti begun
  | absent accepted empty notLate =>
    rw [← pollsLeft_pause polls early]
    have later : now + min w.pollInterval (w.timeout - now) ≤
        answered + min w.pollInterval (w.timeout - answered) := by omega
    exact Nat.le_add_right_of_le (Nat.succ_le_succ (pollsLeft_anti later))

/-- The clock moves with every call, if it does with the stale ones. -/
theorem Resumes.lt (resumes : w.Resumes t answered answer next) (polls : 0 < w.pollInterval)
    (early : now < w.timeout) (begun : now ≤ answered)
    (progress : t.findsStale answer = true → now < answered) : now < next := by
  cases resumes with
  | stale outdated => exact progress (Tracker.findsStale_of_outdated outdated)
  | absent accepted empty notLate => omega

theorem Absent.undecided (absent : w.Absent t answer) : w.Undecided t answer := by
  obtain ⟨response, rfl, accepted, empty, early⟩ := absent
  exact .absent accepted empty early

theorem Absent.resumes_eq (absent : w.Absent t answer) (resumes : w.Resumes t answered answer next) :
    next = answered + min w.pollInterval (w.timeout - answered) := by
  obtain ⟨response, rfl, accepted, -⟩ := absent
  cases resumes with
  | stale outdated =>
    have stale := Tracker.findsStale_of_outdated (α := Option Record) outdated
    simp [accepted] at stale
  | absent accepted empty early => rfl

end Polls

section Course

variable {w : Wait} {token : Option Nat} {t : Tracker} {now : Nat} {tape : List TimedAnswer}
  {course : Run}

theorem Course.length_calls_le_length (h : w.Course token t now tape course) :
    course.calls.length ≤ tape.length := by
  induction h with
  | cancelled fired => simp
  | timedOut unfired late => simp
  | unanswered unfired early => simp
  | decided unfired early decides => simp
  | interrupted unfired early resumes fires within => simp
  | resumed unfired early resumes silent stays later ih => simpa using ih

/-- A course that has come to its end is not changed by further answers. -/
theorem Course.append (h : w.Course token t now tape course) (ends : course.outcome ≠ none)
    (more : List TimedAnswer) : w.Course token t now (tape ++ more) course := by
  induction h with
  | cancelled fired => exact .cancelled fired
  | timedOut unfired late => exact .timedOut unfired late
  | unanswered unfired early => exact absurd rfl ends
  | decided unfired early decides => exact .decided unfired early decides
  | interrupted unfired early resumes fires within =>
    exact .interrupted unfired early resumes fires within
  | resumed unfired early resumes silent stays later ih =>
    exact .resumed unfired early resumes silent stays (ih ends)

/-- The induction is on the rules. What carries it are the polls that are left when the loop comes
round; each call takes one of them, unless it is answered with something stale. -/
theorem Course.length_calls_le (h : w.Course token t now tape course)
    (polls : 0 < w.pollInterval) :
    course.calls.length ≤
      w.pollsLeft now + (t.staleCalls (tape.take course.calls.length)).length := by
  induction h with
  | cancelled fired => simp
  | timedOut unfired late => simp
  | unanswered unfired early => simp
  | decided unfired early decides => exact Nat.le_add_right_of_le (pollsLeft_pos polls early)
  | interrupted unfired early resumes fires within =>
    exact Nat.le_add_right_of_le (pollsLeft_pos polls early)
  | @resumed t now next call rest course unfired early resumes silent stays later ih =>
    have used := resumes.pollsLeft_lt polls early (Nat.le_add_right now call.delay)
    simp only [Run.calls_prepend, List.length_cons, List.take_succ_cons,
      Tracker.length_staleCalls_cons]
    omega

/-- The induction is on the rules. What carries it is the time that is left, which falls with each
call, so that the answers are enough. -/
theorem Course.ends_of_progress (h : w.Course token t now tape course)
    (polls : 0 < w.pollInterval)
    (progress : ∀ call ∈ t.staleCalls (tape.take course.calls.length), 0 < call.delay)
    (enough : w.timeout - now ≤ tape.length) : course.outcome ≠ none := by
  induction h with
  | cancelled fired => simp
  | timedOut unfired late => simp
  | unanswered unfired early =>
    simp only [List.length_nil] at enough
    omega
  | decided unfired early decides => simp
  | interrupted unfired early resumes fires within => simp
  | @resumed t now next call rest course unfired early resumes silent stays later ih =>
    have moves : now < next := by
      refine resumes.lt polls early (Nat.le_add_right now call.delay) fun stale => ?_
      have delayed := progress call (Tracker.mem_staleCalls_cons.2 (.inl ⟨stale, rfl⟩))
      omega
    refine ih (fun other mem => progress other (Tracker.mem_staleCalls_cons.2 (.inr mem))) ?_
    rw [List.length_cons] at enough
    omega

/-- The induction is on the rules. Each call takes just one of the polls that are left, and the wait
goes on until there is none. -/
theorem Course.polls_of_absent (h : w.Course none t now tape course) (polls : 0 < w.pollInterval)
    (quiet : w.Uncancelled tape)
    (absent : ∀ i call, tape[i]? = some call → i < course.calls.length →
      call.delay = 0 ∧ w.Absent (t.afterCalls (tape.take i)) call.answer)
    (enough : w.pollsLeft now ≤ tape.length) :
    course.outcome = some (.error (.timedOut w.timeout)) ∧
      course.calls.length = w.pollsLeft now := by
  induction h with
  | cancelled fired => cases fired
  | timedOut unfired late => exact ⟨rfl, (pollsLeft_of_late late).symm⟩
  | unanswered unfired early =>
    exact absurd enough (Nat.not_le.2 (pollsLeft_pos polls early))
  | @decided t now call rest outcome unfired early decides =>
    obtain ⟨-, first⟩ := absent 0 call rfl Nat.zero_lt_one
    exact absurd decides first.undecided.not_decides
  | @interrupted t now next time call rest unfired early resumes fires within =>
    rw [tokenAfter_of_silent quiet.first] at fires
    cases fires
  | @resumed t now next call rest course unfired early resumes silent stays later ih =>
    obtain ⟨instant, first⟩ := absent 0 call rfl (Nat.succ_pos _)
    have resumed := first.resumes_eq resumes
    rw [instant, Nat.add_zero] at resumed
    have used : w.pollsLeft next + 1 = w.pollsLeft now := by
      rw [resumed, pollsLeft_pause polls early]
    rw [List.length_cons] at enough
    obtain ⟨timedOut, length⟩ := ih quiet.rest
      (fun i other at? made => absent (i + 1) other at? (Nat.succ_lt_succ made)) (by omega)
    exact ⟨timedOut, (congrArg Nat.succ length).trans used⟩

end Course

section Sequence

variable {answers : Nat → TimedAnswer} {n k i : Nat} {call : TimedAnswer}

@[simp] theorem length_firstAnswers (answers : Nat → TimedAnswer) (n : Nat) :
    (firstAnswers answers n).length = n := by
  simp [firstAnswers]

theorem take_firstAnswers (le : k ≤ n) :
    (firstAnswers answers n).take k = firstAnswers answers k := by
  rw [firstAnswers, ← List.map_take, List.take_range, Nat.min_eq_left le, firstAnswers]

theorem eq_of_getElem?_firstAnswers (at? : (firstAnswers answers n)[i]? = some call) :
    i < n ∧ answers i = call := by
  rw [firstAnswers, List.getElem?_map, Option.map_eq_some_iff] at at?
  obtain ⟨j, range, found⟩ := at?
  obtain ⟨small, rfl⟩ := List.getElem?_eq_some_iff.1 range
  rw [List.length_range] at small
  rw [List.getElem_range] at found
  exact ⟨small, found⟩

theorem firstAnswers_eq_append (answers : Nat → TimedAnswer) (le : k ≤ n) :
    ∃ more, firstAnswers answers n = firstAnswers answers k ++ more :=
  ⟨(firstAnswers answers n).drop k, by rw [← take_firstAnswers le, List.take_append_drop]⟩

end Sequence

/-- A wait makes at most one call for each poll interval of its time, and one for each stale answer
that it is given. If every stale answer takes some time, the wait ends, after as many answers as
its time has ticks at the last. If no answer takes time, and all are empty before the expiration,
and nobody cancels, there is just one call for each poll interval. -/
theorem polls_bound_the_calls (w : Wait) (tokenFirst : Nat → Bool) (answers : Nat → TimedAnswer)
    (token : Option Nat) (t : Tracker) (polls : 0 < w.pollInterval) :
    (∀ n, (w.runOn tokenFirst answers token t n).calls.length ≤
      w.timeout ⌈/⌉ w.pollInterval +
        (t.staleCalls (firstAnswers answers
          (w.runOn tokenFirst answers token t n).calls.length)).length) ∧
    ((∀ n, ∀ call ∈ t.staleCalls (firstAnswers answers
          (w.runOn tokenFirst answers token t n).calls.length), 0 < call.delay) →
      ∃ course, course.outcome ≠ none ∧
        ∀ n, w.timeout ≤ n → w.runOn tokenFirst answers token t n = course) ∧
    (token = none → (w.cancellable = false ∨ ∀ i, (answers i).firesToken = false) →
      (∀ n i, i < (w.runOn tokenFirst answers token t n).calls.length → (answers i).delay = 0 ∧
        w.Absent (t.afterCalls (firstAnswers answers i)) (answers i).answer) →
      ∀ n, w.timeout ⌈/⌉ w.pollInterval ≤ n →
        (w.runOn tokenFirst answers token t n).outcome = some (.error (.timedOut w.timeout)) ∧
          (w.runOn tokenFirst answers token t n).calls.length = w.timeout ⌈/⌉ w.pollInterval) := by
  have course : ∀ n, w.Course token t 0 (firstAnswers answers n)
      (w.runOn tokenFirst answers token t n) := fun n => w.course_of_run tokenFirst _ 0 token t
  have made : ∀ n, (w.runOn tokenFirst answers token t n).calls.length ≤ n := fun n => by
    simpa using (course n).length_calls_le_length
  refine ⟨fun n => ?_, fun progress => ?_, ?_⟩
  · have bound := (course n).length_calls_le polls
    rwa [take_firstAnswers (made n)] at bound
  · have ends : (w.runOn tokenFirst answers token t w.timeout).outcome ≠ none := by
      refine (course w.timeout).ends_of_progress polls ?_ (by simp)
      rw [take_firstAnswers (made _)]
      exact progress w.timeout
    refine ⟨_, ends, fun n le => ?_⟩
    obtain ⟨more, longer⟩ := firstAnswers_eq_append answers le
    rw [runOn, longer]
    exact ((course w.timeout).append ends more).run_eq tokenFirst
  · rintro rfl quiet absent n enough
    refine (course n).polls_of_absent polls ?_ ?_ (by simpa [pollsLeft] using enough)
    · refine quiet.imp_right fun silent call mem => ?_
      obtain ⟨i, -, rfl⟩ := List.mem_map.1 mem
      exact silent i
    · intro i call at? called
      obtain ⟨small, rfl⟩ := eq_of_getElem?_firstAnswers at?
      rw [take_firstAnswers small.le]
      exact absent n i called

namespace Sample

/-- Answers without a record from a ledger that stands still. -/
def idle : Nat → TimedAnswer := fun _ => ⟨0, false, .ok ⟨none, 2, ⟨5, 5⟩⟩⟩

/-- Answers that are all stale. -/
def behind : Nat → TimedAnswer := fun _ => ⟨1, false, .ok ⟨none, 2, ⟨4, 5⟩⟩⟩

theorem afterCalls_idle (n : Nat) : tracker.afterCalls (firstAnswers idle n) = tracker := by
  induction n with
  | zero => rfl
  | succ n ih =>
    rw [Tracker.afterCalls] at ih ⊢
    rw [firstAnswers, List.range_succ, List.map_append, List.foldl_append, ← firstAnswers, ih]
    rfl

end Sample

/-- Three calls in the time of two and a half poll intervals; and stale answers, each of which takes
a millisecond, come to an end. -/
theorem idle_wait_makes_three_calls :
    0 < Sample.unevenWait.pollInterval ∧
      (∀ n, 3 ≤ n →
        (Sample.unevenWait.runOn (fun _ => false) Sample.idle none Sample.tracker n).outcome =
            some (.error (.timedOut 1000)) ∧
          (Sample.unevenWait.runOn (fun _ => false) Sample.idle none Sample.tracker
            n).calls.length = 3) ∧
      ∃ course, course.outcome ≠ none ∧ ∀ n, 1000 ≤ n →
        Sample.unevenWait.runOn (fun _ => false) Sample.behind none Sample.tracker n = course := by
  have polls : 0 < Sample.unevenWait.pollInterval := by decide
  have idle := polls_bound_the_calls Sample.unevenWait (fun _ => false) Sample.idle none
    Sample.tracker polls
  have behind := polls_bound_the_calls Sample.unevenWait (fun _ => false) Sample.behind none
    Sample.tracker polls
  refine ⟨polls, fun n => ?_, behind.2.1 fun n call mem => ?_⟩
  · refine idle.2.2 rfl (.inl rfl) (fun n i _ => ⟨rfl, ?_⟩) n
    rw [Sample.afterCalls_idle]
    exact ⟨_, rfl, ⟨rfl, by decide, by decide⟩, rfl, by decide⟩
  · obtain ⟨i, -, rfl⟩ := List.mem_map.1 (Tracker.mem_of_mem_staleCalls mem)
    exact Nat.zero_lt_one

end Wait

end LedgerClient
