import LedgerClient.Proofs.Wire.Union

/-!
# Values that are written and then refused

Writing takes every value, reading does not. A codec `Refuses` for one reason if that is what stops
the values that it would read but for one limit. The reason passes from a part to the whole wherever
the part stands: what is in front of it is read, and nothing behind it is looked at.
-/

set_option autoImplicit false

namespace LedgerClient

namespace Codec

variable {α β : Type} {c : Codec α} {d : Codec β} {e : DataError} {Bounded Fits : α → Prop}
  {Bounded' Fits' : β → Prop}

/-- The form of a value that is bounded and does not fit is refused for the reason, whatever stands
behind it. -/
def Refuses (c : Codec α) (e : DataError) (Bounded Fits : α → Prop) : Prop :=
  ∀ v, Bounded v → ¬ Fits v → ∀ rest, (c.read (c.write v ++ rest)).1 = .error e

namespace Refuses

/-- Nothing is refused for a limit that no value is beyond. -/
theorem none : c.Refuses e Fits Fits := fun _ fits beyond => absurd fits beyond

theorem congr {Bounded' Fits' : α → Prop} (h : c.Refuses e Bounded Fits)
    (bounded : ∀ v, Bounded' v → Bounded v) (fits : ∀ v, Fits v → Fits' v) :
    c.Refuses e Bounded' Fits' := by
  intro v within beyond
  apply h v (bounded v within)
  exact fun fit => beyond (fits v fit)

/-- The whole form is refused. -/
theorem decode (h : c.Refuses e Bounded Fits) {v : α} (bounded : Bounded v) (beyond : ¬ Fits v) :
    c.decode (c.write v) = .error e := by
  have refused := h v bounded beyond []
  rw [List.append_nil] at refused
  exact Reader.fault_first refused

theorem via (h : c.Refuses e Bounded Fits) {build : α → β} {forget : β → α} :
    (c.via build forget).Refuses e (fun v => Bounded (forget v)) fun v => Fits (forget v) := by
  intro v bounded beyond rest
  exact Reader.fault_first (h (forget v) bounded beyond rest)

/-- Of two values, the second is read where the first one fits. -/
theorem pair (hc : c.Lawful Fits) (appends : d.Appends) (first : c.Refuses e Bounded Fits)
    (second : d.Refuses e Bounded' Fits') :
    (c.pair d).Refuses e (fun v => Bounded v.1 ∧ Bounded' v.2) fun v => Fits v.1 ∧ Fits' v.2 := by
  rintro ⟨x, y⟩ ⟨bounded, bounded'⟩ beyond rest
  rw [write_pair hc.appends appends, List.append_assoc]
  by_cases fits : Fits x
  · have beyond' : ¬ Fits' y := fun fits' => beyond ⟨fits, fits'⟩
    have refused := second y bounded' beyond' rest
    exact Reader.fault_second (hc.read_write fits _) (Reader.fault_first refused)
  · exact Reader.fault_first (first x bounded fits _)

/-- `pair` where the limit is about the second value only. -/
theorem behind (hc : c.Lawful Fits) (appends : d.Appends) (h : d.Refuses e Bounded' Fits') :
    (c.pair d).Refuses e (fun v => Fits v.1 ∧ Bounded' v.2) fun v => Fits v.1 ∧ Fits' v.2 :=
  pair hc appends none h

/-- `pair` where the limit is about the first value only. -/
theorem before (hc : c.Lawful Fits) (hd : d.Lawful Fits') (h : c.Refuses e Bounded Fits) :
    (c.pair d).Refuses e (fun v => Bounded v.1 ∧ Fits' v.2) fun v => Fits v.1 ∧ Fits' v.2 :=
  pair hc hd.appends h none

theorem option (appends : c.Appends) (h : c.Refuses e Bounded Fits) :
    c.option.Refuses e (OptionFits Bounded) (OptionFits Fits) := by
  intro o bounded beyond rest
  cases o with
  | none => exact absurd nofun beyond
  | some v =>
    have beyond : ¬ Fits v := by
      intro fits
      apply beyond
      rintro w same
      obtain rfl := Option.some.inj same
      exact fits
    rw [write_option_some appends]
    exact Reader.fault_first (h v (bounded v rfl) beyond rest)

/-- Of several values, those in front of the first one that does not fit are read. -/
theorem times (hc : c.Lawful Fits) (h : c.Refuses e Bounded Fits) {vs : List α}
    (bounded : ∀ v ∈ vs, Bounded v) (beyond : ¬ ∀ v ∈ vs, Fits v) (rest : Bytes) :
    (Reader.times vs.length c.read (vs.flatMap c.write ++ rest)).1 = .error e := by
  induction vs with
  | nil => exact absurd nofun beyond
  | cons v vs ih =>
    obtain ⟨here, others⟩ := List.forall_mem_cons.1 bounded
    rw [List.flatMap_cons, List.append_assoc, List.length_cons, Reader.times]
    by_cases fits : Fits v
    · have beyond : ¬ ∀ v ∈ vs, Fits v := fun each => beyond (List.forall_mem_cons.2 ⟨fits, each⟩)
      exact Reader.fault_second (hc.read_write fits _) (Reader.fault_first (ih others beyond))
    · exact Reader.fault_first (h v here fits _)

theorem list (hc : c.Lawful Fits) (h : c.Refuses e Bounded Fits) :
    c.list.Refuses e (ListFits Bounded) (ListFits Fits) := by
  rintro vs ⟨count, bounded⟩ beyond rest
  have beyond : ¬ ∀ v ∈ vs, Fits v := fun each => beyond ⟨count, each⟩
  rw [write_list hc.appends, List.append_assoc]
  exact Reader.fault_second (Uleb128.read_encode count _) (times hc h bounded beyond rest)

theorem union {cases : List (Case α)} {typeName : String} (sorts : Sorts cases)
    (contents : ∀ case ∈ cases, case.content.Appends ∧
      case.content.Refuses e (fun content => Bounded (case.build content))
        fun content => Fits (case.build content)) :
    (Codec.union typeName cases).Refuses e Bounded Fits := by
  intro v bounded beyond rest
  obtain ⟨place, case, content, found, rfl⟩ := sorts.covers v
  obtain ⟨appends, refuses⟩ := contents case (List.mem_of_getElem? found)
  have few : CountFits place := Nat.lt_trans (List.getElem?_eq_some_iff.1 found).1 sorts.few
  have refused := refuses content bounded beyond rest
  rw [sorts.write_build found content appends, List.append_assoc]
  refine Reader.fault_second (Uleb128.read_encode few _) ?_
  simp only [found]
  exact Reader.fault_first refused

end Refuses

end Codec

end LedgerClient
