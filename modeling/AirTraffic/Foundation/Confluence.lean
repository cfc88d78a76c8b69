/-
  Foundation/Confluence.lean --- systems whose steps commute.

  WHAT THIS FILE IS FOR.  Several parties take steps in any order, and no step of
  one takes a step of another away.  Then the order does not matter: if one run
  reaches a state in which nothing is left to do, every run can be continued to
  this state, and all of them have the same events, in some order
  (`Run.completed`).  In particular no run is longer, and none gets stuck
  elsewhere.
-/
import AirTraffic.Foundation.Transition

set_option autoImplicit false

namespace AirTraffic.Foundation

variable {σ ε : Type} {Step : σ → ε → σ → Prop}

/-- Two steps from one state are the same step, or each can be taken after the
other, to the same effect. -/
def Commutes (Step : σ → ε → σ → Prop) : Prop :=
  ∀ {s t t' : σ} {event event' : ε}, Step s event t → Step s event' t' →
    (event = event' ∧ t = t') ∨ ∃ u, Step t event' u ∧ Step t' event u

/-- No step leads on. -/
def Final (Step : σ → ε → σ → Prop) (s : σ) : Prop := ∀ event t, ¬ Step s event t

/-- The events of a trace, in order. -/
def events (trace : List (ε × σ)) : List ε := trace.map Prod.fst

@[simp] theorem events_nil : events ([] : List (ε × σ)) = [] := rfl

@[simp] theorem events_cons (event : ε) (s : σ) (rest : List (ε × σ)) :
    events ((event, s) :: rest) = event :: events rest := rfl

@[simp] theorem length_events (trace : List (ε × σ)) :
    (events trace).length = trace.length :=
  List.length_map _

theorem Run.eq_of_nil {s t : σ} (run : Run Step s [] t) : s = t := by
  cases run
  rfl

theorem Run.head {s t u : σ} {event : ε} {rest : List (ε × σ)}
    (run : Run Step s ((event, t) :: rest) u) : Step s event t := by
  cases run
  assumption

theorem Run.nil_of_final {s t : σ} {trace : List (ε × σ)} (run : Run Step s trace t)
    (ended : Final Step s) : trace = [] := by
  cases run with
  | nil s => rfl
  | cons step _ => exact absurd step (ended _ _)

/-- A run that ended can be taken with any step that was possible put first. -/
theorem Run.put_first (commutes : Commutes Step) {s t final : σ} {event : ε}
    {trace : List (ε × σ)} (run : Run Step s trace final) (ended : Final Step final)
    (step : Step s event t) :
    ∃ rest, Run Step t rest final ∧ (event :: events rest).Perm (events trace) := by
  induction run generalizing t with
  | nil s => exact absurd step (ended event t)
  | @cons s next u first tail first_step _ ih =>
      rcases commutes step first_step with ⟨rfl, rfl⟩ | ⟨v, hafter, hnext⟩
      · exact ⟨tail, ‹_›, List.Perm.refl _⟩
      · obtain ⟨rest, run, perm⟩ := ih ended hnext
        refine ⟨(first, v) :: rest, .cons hafter run, ?_⟩
        exact (List.Perm.swap first event _).trans (perm.cons first)

/-- **Order does not matter.**  Where one run ends, every run does, after the same
events. -/
theorem Run.completed (commutes : Commutes Step) {s t final : σ}
    {first trace : List (ε × σ)} (run : Run Step s trace final) (ended : Final Step final)
    (begun : Run Step s first t) :
    ∃ rest, Run Step t rest final ∧ (events first ++ events rest).Perm (events trace) := by
  induction begun generalizing trace with
  | nil s => exact ⟨trace, run, List.Perm.refl _⟩
  | @cons s next u event tail step _ ih =>
      obtain ⟨shorter, hrun, hperm⟩ := run.put_first commutes ended step
      obtain ⟨rest, hrest, hevents⟩ := ih hrun
      exact ⟨rest, hrest, (hevents.cons event).trans hperm⟩

/-- What remains to be done, in number. -/
theorem Run.length_completed (commutes : Commutes Step) {s t final : σ}
    {first trace : List (ε × σ)} (run : Run Step s trace final) (ended : Final Step final)
    (begun : Run Step s first t) :
    ∃ rest, Run Step t rest final ∧ first.length + rest.length = trace.length := by
  obtain ⟨rest, hrest, hperm⟩ := run.completed commutes ended begun
  refine ⟨rest, hrest, ?_⟩
  simpa using hperm.length_eq

end AirTraffic.Foundation
