/-
  Foundation/Transition.lean --- runs of labelled transition systems.

  WHAT THIS FILE IS FOR.  A system is a step relation on states, labelled by the
  events that drive it.  A run is recorded as its trace, the events with the
  states they lead to.  This file packages the inductions over runs once: what
  every step keeps holds throughout (`Run.invariant`, `Reachable.invariant`),
  and where one step keeps a property exactly under a condition, a run keeps it
  exactly if all of its steps meet the condition (`Run.forall_states_iff` for a
  property of states, `Run.forall_steps_iff` and `Run.forall_steps_iff_guarded`
  for a property of steps, `Run.pairwise_states_iff` for a relation between an
  earlier and a later state).  What one system does step by step, another one that
  simulates it does run by run (`Run.simulate`), also where some steps are nothing to
  the other one (`Run.refine`), and where a step can always make a measure smaller, a
  run comes to the end (`Run.exists_final`).
-/
import Mathlib.Data.List.Basic
import Mathlib.Data.List.Pairwise

set_option autoImplicit false

namespace AirTraffic.Foundation

variable {σ ε : Type}

/-- The trace leads from one state to another. -/
inductive Run (Step : σ → ε → σ → Prop) : σ → List (ε × σ) → σ → Prop
  | nil (s : σ) : Run Step s [] s
  | cons {s t u : σ} {event : ε} {rest : List (ε × σ)}
      (step : Step s event t) (tail : Run Step t rest u) :
      Run Step s ((event, t) :: rest) u

/-- The states a run goes through, the first included. -/
def states (s : σ) (trace : List (ε × σ)) : List σ := s :: trace.map Prod.snd

/-- The steps of a run: the state before, the event, and the state after. -/
def steps : σ → List (ε × σ) → List (σ × ε × σ)
  | _, [] => []
  | s, (event, t) :: rest => (s, event, t) :: steps t rest

/-- Steps that meet a condition on the state before them and their event. -/
def Guarded (Step : σ → ε → σ → Prop) (guard : σ → ε → Prop) (s : σ) (event : ε)
    (t : σ) : Prop :=
  Step s event t ∧ guard s event

variable {Step : σ → ε → σ → Prop} {guard : σ → ε → Prop} {Inv : σ → Prop}

/-- The states a system can be in when it starts in `initial`. -/
def Reachable (Step : σ → ε → σ → Prop) (initial s : σ) : Prop :=
  ∃ trace, Run Step initial trace s

theorem Run.append {s t u : σ} {left right : List (ε × σ)} (first : Run Step s left t)
    (second : Run Step t right u) : Run Step s (left ++ right) u := by
  induction first with
  | nil s => exact second
  | cons step _ ih => exact .cons step (ih second)

theorem Reachable.snoc {initial s t : σ} {event : ε} (h : Reachable Step initial s)
    (step : Step s event t) : Reachable Step initial t := by
  obtain ⟨trace, run⟩ := h
  exact ⟨_, run.append (.cons step (.nil t))⟩

/-- Where steps are computed, the events that can be taken in turn are a run. -/
theorem Run.of_foldlM {step : σ → ε → Option σ} {events : List ε} {s t : σ}
    (h : events.foldlM step s = some t) :
    ∃ trace, Run (fun s event t => step s event = some t) s trace t ∧
      trace.map Prod.fst = events := by
  induction events generalizing s with
  | nil =>
      obtain rfl : s = t := Option.some.inj h
      exact ⟨[], .nil s, rfl⟩
  | cons event rest ih =>
      rw [List.foldlM_cons] at h
      obtain ⟨mid, hmid, hrest⟩ := Option.bind_eq_some_iff.mp h
      obtain ⟨trace, run, hevents⟩ := ih hrest
      exact ⟨(event, mid) :: trace, .cons hmid run, congrArg (event :: ·) hevents⟩

/-- Runs of a system are runs of any system that has its steps. -/
theorem Run.mono {Step' : σ → ε → σ → Prop}
    (h : ∀ s event t, Step s event t → Step' s event t) {s t : σ}
    {trace : List (ε × σ)} (run : Run Step s trace t) : Run Step' s trace t := by
  induction run with
  | nil s => exact .nil s
  | cons step _ ih => exact .cons (h _ _ _ step) ih

/-- A run of one event is a step. -/
theorem Run.step_of_single {s t : σ} {event : ε} {trace : List (ε × σ)}
    (run : Run Step s trace t) (h : trace.map Prod.fst = [event]) :
    Step s event t ∧ trace = [(event, t)] := by
  obtain _ | ⟨step, tail⟩ := run
  · exact absurd h (by simp)
  · obtain ⟨rfl, hrest⟩ := List.cons.inj h
    obtain _ | _ := tail
    · exact ⟨step, rfl⟩
    · exact absurd hrest (by simp)

/-- What every step keeps, every run keeps. -/
theorem Run.invariant (Inv : σ → Prop) (kept : ∀ s event t, Inv s → Step s event t → Inv t)
    {s t : σ} {trace : List (ε × σ)} (run : Run Step s trace t) (hs : Inv s) :
    Inv t := by
  induction run with
  | nil s => exact hs
  | cons step _ ih => exact ih (kept _ _ _ hs step)

/-- What holds initially and is kept by every step holds in every reachable
state. -/
theorem Reachable.invariant (Inv : σ → Prop) {initial s : σ}
    (kept : ∀ s event t, Inv s → Step s event t → Inv t) (start : Inv initial)
    (hs : Reachable Step initial s) : Inv s := by
  obtain ⟨trace, run⟩ := hs
  exact run.invariant Inv kept start

/-- The steps of a run are steps, from states in which the invariant holds. -/
theorem Run.of_mem_steps (Inv : σ → Prop)
    (kept : ∀ s event t, Inv s → Step s event t → Inv t) {s t : σ} {trace : List (ε × σ)}
    (run : Run Step s trace t) (hs : Inv s) :
    ∀ step ∈ steps s trace, Inv step.1 ∧ Step step.1 step.2.1 step.2.2 := by
  induction run with
  | nil s =>
      intro step hmem
      exact absurd hmem (by simp [steps])
  | cons first _ ih =>
      intro step hmem
      rcases List.mem_cons.mp hmem with rfl | hlater
      · exact ⟨hs, first⟩
      · exact ih (kept _ _ _ hs first) step hlater

/-- What a step from a state with the invariant gives of its event, a run gives of all
of its events. -/
theorem Run.of_mem (Inv : σ → Prop) (P : ε → Prop)
    (kept : ∀ s event t, Inv s → Step s event t → P event ∧ Inv t) {s t : σ}
    {trace : List (ε × σ)} (run : Run Step s trace t) (hs : Inv s) :
    ∀ entry ∈ trace, P entry.1 := by
  induction run with
  | nil s =>
      intro entry hmem
      exact absurd hmem List.not_mem_nil
  | cons first _ ih =>
      obtain ⟨hfirst, ht⟩ := kept _ _ _ hs first
      intro entry hmem
      rcases List.mem_cons.mp hmem with rfl | hlater
      · exact hfirst
      · exact ih ht entry hlater

/-- A property of steps holds of all steps of a run exactly if they meet the
condition that decides it for one step. -/
theorem Run.forall_steps_iff (Inv : σ → Prop) (P : σ → ε → σ → Prop) (guard : σ → ε → Prop)
    (kept : ∀ s event t, Inv s → Step s event t → Inv t)
    (exact_step : ∀ s event t, Inv s → Step s event t → (P s event t ↔ guard s event))
    {s t : σ} {trace : List (ε × σ)} (run : Run Step s trace t) (hs : Inv s) :
    (∀ step ∈ steps s trace, P step.1 step.2.1 step.2.2) ↔
      ∀ step ∈ steps s trace, guard step.1 step.2.1 := by
  have hsteps := run.of_mem_steps Inv kept hs
  constructor
  · intro hall step hmem
    obtain ⟨inv, hstep⟩ := hsteps step hmem
    exact (exact_step _ _ _ inv hstep).mp (hall step hmem)
  · intro hall step hmem
    obtain ⟨inv, hstep⟩ := hsteps step hmem
    exact (exact_step _ _ _ inv hstep).mpr (hall step hmem)

theorem mem_states_self (s : σ) (trace : List (ε × σ)) : s ∈ states s trace :=
  List.mem_cons_self

theorem states_cons (s : σ) (event : ε) (t : σ) (rest : List (ε × σ)) :
    states s ((event, t) :: rest) = s :: states t rest := rfl

/-- What every step keeps holds in every state of a run. -/
theorem Run.of_mem_states (Inv : σ → Prop)
    (kept : ∀ s event t, Inv s → Step s event t → Inv t) {s t : σ} {trace : List (ε × σ)}
    (run : Run Step s trace t) (hs : Inv s) : ∀ v ∈ states s trace, Inv v := by
  induction run with
  | nil s =>
      intro v hv
      rw [states, List.map_nil, List.mem_singleton] at hv
      exact hv ▸ hs
  | cons first _ ih =>
      intro v hv
      rw [states_cons] at hv
      rcases List.mem_cons.mp hv with rfl | hlater
      · exact hs
      · exact ih (kept _ _ _ hs first) v hlater

/-- A run ends in its last state. -/
theorem Run.mem_states {s t : σ} {trace : List (ε × σ)} (run : Run Step s trace t) :
    t ∈ states s trace := by
  induction run with
  | nil s => exact mem_states_self s []
  | cons _ _ ih => exact List.mem_cons_of_mem _ ih

/-- What holds between any earlier and any later state holds between the ends of
a run that follows another one. -/
theorem Run.rel_of_pairwise {R : σ → σ → Prop} {s t u v : σ} {event : ε}
    {left right : List (ε × σ)} (first : Run Step s left t) (_step : Step t event u)
    (last : Run Step u right v) (h : (states s (left ++ (event, u) :: right)).Pairwise R) :
    R t v := by
  have hstates : states s (left ++ (event, u) :: right) = states s left ++ states u right := by
    simp [states]
  rw [hstates, List.pairwise_append] at h
  exact h.2.2 t first.mem_states v last.mem_states

/-- A property of states holds throughout a run exactly if every step meets the
condition under which a step keeps it.  The invariant is only kept by the steps
that meet it. -/
theorem Run.forall_states_iff (Inv P : σ → Prop) (guard : σ → ε → Prop)
    (kept : ∀ s event t, Inv s → Step s event t → guard s event → Inv t)
    (exact_step : ∀ s event t, Inv s → P s → Step s event t → (P t ↔ guard s event))
    {s t : σ} {trace : List (ε × σ)} (run : Run Step s trace t) (hs : Inv s)
    (start : P s) :
    (∀ v ∈ states s trace, P v) ↔ Run (Guarded Step guard) s trace t := by
  induction run with
  | nil s =>
      constructor
      · intro _
        exact .nil s
      · intro _ v hv
        rw [states, List.map_nil, List.mem_singleton] at hv
        exact hv ▸ start
  | @cons s t u event rest step _ ih =>
      have hexact := exact_step s event t hs start step
      rw [states_cons]
      constructor
      · intro hall
        have hrest := fun v (hv : v ∈ states t rest) => hall v (List.mem_cons_of_mem s hv)
        have ht := hrest t (mem_states_self t rest)
        have hguard := hexact.mp ht
        exact .cons ⟨step, hguard⟩ ((ih (kept _ _ _ hs step hguard) ht).mp hrest)
      · intro hguarded v hv
        obtain ⟨_, hguard⟩ | ⟨⟨_, hguard⟩, tail⟩ := hguarded
        rcases List.mem_cons.mp hv with rfl | hv
        · exact start
        · exact (ih (kept _ _ _ hs step hguard) (hexact.mpr hguard)).mpr tail v hv

/-- A property of steps holds of all steps of a run exactly if every step meets the
condition that decides it.  The invariant is only kept by the steps that meet it. -/
theorem Run.forall_steps_iff_guarded (Inv : σ → Prop) (P : σ → ε → σ → Prop)
    (guard : σ → ε → Prop)
    (kept : ∀ s event t, Inv s → Step s event t → guard s event → Inv t)
    (exact_step : ∀ s event t, Inv s → Step s event t → (P s event t ↔ guard s event))
    {s t : σ} {trace : List (ε × σ)} (run : Run Step s trace t) (hs : Inv s) :
    (∀ step ∈ steps s trace, P step.1 step.2.1 step.2.2) ↔
      Run (Guarded Step guard) s trace t := by
  induction run with
  | nil s =>
      constructor
      · intro _
        exact .nil s
      · intro _ step hmem
        exact absurd hmem (by simp [steps])
  | @cons s t u event rest step _ ih =>
      have hexact := exact_step s event t hs step
      constructor
      · intro hall
        have hguard := hexact.mp (hall _ List.mem_cons_self)
        exact .cons ⟨step, hguard⟩ ((ih (kept _ _ _ hs step hguard)).mp
          fun later hlater => hall later (List.mem_cons_of_mem _ hlater))
      · intro hguarded later hmem
        obtain ⟨_, hguard⟩ | ⟨⟨_, hguard⟩, tail⟩ := hguarded
        rcases List.mem_cons.mp hmem with rfl | hlater
        · exact hexact.mpr hguard
        · exact (ih (kept _ _ _ hs step hguard)).mpr tail later hlater

/-- A transitive relation holds between any earlier and any later state of a run
exactly if every step meets the condition under which a step is in it. -/
theorem Run.pairwise_states_iff (Inv : σ → Prop) (R : σ → σ → Prop) (guard : σ → ε → Prop)
    (trans : ∀ s t u, R s t → R t u → R s u)
    (kept : ∀ s event t, Inv s → Step s event t → Inv t)
    (exact_step : ∀ s event t, Inv s → Step s event t → (R s t ↔ guard s event))
    {s t : σ} {trace : List (ε × σ)} (run : Run Step s trace t) (hs : Inv s) :
    (states s trace).Pairwise R ↔ Run (Guarded Step guard) s trace t := by
  induction run with
  | nil s =>
      constructor
      · intro _
        exact .nil s
      · intro _
        exact List.pairwise_singleton R s
  | @cons s t u event rest step _ ih =>
      have ht := kept _ _ _ hs step
      have hexact := exact_step s event t hs step
      rw [states_cons, List.pairwise_cons]
      constructor
      · rintro ⟨hfirst, hrest⟩
        exact .cons ⟨step, hexact.mp (hfirst t (mem_states_self t rest))⟩ ((ih ht).mp hrest)
      · intro hguarded
        obtain ⟨_, hguard⟩ | ⟨⟨_, hguard⟩, tail⟩ := hguarded
        have hst := hexact.mpr hguard
        have hrest := (ih ht).mpr tail
        refine ⟨?_, hrest⟩
        intro v hv
        rcases List.mem_cons.mp hv with rfl | hlater
        · exact hst
        · exact trans s t v hst ((List.pairwise_cons.mp hrest).1 v hlater)

/-- The events of a run that meets a condition on events. -/
theorem Run.of_mem_guarded {P : ε → Prop} {s t : σ} {trace : List (ε × σ)}
    (run : Run (Guarded Step fun _ event => P event) s trace t) :
    ∀ entry ∈ trace, P entry.1 := by
  induction run with
  | nil s =>
      intro entry hmem
      exact absurd hmem List.not_mem_nil
  | cons step _ ih =>
      intro entry hmem
      rcases List.mem_cons.mp hmem with rfl | hlater
      · exact step.2
      · exact ih entry hlater

/-- A run whose events all meet a condition is one of the steps that meet it. -/
theorem Run.guarded_of_mem {P : ε → Prop} {s t : σ} {trace : List (ε × σ)}
    (run : Run Step s trace t) (h : ∀ entry ∈ trace, P entry.1) :
    Run (Guarded Step fun _ event => P event) s trace t := by
  induction run with
  | nil s => exact .nil s
  | cons step _ ih =>
      obtain ⟨hfirst, hrest⟩ := List.forall_mem_cons.mp h
      exact .cons ⟨step, hfirst⟩ (ih hrest)

/-- Where some step always makes a measure smaller, until the system has come to an
end, a run leads to the end. -/
theorem Run.exists_final {μ : Type} {lt : μ → μ → Prop} (wf : WellFounded lt) (measure : σ → μ)
    (Inv Final : σ → Prop)
    (progress : ∀ s, Inv s → ¬ Final s →
      ∃ event t, Step s event t ∧ Inv t ∧ lt (measure t) (measure s)) (s : σ) (hs : Inv s) :
    ∃ trace t, Run Step s trace t ∧ Inv t ∧ Final t := by
  induction hm : measure s using wf.induction generalizing s with
  | _ m ih =>
      by_cases hfinal : Final s
      · exact ⟨[], s, .nil s, hs, hfinal⟩
      · obtain ⟨event, t, step, ht, hless⟩ := progress s hs hfinal
        obtain ⟨rest, u, tail, hu, hend⟩ := ih (measure t) (hm ▸ hless) t ht rfl
        exact ⟨(event, t) :: rest, u, .cons step tail, hu, hend⟩

/-- Runs of a system that another one simulates are matched, step by step. -/
theorem Run.simulate {τ δ : Type} {Step' : τ → δ → τ → Prop} (R : σ → τ → Prop)
    (M : ε → δ → Prop)
    (matched : ∀ s event t u, R s u → Step s event t →
      ∃ event' v, Step' u event' v ∧ M event event' ∧ R t v)
    {s t : σ} {trace : List (ε × σ)} (run : Run Step s trace t) {u : τ} (hs : R s u) :
    ∃ trace' v, Run Step' u trace' v ∧ R t v ∧
      List.Forall₂ (fun a b => M a.1 b.1 ∧ R a.2 b.2) trace trace' := by
  induction run generalizing u with
  | nil s => exact ⟨[], u, .nil u, hs, .nil⟩
  | cons step _ ih =>
      obtain ⟨event', v, step', hmatch, ht⟩ := matched _ _ _ _ hs step
      obtain ⟨rest, w, run', hw, hall⟩ := ih ht
      exact ⟨(event', v) :: rest, w, .cons step' run', hw, .cons ⟨hmatch, ht⟩ hall⟩

/-- A system whose steps are each a step of another one, or nothing to it, comes only
to what the other one comes to. -/
theorem Run.refine {τ δ : Type} {Step' : τ → δ → τ → Prop} (R : σ → τ → Prop)
    (matched : ∀ s event t u, R s u → Step s event t →
      ∃ v, R t v ∧ (v = u ∨ ∃ event', Step' u event' v))
    {s t : σ} {trace : List (ε × σ)} (run : Run Step s trace t) {u : τ} (hs : R s u) :
    ∃ v, Reachable Step' u v ∧ R t v := by
  induction run generalizing u with
  | nil s => exact ⟨u, ⟨[], .nil u⟩, hs⟩
  | cons step _ ih =>
      obtain ⟨v, ht, hv⟩ := matched _ _ _ _ hs step
      obtain ⟨w, ⟨rest, run'⟩, hw⟩ := ih ht
      rcases hv with rfl | ⟨event', step'⟩
      · exact ⟨w, ⟨rest, run'⟩, hw⟩
      · exact ⟨w, ⟨_, .cons step' run'⟩, hw⟩

end AirTraffic.Foundation
