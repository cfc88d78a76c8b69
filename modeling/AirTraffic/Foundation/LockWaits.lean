/-
  Foundation/LockWaits.lean --- processes that wait for each other's locks.

  WHAT THIS FILE IS FOR.  A request that would close a cycle is refused
  (`RecordLock.lean`), so the processes that do wait never wait in a circle
  (`Acyclic`).  The changes of a lock table keep that (`Acyclic.of_not_waiting`,
  `Acyclic.wait`), and of finitely many processes some one can then go on
  (`Acyclic.exists_unblocked`).
-/
import AirTraffic.Foundation.RecordLock
import Mathlib.Data.Fintype.Card
import Mathlib.Order.WellFounded

set_option autoImplicit false

namespace AirTraffic.Foundation

open Relation

variable {Pid : Type} {held held' request request' : Pid → Option LockMode} {p q : Pid}
  {mode : LockMode}

/-- Nobody waits for itself, directly or through others. -/
def Acyclic (held request : Pid → Option LockMode) : Prop :=
  ∀ p, ¬ TransGen (Waits held request) p p

theorem acyclic_of_no_request (h : ∀ p, request p = none) : Acyclic held request := by
  intro p hcycle
  obtain ⟨q, ⟨mode, hmode, _⟩, _⟩ := TransGen.head'_iff.mp hcycle
  rw [h p] at hmode
  exact absurd hmode (by simp)

/-- What happens between the others stays acyclic when one process does not wait. -/
theorem Acyclic.of_not_waiting (h : Acyclic held request) (hp : request' p = none)
    (hothers : ∀ q r, q ≠ p → r ≠ p → Waits held' request' q r → Waits held request q r) :
    Acyclic held' request' := by
  have hsource : ∀ {q r}, Waits held' request' q r → q ≠ p := by
    rintro q r ⟨mode, hmode, _⟩ rfl
    rw [hp] at hmode
    exact absurd hmode (by simp)
  have hpath : ∀ {q r}, TransGen (Waits held' request') q r → r ≠ p →
      TransGen (Waits held request) q r := by
    intro q r path
    induction path with
    | single edge => exact fun hr => .single (hothers _ _ (hsource edge) hr edge)
    | tail _ edge ih =>
        exact fun hr => (ih (hsource edge)).tail (hothers _ _ (hsource edge) hr edge)
  intro q hcycle
  obtain ⟨r, edge, _⟩ := TransGen.head'_iff.mp hcycle
  exact h q (hpath hcycle (hsource edge))

section Update

variable [DecidableEq Pid]

/-- Requests of other processes. -/
theorem Waits.of_update {r : Pid}
    (edge : Waits held (Function.update request p (some mode)) q r) (hq : q ≠ p) :
    Waits held request q r := by
  obtain ⟨wanted, hwanted, hblocks⟩ := edge
  rw [Function.update_of_ne hq] at hwanted
  exact ⟨wanted, hwanted, hblocks⟩

/-- A path to the process that begins to wait does not need its request. -/
theorem reaches_of_update
    (path : ReflTransGen (Waits held (Function.update request p (some mode))) q p) :
    ReflTransGen (Waits held request) q p := by
  induction path using ReflTransGen.head_induction_on with
  | refl => exact .refl
  | @head q r edge _ ih =>
      by_cases hq : q = p
      · rw [hq]
      · exact .head (edge.of_update hq) ih

/-- A path that needs the new request goes through the process that made it. -/
theorem path_of_update {r : Pid}
    (path : TransGen (Waits held (Function.update request p (some mode))) q r) :
    TransGen (Waits held request) q r ∨
      ReflTransGen (Waits held (Function.update request p (some mode))) q p ∧
        ReflTransGen (Waits held (Function.update request p (some mode))) p r := by
  induction path with
  | @single r edge =>
      by_cases hq : q = p
      · subst hq
        exact Or.inr ⟨.refl, .single edge⟩
      · exact Or.inl (.single (edge.of_update hq))
  | @tail b r path edge ih =>
      rcases ih with hold | ⟨hto, hfrom⟩
      · by_cases hb : b = p
        · subst hb
          exact Or.inr ⟨path.to_reflTransGen, .single edge⟩
        · exact Or.inl (hold.tail (edge.of_update hb))
      · exact Or.inr ⟨hto, hfrom.tail edge⟩

/-- A process that waits only where it closes no cycle. -/
theorem Acyclic.wait (h : Acyclic held request) (hlive : ¬ WouldDeadlock held request p mode) :
    Acyclic held (Function.update request p (some mode)) := by
  intro q hcycle
  rcases path_of_update hcycle with hold | ⟨hto, hfrom⟩
  · exact h q hold
  · -- the cycle goes through the new request
    have hround := (TransGen.trans_right hfrom hcycle).trans_left hto
    obtain ⟨r, ⟨wanted, hwanted, hblocks⟩, hback⟩ := TransGen.head'_iff.mp hround
    rw [Function.update_self] at hwanted
    obtain rfl := Option.some.inj hwanted
    exact hlive ⟨r, hblocks, reaches_of_update hback⟩

end Update

/-- Behind every process that waits there is one that nothing stands in the way of. -/
theorem Acyclic.exists_unblocked [Finite Pid] (h : Acyclic held request) (p : Pid) :
    ∃ q, ReflTransGen (Waits held request) p q ∧
      ∀ mode, request q = some mode → Free held q mode := by
  have wf : WellFounded (flip (TransGen (Waits held request))) := by
    have : IsTrans Pid (flip (TransGen (Waits held request))) :=
      ⟨fun _ _ _ hab hbc => TransGen.trans hbc hab⟩
    have : Std.Irrefl (flip (TransGen (Waits held request))) := ⟨h⟩
    exact Finite.wellFounded_of_trans_of_irrefl _
  obtain ⟨q, hq, hlast⟩ := wf.has_min {q | ReflTransGen (Waits held request) p q} ⟨p, .refl⟩
  refine ⟨q, hq, fun mode hmode r hblocks => ?_⟩
  have edge : Waits held request q r := ⟨mode, hmode, hblocks⟩
  exact hlast r (hq.tail edge) (.single edge)

end AirTraffic.Foundation
