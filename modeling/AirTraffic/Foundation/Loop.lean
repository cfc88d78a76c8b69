/-
  Foundation/Loop.lean --- `while` loops.

  WHAT THIS FILE IS FOR.  A loop whose body another party has a say in ends only as
  far as that party keeps to its rules, so it is run on fuel here, and has an end
  state if the fuel suffices.  A body that keeps an invariant and makes a measure
  smaller brings the loop to one end state, whatever fuel above the measure it
  is given (`iterate_of_measure`); and what the body keeps holds in an end state,
  whatever the fuel was (`iterate_keeps`).
-/

set_option autoImplicit false

namespace AirTraffic.Foundation

variable {σ : Type} (More : σ → Prop) [DecidablePred More] (next : σ → σ)

/-- `while (more) next`, if it ends within `fuel` tests of its condition. -/
def iterate : Nat → σ → Option σ
  | 0, _ => none
  | fuel + 1, s => if More s then iterate fuel (next s) else some s

variable {More next}

/-- What the body keeps holds in the end state. -/
theorem iterate_keeps (Inv : σ → Prop) (body : ∀ s, Inv s → More s → Inv (next s)) :
    ∀ {fuel : Nat} {s t : σ}, iterate More next fuel s = some t → Inv s → Inv t := by
  intro fuel
  induction fuel with
  | zero =>
      intro s t h _
      exact absurd h (by simp [iterate])
  | succ fuel ih =>
      intro s t h inv
      rw [iterate] at h
      split at h
      · rename_i more
        exact ih h (body s inv more)
      · obtain rfl := Option.some.inj h
        exact inv

/-- **Loops end.**  The invariant holds in the end state, and the condition does
not. -/
theorem iterate_of_measure (Inv : σ → Prop) (measure : σ → Nat)
    (body : ∀ s, Inv s → More s → Inv (next s) ∧ measure (next s) < measure s) {s : σ}
    (inv : Inv s) :
    ∃ t, Inv t ∧ ¬ More t ∧ ∀ fuel, measure s < fuel → iterate More next fuel s = some t := by
  induction hn : measure s using Nat.strongRecOn generalizing s with
  | ind n ih =>
      cases Decidable.em (More s) with
      | inl more =>
          obtain ⟨hnext, hless⟩ := body s inv more
          obtain ⟨t, ht, hend, hrun⟩ := ih _ (hn ▸ hless) hnext rfl
          refine ⟨t, ht, hend, ?_⟩
          intro fuel hfuel
          obtain ⟨fuel, rfl⟩ : ∃ k, fuel = k + 1 := ⟨fuel - 1, by omega⟩
          rw [iterate, if_pos more]
          exact hrun fuel (by omega)
      | inr done =>
          refine ⟨s, inv, done, ?_⟩
          intro fuel hfuel
          obtain ⟨fuel, rfl⟩ : ∃ k, fuel = k + 1 := ⟨fuel - 1, by omega⟩
          rw [iterate, if_neg done]

end AirTraffic.Foundation
