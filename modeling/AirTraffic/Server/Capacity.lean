/-
  Server/Capacity.lean --- the cap on flying planes.

  WHAT THIS FILE IS FOR.  `create_plane` makes no plane when the counter of its
  process says that the store is full.  The counter is what the last poll of that
  process returned, so it knows nothing of planes made since, nor of what the
  other processes do.  `plane_cap_iff` says exactly which creations break the
  cap.
-/
import AirTraffic.Server.Board

set_option autoImplicit false

namespace AirTraffic.Server

open AirTraffic.Foundation AirTraffic.Storage AirTraffic.Atcd AirTraffic.Protocol

/-- A request to create planes or to poll them. -/
def CreatesOrPolls (_ : World) (e : Event) : Prop :=
  match e.action with
  | .create => True
  | .poll => True
  | .command _ _ => False

/-- A plane is only made where there is room for it: fewer planes than the cap
are flying, or the plane whose row the new one takes is one of those that do. -/
def Room (w : World) (e : Event) : Prop :=
  e.action = .create → (w.counters e.client).planesCount ≠ Int32.ofNat maxPlanes →
    flyingCount w.planes < maxPlanes ∨
      ∃ old, slotOf w.disk.file (newPlane e.moment.chance e.moment.now) = some old ∧
        old.status = flying

section Capacity

variable [Platform]

/-- The steps of clients that create and poll. -/
def CapStep : World → Event → World → Prop := Guarded Step CreatesOrPolls

/-- A poll does not add to the planes that are flying. -/
theorem flyingCount_settles {now : Int64} {fleet fleet' : List AtcPlane}
    (h : Settles now fleet fleet') : flyingCount fleet' ≤ flyingCount fleet := by
  induction h with
  | refl => exact Nat.le_refl _
  | tail _ step ih =>
      obtain ⟨plane, _, _, slot, stores⟩ := step
      have hcount := stores.flyingCount_add
      have hdown : flyingCount [settle plane now] = 0 := by
        simp [flyingCount, (down_settle plane now).not_flying]
      omega

/-- One step keeps the cap exactly if it makes no plane where there is no room. -/
theorem cap_iff {w w' : World} {e : Event} (inv : w.Inv)
    (hcap : flyingCount w.planes ≤ maxPlanes) (step : CapStep w e w') :
    flyingCount w'.planes ≤ maxPlanes ↔ Room w e := by
  obtain ⟨step, hkind⟩ := step
  have houtcome := (step.served inv).outcome
  cases haction : e.action with
  | create =>
      simp only [Outcome, haction] at houtcome
      simp only [Room, haction, true_imp_iff]
      split at houtcome
      · rename_i hfull
        rw [houtcome]
        exact ⟨fun _ hroom => absurd hfull hroom, fun _ => hcap⟩
      · rename_i hroom
        have hcount := houtcome.flyingCount_add
        have hnew : flyingCount [newPlane e.moment.chance e.moment.now] = 1 := rfl
        cases hslot : slotOf w.disk.file (newPlane e.moment.chance e.moment.now) with
        | none =>
            have hnone : flyingCount (none : Option AtcPlane).toList = 0 := rfl
            rw [hslot, hnew, hnone] at hcount
            constructor
            · intro hle _
              exact Or.inl (by omega)
            · intro h
              rcases h hroom with hless | ⟨old, hold, _⟩
              · omega
              · exact absurd hold (by simp)
        | some old =>
            have hone : flyingCount (some old).toList = if old.status = flying then 1 else 0 := by
              simp [flyingCount, List.countP_cons]
            rw [hslot, hnew, hone] at hcount
            constructor
            · intro hle _
              by_cases hflying : old.status = flying
              · exact Or.inr ⟨old, rfl, hflying⟩
              · rw [if_neg hflying] at hcount
                exact Or.inl (by omega)
            · intro h
              rcases h hroom with hless | ⟨other, hother, hflying⟩
              · split at hcount <;> omega
              · obtain rfl := Option.some.inj hother
                rw [if_pos hflying] at hcount
                omega
  | poll =>
      simp only [Outcome, haction] at houtcome
      simp only [Room, haction, reduceCtorEq, false_imp_iff, iff_true]
      exact Nat.le_trans (flyingCount_settles houtcome) hcap
  | command cmd copy =>
      simp only [CreatesOrPolls, haction] at hkind

end Capacity

/-! ## One plane too many -/

/-- The draws of client `k`, which give its plane an id of its own. -/
def crowdChance (k : Nat) : Chance where
  rand := fun i => if i = 3 then k / 10 else k
  pad := List.Vector.replicate 2 0

/-- Fifty-one clients make a plane each, one in a second, since a second has one id. -/
def crowd : List Event :=
  (List.range 51).map fun k =>
    { client := k, moment := { now := Int64.ofNat k, chance := crowdChance k }, action := .create }

theorem exists_crowd : ∃ (_ : Platform) (trace : List (Event × World)) (w : World),
    Run CapStep (World.initial 0) trace w ∧ trace.map Prod.fst = crowd ∧
      flyingCount w.planes = 51 := by
  let _ : Platform := x86
  have hplay : ((@Board.play x86 (fun _ e => e.action = .create) (Board.initial 0) crowd).any
      fun b => decide (flyingCount b.planes = 51)) = true := by
    decide +kernel
  have hcheck : ∀ (w : World) (e : Event), decide (e.action = .create) = true →
      CreatesOrPolls w e := by
    intro w e hcreate
    rw [CreatesOrPolls, of_decide_eq_true hcreate]
    trivial
  obtain ⟨trace, w, run, _, hcount, hevents⟩ := exists_run hcheck hplay
  exact ⟨x86, trace, w, run.mono fun _ _ _ step => ⟨step.1.1, step.2⟩, hevents,
    of_decide_eq_true hcount⟩

/-! ## Runs -/

/-- **When the plane cap holds.**  Throughout a run of creations and polls at
most `maxPlanes` planes are flying exactly if every creation finds room for its
plane, or its process knows that there is none. -/
theorem plane_cap_iff [Platform] {start : Int64} {trace : List (Event × World)} {w : World}
    (run : Run CapStep (World.initial start) trace w) :
    (∀ v ∈ states (World.initial start) trace, flyingCount v.planes ≤ maxPlanes) ↔
      Run (Guarded CapStep Room) (World.initial start) trace w := by
  apply Run.forall_states_iff World.Inv (fun v => flyingCount v.planes ≤ maxPlanes) Room
    (fun _ _ _ inv step _ => inv.step step.1) (fun _ _ _ inv hcap step => cap_iff inv hcap step)
    run (inv_initial start)
  rw [planes_initial]
  exact Nat.zero_le _

theorem plane_cap_iff_crowd :
    ∃ (_ : Platform) (trace : List (Event × World)) (w : World),
      trace.map Prod.fst = crowd ∧
        ((∀ v ∈ states (World.initial 0) trace, flyingCount v.planes ≤ maxPlanes) ↔
          Run (Guarded CapStep Room) (World.initial 0) trace w) := by
  obtain ⟨platform, trace, w, run, hevents, _⟩ := exists_crowd
  exact ⟨platform, trace, w, hevents, plane_cap_iff run⟩

/-- No client has polled, so each of the processes counts no planes. -/
theorem crowd_breaks_cap :
    ∃ (_ : Platform) (trace : List (Event × World)) (w : World),
      Run CapStep (World.initial 0) trace w ∧ trace.map Prod.fst = crowd ∧
        ¬ ∀ v ∈ states (World.initial 0) trace, flyingCount v.planes ≤ maxPlanes := by
  obtain ⟨platform, trace, w, run, hevents, hcount⟩ := exists_crowd
  refine ⟨platform, trace, w, run, hevents, fun hall => ?_⟩
  have hle := hall w run.mem_states
  rw [hcount] at hle
  exact absurd hle (by decide)

end AirTraffic.Server
