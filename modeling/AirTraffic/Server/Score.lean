/-
  Server/Score.lean --- who wins the game.

  WHAT THIS FILE IS FOR.  The players bring planes down, and the server says which
  of them landed.  In every store that can be reached, the planes that are down lie
  away from the airports, and landed exactly if they glided slowly
  (`down_rows_grounded`).  What a poll finds follows from the planes as they were
  created and commanded, in whole numbers (`poll_verdicts`): how long a plane has
  sunk since, and whether it glides, and nothing else.
-/
import AirTraffic.Atcd.Impact
import AirTraffic.Server.Observers

set_option autoImplicit false

namespace AirTraffic.Server

open AirTraffic.Foundation AirTraffic.Storage AirTraffic.Atcd AirTraffic.Protocol

section Score

variable [Platform]

/-! ## The planes that are down -/

/-- A plane of the list after an event was there before, or came down as all do, or is
flying. -/
theorem Outcome.mem_grounded (hcast : Platform.indefinite = -2147483648) {w : World} {e : Event}
    {fleet : List AtcPlane} (inv : w.Inv) (hoffers : w.Offers e) (h : Outcome w e fleet)
    {plane : AtcPlane} (hmem : plane ∈ fleet) :
    plane ∈ w.planes ∨ Grounded plane ∨ plane.status = flying := by
  by_cases hpoll : e.action = .poll
  · have settles : Settles e.moment.now w.planes fleet := by
      rw [Outcome, hpoll] at h
      exact h
    rcases settles.mem_or_settled hmem with hold | ⟨row, hrow, hdown, rfl⟩
    · exact Or.inl hold
    · exact Or.inr (Or.inl (grounded_settle hcast (inv.worthy row hrow hdown.1) hdown.2))
  · obtain ⟨client, moment, action⟩ := e
    cases action with
    | poll => exact absurd rfl hpoll
    | create =>
        simp only [Outcome] at h
        split at h
        · exact Or.inl (h ▸ hmem)
        · rcases h.mem hmem with rfl | hold
          · exact Or.inr (Or.inr rfl)
          · exact Or.inl hold
    | command cmd copy =>
        obtain ⟨pair, hseen, hcopy⟩ := List.mem_map.mp hoffers
        have hobtained : Obtained copy := hcopy ▸ inv.seen pair hseen
        simp only [Outcome, commandedFleet, commanded_eq hobtained] at h
        cases hstored : applyCommand cmd.code { overWire copy with time := moment.now } with
        | none =>
            rw [h, hstored] at hmem
            exact Or.inl hmem
        | some stored =>
            rw [h, hstored] at hmem
            rcases (put_stores stored w.planes).mem hmem with rfl | hold
            · exact Or.inr (Or.inr (stored_of_obtained hobtained hstored).1)
            · exact Or.inl hold

/-- **Where a plane flew has no part in whether it landed.**  In every store that can be
reached, each plane that is down is on the line 352, outside the landing zones, and has
landed exactly if its elevation is -10 and its speed at most 56. -/
theorem down_rows_grounded (hcast : Platform.indefinite = -2147483648) {start : Int64}
    {w : World} (reached : Reachable Step (World.initial start) w) :
    ∀ plane ∈ w.planes, plane.Down → Grounded plane := by
  have kept : ∀ w e w', (w.Inv ∧ ∀ plane ∈ w.planes, plane.Down → Grounded plane) →
      Step w e w' → w'.Inv ∧ ∀ plane ∈ w'.planes, plane.Down → Grounded plane := by
    rintro w e w' ⟨inv, grounded⟩ step
    refine ⟨inv.step step, fun plane hmem hdown => ?_⟩
    rcases (step.served inv).outcome.mem_grounded hcast inv step.cases.1.2 hmem with
      hold | hground | hflying
    · exact grounded plane hold hdown
    · exact hground
    · exact absurd hflying hdown.not_flying
  have hstart : ∀ plane ∈ (World.initial start).planes, plane.Down → Grounded plane := by
    rw [planes_initial]
    intro plane hmem
    exact absurd hmem List.not_mem_nil
  exact (reached.invariant _ kept ⟨inv_initial start, hstart⟩).2

end Score

/-- The plane of `descent` glides slowly from the first airport. -/
theorem down_rows_grounded_descent :
    ∃ (_ : Platform) (w : World), Reachable Step (World.initial 0) w ∧
      w.planes.map AtcPlane.status = [landed] ∧
      ∀ plane ∈ w.planes, plane.Down → Grounded plane := by
  let _ : Platform := x86
  obtain ⟨trace, w, _, run, _, _, hlanded, _⟩ := exists_descent
  have reached : Reachable Step (World.initial 0) w :=
    ⟨trace, run.mono fun _ _ _ step => step.1⟩
  exact ⟨x86, w, reached, hlanded, down_rows_grounded rfl reached⟩

section Score

variable [Platform]

/-! ## The planes as they were commanded -/

/-- What is stored between polls is in the air. -/
def Flown (stored : List AtcPlane) : Prop :=
  ∀ plane ∈ stored, plane.status = flying ∧ Airworthy plane

variable {start : Int64} {w w' : World} {e : Event} {stored : List AtcPlane}

/-- What an event stores was there before, or is in the air. -/
theorem Flown.step (flown : Flown stored) (inv : w.Inv) (hoffers : w.Offers e) :
    Flown (w.board.stored e stored) := by
  intro plane h
  obtain ⟨client, moment, action⟩ := e
  cases action with
  | create =>
      simp only [Board.stored, createdFleet] at h
      split at h
      · exact flown plane h
      · rcases (put_stores _ stored).mem h with rfl | hold
        · exact ⟨rfl, airworthy_newPlane moment.chance moment.now⟩
        · exact flown plane hold
  | poll => exact flown plane h
  | command cmd copy =>
      obtain ⟨pair, hseen, hcopy⟩ := List.mem_map.mp hoffers
      have hobtained : Obtained copy := hcopy ▸ inv.seen pair hseen
      simp only [Board.stored, commandedFleet, commanded_eq hobtained] at h
      cases hchanged : applyCommand cmd.code { overWire copy with time := moment.now } with
      | none =>
          rw [hchanged] at h
          exact flown plane h
      | some changed =>
          rw [hchanged] at h
          rcases (put_stores changed stored).mem h with rfl | hold
          · obtain ⟨hflying, hworthy, _⟩ := stored_of_obtained hobtained hchanged
            exact ⟨hflying, hworthy⟩
          · exact flown plane hold

theorem flown_of_run {trace : List (Event × World)} (run : Run CleanStep w trace w')
    (inv : w.Inv) (flown : Flown stored) : Flown (flights w trace stored) := by
  induction run generalizing stored with
  | nil w => exact flown
  | cons step _ ih => exact ih (inv.step step.1) (Flown.step flown inv step.1.cases.1.2)

/-! ## The score -/

/-- **What a poll finds.**  Behind every poll the planes stored are those that were
created and commanded, each with the verdict that its own record gives: how long it
has sunk since, and whether it glides slowly.  No poll and no other plane has a part
in it. -/
theorem poll_verdicts (hcast : Platform.indefinite = -2147483648)
    {trace : List (Event × World)} (run : Run CleanStep (World.initial start) trace w)
    (step : CleanStep w e w') (hpoll : e.action = .poll) (hin : InTime start e.moment.now) :
    w'.planes.map (fun row => (row.id, row.status)) =
      (flights (World.initial start) trace []).map fun flight =>
        (flight.id, flight.verdict e.moment.now) := by
  have hneg : Platform.indefinite < 0 := by rw [hcast]; decide
  have hnone : (World.initial start).planes = [] := planes_initial start
  have htimely : (World.initial start).Timely start := by
    rw [World.Timely, hnone]
    intro plane hmem
    exact absurd hmem List.not_mem_nil
  obtain ⟨clean, agree⟩ := agree_of_run hneg run (clean_initial start) htimely
    (Int64.le_refl start) fun t _ _ => by rw [hnone]
  have hunflown : Flown [] := fun plane hmem => absurd hmem List.not_mem_nil
  have flown := flown_of_run run (inv_initial start) hunflown
  have hle := (Step.clock step.1).1
  rw [Step.planes_polled clean step hpoll, agree e.moment.now hle hin, List.map_map]
  refine List.map_congr_left fun flight hmem => ?_
  obtain ⟨hflying, worthy⟩ := flown flight hmem
  exact Prod.ext (polled_id _ _) (status_polled hcast e.moment.now hflying worthy)

end Score

/-- In the list that forgets the polls the plane of `descent` is in the air. -/
theorem poll_verdicts_descent :
    ∃ (_ : Platform) (trace : List (Event × World)) (w w' : World),
      Run CleanStep (World.initial 0) trace w ∧ trace.map Prod.fst = descent ∧
        w'.planes.map AtcPlane.status = [landed] ∧
        w'.planes.map (fun row => (row.id, row.status)) =
          (flights (World.initial 0) trace []).map fun flight =>
            (flight.id, flight.verdict 2000) := by
  let _ : Platform := x86
  obtain ⟨trace, w, w', run, clean, hevents, hlanded, last⟩ := exists_descent
  have hverdicts := poll_verdicts rfl run last rfl ⟨by decide, by decide⟩
  have hsame : w'.planes = w.planes := by
    have hpolled : w.planes.map (polled 2000) = w.planes.map id := by
      refine List.map_congr_left fun row hmem => ?_
      have hdown : row.status ∈ w.planes.map AtcPlane.status := List.mem_map_of_mem hmem
      rw [hlanded, List.mem_singleton] at hdown
      exact polled_of_down (Or.inl hdown) 2000
    rw [Step.planes_polled clean last rfl]
    exact hpolled.trans (List.map_id _)
  exact ⟨x86, trace, w, w', run, hevents, hsame ▸ hlanded, hverdicts⟩

end AirTraffic.Server
