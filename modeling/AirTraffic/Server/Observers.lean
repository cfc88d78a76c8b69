/-
  Server/Observers.lean --- the game without its polls.

  WHAT THIS FILE IS FOR.  Only a poll finds out that a plane came down, and it
  writes that into the file for all players.  So the file depends on who polled
  and when.  What the players see does not: `flights` keeps what `create_plane`
  and `set` stored and forgets all polls, and a poll stores and answers what it
  would make of that list (`polls_only_observe`).  The two lists differ in between;
  what they agree on is what any later poll makes of them (`Agree`).
-/
import AirTraffic.Atcd.Observation
import AirTraffic.Server.Board

set_option autoImplicit false

namespace AirTraffic.Server

open AirTraffic.Foundation AirTraffic.Storage AirTraffic.Atcd AirTraffic.Protocol

/-- Every flying plane was stored in the run, with the time of that. -/
def World.Timely (start : Int64) (w : World) : Prop :=
  ∀ plane ∈ w.planes, plane.status = flying → start ≤ plane.time ∧ plane.time ≤ w.clock

section Observers

variable [Platform]

/-- What an event stores that is not a poll. -/
def Board.stored (b : Board) (e : Event) (flights : List AtcPlane) : List AtcPlane :=
  match e.action with
  | .create => createdFleet e.moment.chance e.moment.now (b.counters e.client) flights
  | .poll => flights
  | .command cmd plane => commandedFleet cmd.code (overWire plane) e.moment.now flights

/-- The planes as they were created and commanded. -/
def flights : World → List (Event × World) → List AtcPlane → List AtcPlane
  | _, [], stored => stored
  | w, (e, w') :: rest, stored => flights w' rest (w.board.stored e stored)

/-- Polls from now on make the same of both lists. -/
def Agree (start now : Int64) (planes stored : List AtcPlane) : Prop :=
  ∀ t, now ≤ t → InTime start t → planes.map (polled t) = stored.map (polled t)

variable {start : Int64} {w w' : World} {e : Event} {stored : List AtcPlane}

/-- Stored planes are new, or they were stored before. -/
theorem mem_stored {plane : AtcPlane} (h : plane ∈ w.board.stored e stored) :
    plane ∈ stored ∨ plane.time = e.moment.now ∨ plane.Down := by
  obtain ⟨client, moment, action⟩ := e
  cases action with
  | create =>
      simp only [Board.stored, createdFleet] at h
      split at h
      · exact Or.inl h
      · rcases (put_stores _ stored).mem h with rfl | hold
        · exact Or.inr (Or.inl rfl)
        · exact Or.inl hold
  | poll => exact Or.inl h
  | command cmd copy =>
      simp only [Board.stored, commandedFleet] at h
      split at h
      · exact Or.inl h
      · rename_i changed hcommanded
        rcases (put_stores changed stored).mem h with rfl | hold
        · unfold commanded at hcommanded
          split at hcommanded
          · rw [← Option.some.inj hcommanded]
            exact Or.inr (Or.inr (down_settle _ _))
          · rw [applyCommand_eq hcommanded]
            exact Or.inr (Or.inl rfl)
        · exact Or.inl hold

/-- Without a poll, the planes change as the flights do. -/
theorem Step.planes_stored (clean : w.Clean) (step : CleanStep w e w') (h : e.action ≠ .poll) :
    w'.planes = w.board.stored e w.planes := by
  obtain ⟨_, hplanes, _⟩ := step.1.clean clean step.2
  rw [hplanes]
  obtain ⟨client, moment, action⟩ := e
  cases action with
  | poll => exact absurd rfl h
  | create | command => rfl

theorem Step.planes_polled (clean : w.Clean) (step : CleanStep w e w') (h : e.action = .poll) :
    w'.planes = w.planes.map (polled e.moment.now) := by
  obtain ⟨_, hplanes, _⟩ := step.1.clean clean step.2
  rw [hplanes, Board.planesAfter, h]
  rfl

theorem Step.clock (step : Step w e w') : w.clock ≤ e.moment.now ∧ w'.clock = e.moment.now := by
  obtain ⟨⟨hclock, _⟩, _, _, _, rfl⟩ := step.cases
  exact ⟨hclock, rfl⟩

theorem World.Timely.step (timely : w.Timely start) (clean : w.Clean) (step : CleanStep w e w')
    (hstart : start ≤ w.clock) : w'.Timely start := by
  obtain ⟨hle, hclock⟩ := Step.clock step.1
  rw [World.Timely, hclock]
  intro plane hmem hflying
  have hold : plane ∈ w.planes → start ≤ plane.time ∧ plane.time ≤ e.moment.now := by
    intro hmem
    obtain ⟨hfrom, hto⟩ := timely plane hmem hflying
    exact ⟨hfrom, Int64.le_trans hto hle⟩
  by_cases hpoll : e.action = .poll
  · rw [Step.planes_polled clean step hpoll] at hmem
    obtain ⟨row, hrow, rfl⟩ := List.mem_map.mp hmem
    unfold polled at hold hflying ⊢
    split at hflying
    · exact absurd hflying (down_settle row e.moment.now).not_flying
    · rename_i hup
      rw [if_neg hup] at hold ⊢
      exact hold hrow
  · rw [Step.planes_stored clean step hpoll] at hmem
    rcases mem_stored hmem with hmem | htime | hdown
    · exact hold hmem
    · rw [htime]
      exact ⟨Int64.le_trans hstart hle, Int64.le_refl _⟩
    · exact absurd hflying hdown.not_flying

/-! ## The two lists -/

/-- Storing the same in both lists leaves them in agreement. -/
theorem Agree.keeps {now : Int64} {planes : List AtcPlane} (agree : Agree start now planes stored)
    (b : Board) (h : now ≤ e.moment.now) :
    Agree start e.moment.now (b.stored e planes) (b.stored e stored) := by
  have hput : ∀ (plane : AtcPlane) (t : Int64), now ≤ t → InTime start t →
      (put AtcPlane.id plane planes).map (polled t) =
        (put AtcPlane.id plane stored).map (polled t) := by
    intro plane t hle hin
    rw [map_polled_put, map_polled_put, agree t hle hin]
  intro t hle hin
  have hnow := Int64.le_trans h hle
  obtain ⟨client, moment, action⟩ := e
  cases action with
  | create =>
      simp only [Board.stored, createdFleet]
      split
      · exact agree t hnow hin
      · exact hput _ t hnow hin
  | poll => exact agree t hnow hin
  | command cmd copy =>
      simp only [Board.stored, commandedFleet]
      split
      · exact agree t hnow hin
      · exact hput _ t hnow hin

/-- **A step keeps the lists in agreement.** -/
theorem Agree.step (hcast : Platform.indefinite < 0)
    (agree : Agree start w.clock w.planes stored) (clean : w.Clean) (timely : w.Timely start)
    (step : CleanStep w e w') : Agree start w'.clock w'.planes (w.board.stored e stored) := by
  obtain ⟨hle, hclock⟩ := Step.clock step.1
  have hboth := agree.keeps w.board hle
  rw [hclock]
  by_cases hpoll : e.action = .poll
  · have hsame : w.board.stored e w.planes = w.planes := by rw [Board.stored, hpoll]
    rw [hsame] at hboth
    intro t ht hin
    rw [← hboth t ht hin, Step.planes_polled clean step hpoll, List.map_map]
    refine List.map_congr_left fun plane hmem => ?_
    by_cases hflying : plane.status = flying
    · obtain ⟨hfrom, hto⟩ := timely plane hmem hflying
      have hnow := Int64.le_trans hto hle
      exact polled_polled hcast (clean.worthy plane hmem hflying)
        (hin.within hfrom hnow ht) (hin.within hfrom (Int64.le_trans hnow ht) (Int64.le_refl t)) ht
    · have hstays : polled e.moment.now plane = plane := if_neg fun hdown => hflying hdown.1
      exact congrArg (polled t) hstays
  · rw [Step.planes_stored clean step hpoll]
    exact hboth

/-! ## Runs -/

/-- What a run keeps, from any world on. -/
theorem agree_of_run (hcast : Platform.indefinite < 0) {trace : List (Event × World)}
    (run : Run CleanStep w trace w') (clean : w.Clean) (timely : w.Timely start)
    (hstart : start ≤ w.clock) (agree : Agree start w.clock w.planes stored) :
    w'.Clean ∧ Agree start w'.clock w'.planes (flights w trace stored) := by
  induction run generalizing stored with
  | nil w => exact ⟨clean, agree⟩
  | cons step _ ih =>
      obtain ⟨hle, hclock⟩ := Step.clock step.1
      refine ih (clean.step step) (timely.step clean step hstart) ?_
        (agree.step hcast clean timely step)
      rw [hclock]
      exact Int64.le_trans hstart hle

/-- **Polls only observe.**  Whoever polled and whenever, a poll stores and answers
what it would make of the planes as they were created and commanded: no earlier
poll has a part in it.  The run lasts less than the time that an `int` can hold, and
a double out of range is cast to a negative number. -/
theorem polls_only_observe (hcast : Platform.indefinite < 0) {start : Int64}
    {trace : List (Event × World)} {w w' : World} {e : Event}
    (run : Run CleanStep (World.initial start) trace w) (step : CleanStep w e w')
    (hpoll : e.action = .poll) (hin : InTime start e.moment.now) :
    w'.planes = (flights (World.initial start) trace []).map (polled e.moment.now) ∧
      w'.seen = w.seen ++
        ((aloft e.moment.now (flights (World.initial start) trace [])).take maxPlanes).map
          fun plane => (e.client, overWire plane) := by
  have htimely : (World.initial start).Timely start := by
    rw [World.Timely, planes_initial]
    intro plane hmem
    exact absurd hmem List.not_mem_nil
  obtain ⟨clean, agree⟩ := agree_of_run hcast run (clean_initial start) htimely
    (Int64.le_refl start) fun t _ _ => by rw [planes_initial]
  have hsame := agree e.moment.now (Step.clock step.1).1 hin
  obtain ⟨_, _, _, hseen⟩ := step.1.clean clean step.2
  refine ⟨(Step.planes_polled clean step hpoll).trans hsame, ?_⟩
  rw [hseen, Board.shown, hpoll]
  dsimp only
  rw [Board.answer]
  exact congrArg (fun planes => w.seen ++ (planes.take maxPlanes).map
    fun plane => (e.client, overWire plane)) (aloft_eq_of_polled hsame)

end Observers

/-- Client 0 sends its plane down, and client 1 polls it as it lands. -/
def descent : List Event :=
  [request 0 0 .create, request 0 0 .poll, request 0 0 (.command .descend firstPlane),
    request 1 1000 .poll]

theorem play_descent :
    ((@Board.play x86 (fun _ _ => true) (Board.initial 0) descent).any fun b =>
      b.planes.map AtcPlane.status == [landed] && decide (b.clock ≤ 2000)) = true := by
  decide +kernel

/-- The plane has landed before the last poll. -/
theorem exists_descent :
    ∃ (trace : List (Event × World)) (w w' : World),
      Run (@CleanStep x86) (World.initial 0) trace w ∧ @World.Clean x86 w ∧
        trace.map Prod.fst = descent ∧ w.planes.map AtcPlane.status = [landed] ∧
        @CleanStep x86 w (request 0 2000 .poll) w' := by
  let _ : Platform := x86
  obtain ⟨trace, w, run, clean, hgood, hevents⟩ :=
    @exists_run _ _ (fun _ _ => True) (fun _ _ _ => trivial) _ _ _ play_descent
  obtain ⟨hlanded, hclock⟩ := (Bool.and_eq_true _ _).mp hgood
  obtain ⟨w', step⟩ : ∃ w', Step w (request 0 2000 .poll) w' :=
    clean.serves (of_decide_eq_true hclock) trivial
  have last : CleanStep w (request 0 2000 .poll) w' :=
    ⟨step, fun hcreate => absurd hcreate (by decide)⟩
  exact ⟨trace, w, w', run.mono fun _ _ _ step => step.1, clean, hevents,
    beq_iff_eq.mp hlanded, last⟩

/-- In the list that forgets the polls the plane is in the air. -/
theorem polls_only_observe_descent :
    ∃ (_ : Platform) (trace : List (Event × World)) (w w' : World),
      trace.map Prod.fst = descent ∧ w.planes.map AtcPlane.status = [landed] ∧
        w'.planes = (flights (World.initial 0) trace []).map (polled 2000) ∧
        w'.seen = w.seen ++
          ((aloft 2000 (flights (World.initial 0) trace [])).take maxPlanes).map
            fun plane => (0, overWire plane) := by
  let _ : Platform := x86
  obtain ⟨trace, w, w', run, _, hevents, hlanded, last⟩ := exists_descent
  have hobserve := polls_only_observe (by decide) run last rfl ⟨by decide, by decide⟩
  exact ⟨x86, trace, w, w', hevents, hlanded, hobserve⟩

end AirTraffic.Server
