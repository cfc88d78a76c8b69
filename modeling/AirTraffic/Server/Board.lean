/-
  Server/Board.lean --- the game without its files and its wire.

  WHAT THIS FILE IS FOR.  A board is what the players see of a world: the planes,
  the time, the counters and who was shown what.  While the padding of new planes
  is zero, the planes file holds the fleet of the board, and a world takes exactly
  the steps of its board (`Step.board`, `World.Clean.simulates`).  Boards are
  computed, so a run of the system can be had from its requests alone
  (`exists_run`).
-/
import AirTraffic.Server.World

set_option autoImplicit false

namespace AirTraffic.Server

open AirTraffic.Foundation AirTraffic.Storage AirTraffic.Atcd AirTraffic.Protocol

/-- What the players see of a world. -/
structure Board where
  planes : List AtcPlane
  clock : Int64
  counters : Nat → Counters
  seen : List (Nat × AtcPlane)

/-- The board before the first request. -/
def Board.initial (clock : Int64) : Board where
  planes := []
  clock := clock
  counters := fun _ => {}
  seen := []

/-- The board of a world. -/
def World.board (w : World) : Board where
  planes := w.planes
  clock := w.clock
  counters := w.counters
  seen := w.seen

/-- A command carries a plane some poll returned. -/
def Board.Offers (b : Board) (e : Event) : Prop :=
  match e.action with
  | .command _ plane => plane ∈ b.seen.map Prod.snd
  | _ => True

instance (b : Board) (e : Event) : Decidable (b.Offers e) :=
  match h : e.action with
  | .command _ plane =>
      decidable_of_iff (plane ∈ b.seen.map Prod.snd) (by simp only [Board.Offers, h])
  | .create => isTrue (by simp only [Board.Offers, h])
  | .poll => isTrue (by simp only [Board.Offers, h])

/-- The padding of a new plane does not run on behind its id. -/
def Board.PadsClean (b : Board) (e : Event) : Prop :=
  e.action = .create → (b.counters e.client).planesCount ≠ Int32.ofNat maxPlanes →
    e.moment.chance.pad.head = 0

instance (b : Board) (e : Event) : Decidable (b.PadsClean e) :=
  inferInstanceAs (Decidable (_ → _ → _))

/-- The padding of a new plane does not run on behind its id. -/
def CleanPadding (w : World) (e : Event) : Prop := w.board.PadsClean e

section Board

variable [Platform]

/-- The planes a poll returns. -/
def Board.answer (b : Board) (now : Int64) : List AtcPlane :=
  (aloft now b.planes).take maxPlanes

/-- The planes after an event. -/
def Board.planesAfter (b : Board) (e : Event) : List AtcPlane :=
  match e.action with
  | .create => createdFleet e.moment.chance e.moment.now (b.counters e.client) b.planes
  | .poll => b.planes.map (polled e.moment.now)
  | .command cmd plane => commandedFleet cmd.code (overWire plane) e.moment.now b.planes

/-- The counters of the process that serves an event, after it. -/
def Board.countersAfter (b : Board) (e : Event) : Counters :=
  match e.action with
  | .poll =>
      { planesCount := Int32.ofNat (b.answer e.moment.now).length
        crashedCount := statusCount crashed b.planes
        landedCount := statusCount landed b.planes }
  | _ => b.counters e.client

/-- The planes an event shows to its client. -/
def Board.shown (b : Board) (e : Event) : List (Nat × AtcPlane) :=
  match e.action with
  | .poll => (b.answer e.moment.now).map fun plane => (e.client, overWire plane)
  | _ => []

/-- One request on a board. -/
def Board.step (b : Board) (e : Event) : Option Board :=
  if b.clock ≤ e.moment.now ∧ b.Offers e ∧ b.PadsClean e then
    some
      { planes := b.planesAfter e
        clock := e.moment.now
        counters := Function.update b.counters e.client (b.countersAfter e)
        seen := b.seen ++ b.shown e }
  else none

/-- The steps in which the padding of new planes is zero. -/
def CleanStep : World → Event → World → Prop := Guarded Step CleanPadding

/-- A world that clean steps lead to: its file holds its fleet. -/
structure World.Clean (w : World) : Prop extends w.Inv where
  holds : Holds w.disk.file w.planes

omit [Platform] in
theorem planes_of_holds {w : World} {file : Bytes} {fleet : List AtcPlane}
    (hdisk : w.disk = Disk.sound file) (holds : Holds file fleet) :
    Holds w.disk.file w.planes ∧ w.planes = fleet := by
  obtain ⟨_, _, hplanes⟩ := planes_of_lists hdisk holds.lists
  refine ⟨?_, hplanes⟩
  rw [hplanes, hdisk]
  exact holds

/-- What a clean step leaves: the fleet, the counters and the planes shown. -/
theorem Step.clean {w w' : World} {e : Event} (clean : w.Clean) (step : Step w e w')
    (hpad : CleanPadding w e) :
    Holds w'.disk.file w'.planes ∧ w'.planes = w.board.planesAfter e ∧
      w'.counters = Function.update w.counters e.client (w.board.countersAfter e) ∧
      w'.seen = w.seen ++ w.board.shown e := by
  obtain ⟨⟨_, hoffers⟩, res, worker, hserve, hw'⟩ := step.cases
  have hdisk := Disk.eq_sound clean.sound
  have hdisk' : w'.disk = worker.disk := by rw [hw']
  have hcounters : w'.counters = Function.update w.counters e.client worker.counters := by
    rw [hw']
  have hseen : w'.seen = w.seen ++ obtained e res := by rw [hw']
  clear hw' step
  obtain ⟨client, moment, action⟩ := e
  cases action with
  | create =>
      have hreq : reqOverWire (Action.create).req = (Action.create).req := rfl
      have hroom : (w.counters client).planesCount ≠ Int32.ofNat maxPlanes →
          moment.chance.pad.head = 0 := hpad rfl
      obtain ⟨file', hcreate, holds'⟩ := createPlane_holds clean.holds hroom moment.now
      rw [hreq, Action.req, serve_createPlane, hdisk, hcreate] at hserve
      obtain ⟨rfl, rfl⟩ := Prod.mk.inj (Option.some.inj hserve)
      obtain ⟨hheld, hplanes⟩ := planes_of_holds hdisk' holds'
      exact ⟨hheld, hplanes, hcounters, hseen⟩
  | poll =>
      have hreq : reqOverWire (Action.poll).req = (Action.poll).req := rfl
      obtain ⟨file', holds', hpoll⟩ := getAirplanes_holds clean.holds moment.now
        (w.counters client)
      rw [hreq, Action.req, serve_getPlanes, hdisk, hpoll, Option.map_some] at hserve
      obtain ⟨rfl, rfl⟩ := Prod.mk.inj (Option.some.inj hserve)
      obtain ⟨hheld, hplanes⟩ := planes_of_holds hdisk' holds'
      unfold obtained at hseen
      dsimp only at hseen
      rw [resPlanes_planesRes rfl (List.length_take_le _ _)] at hseen
      exact ⟨hheld, hplanes, hcounters, hseen⟩
  | command cmd plane =>
      obtain ⟨copy, hmem, hcopy⟩ := List.mem_map.mp hoffers
      have hnamed : (overWire plane).Named :=
        overWire_named (hcopy ▸ (clean.seen copy hmem).named.free)
      obtain ⟨file', hset, holds'⟩ := set_holds clean.holds hnamed cmd.code moment.now
      rw [reqOverWire_command, serve_command (AtcReqType.command_ofCommand cmd), hdisk,
        hset] at hserve
      obtain ⟨rfl, rfl⟩ := Prod.mk.inj (Option.some.inj hserve)
      obtain ⟨hheld, hplanes⟩ := planes_of_holds hdisk' holds'
      exact ⟨hheld, hplanes, hcounters, hseen⟩

/-- **A clean step of a world is a step of its board.** -/
theorem Step.board {w w' : World} {e : Event} (clean : w.Clean) (step : CleanStep w e w') :
    w.board.step e = some w'.board := by
  obtain ⟨⟨hclock, hoffers⟩, _, _, _, hw'⟩ := step.1.cases
  obtain ⟨_, hplanes, hcounters, hseen⟩ := step.1.clean clean step.2
  have hnow : w'.clock = e.moment.now := by rw [hw']
  rw [Board.step, if_pos ⟨hclock, hoffers, step.2⟩, ← hplanes, ← hnow]
  simp only [World.board, hcounters, hseen]

theorem World.Clean.step {w w' : World} {e : Event} (clean : w.Clean)
    (step : CleanStep w e w') : w'.Clean where
  toInv := clean.toInv.step step.1
  holds := (step.1.clean clean step.2).1

/-- **A step of its board is a step of the world.** -/
theorem World.Clean.simulates {w : World} (clean : w.Clean) {e : Event} {b : Board}
    (h : w.board.step e = some b) : ∃ w', CleanStep w e w' ∧ w'.board = b := by
  have hguard : w.board.clock ≤ e.moment.now ∧ w.board.Offers e ∧ w.board.PadsClean e := by
    by_contra hnot
    rw [Board.step, if_neg hnot] at h
    exact absurd h (by simp)
  obtain ⟨w', step⟩ := clean.serves hguard.1 hguard.2.1
  have hclean : CleanStep w e w' := ⟨step, hguard.2.2⟩
  exact ⟨w', hclean, Option.some.inj ((Step.board clean hclean).symm.trans h)⟩

theorem clean_initial (clock : Int64) : (World.initial clock).Clean where
  toInv := inv_initial clock
  holds := by rw [planes_initial]; exact holds_nil

/-! ## Runs -/

/-- The board that requests lead to, if each of them passes a check. -/
def Board.play (check : Board → Event → Bool) : Board → List Event → Option Board
  | b, [] => some b
  | b, e :: rest => if check b e then (b.step e).bind fun b' => b'.play check rest else none

/-- What can be played on the board of a world can be run. -/
theorem World.Clean.play {check : Board → Event → Bool} {guard : World → Event → Prop}
    (hcheck : ∀ w e, check w.board e = true → guard w e) {es : List Event} :
    ∀ {w : World} {b : Board}, w.Clean → w.board.play check es = some b →
      ∃ trace w', Run (Guarded CleanStep guard) w trace w' ∧ w'.Clean ∧ w'.board = b ∧
        trace.map Prod.fst = es := by
  induction es with
  | nil =>
      intro w b clean h
      exact ⟨[], w, .nil w, clean, Option.some.inj h, rfl⟩
  | cons e rest ih =>
      intro w b clean h
      unfold Board.play at h
      split at h
      · rename_i hpasses
        obtain ⟨mid, hstep, hrest⟩ := Option.bind_eq_some_iff.mp h
        obtain ⟨next, step, rfl⟩ := clean.simulates hstep
        obtain ⟨trace, w', run, clean', hboard, hevents⟩ := ih (clean.step step) hrest
        refine ⟨(e, next) :: trace, w', .cons ⟨step, hcheck w e hpasses⟩ run, clean', hboard, ?_⟩
        rw [List.map_cons, hevents]
      · exact absurd h (by simp)

/-- **Runs from requests.**  Requests that can be played on the board of a world
lead from it to a world with the board they lead to. -/
theorem World.Clean.run {check : Board → Event → Bool} {guard : World → Event → Prop}
    (hcheck : ∀ w e, check w.board e = true → guard w e) {w : World} (clean : w.Clean)
    {es : List Event} {good : Board → Bool} (h : (w.board.play check es).any good = true) :
    ∃ trace w', Run (Guarded CleanStep guard) w trace w' ∧ w'.Clean ∧ good w'.board = true ∧
      trace.map Prod.fst = es := by
  obtain ⟨b, hplay, hgood⟩ := (Option.any_eq_true _ _).mp h
  obtain ⟨trace, w', run, clean', rfl, hevents⟩ := clean.play hcheck hplay
  exact ⟨trace, w', run, clean', hgood, hevents⟩

omit [Platform] in
theorem board_initial (start : Int64) : (World.initial start).board = Board.initial start := by
  rw [World.board, planes_initial]
  rfl

/-- The same from the empty store. -/
theorem exists_run {check : Board → Event → Bool} {guard : World → Event → Prop}
    (hcheck : ∀ w e, check w.board e = true → guard w e) {start : Int64} {es : List Event}
    {good : Board → Bool} (h : ((Board.initial start).play check es).any good = true) :
    ∃ trace w, Run (Guarded CleanStep guard) (World.initial start) trace w ∧ w.Clean ∧
      good w.board = true ∧ trace.map Prod.fst = es := by
  rw [← board_initial] at h
  exact (clean_initial start).run hcheck h

end Board

end AirTraffic.Server
