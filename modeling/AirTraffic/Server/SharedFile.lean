/-
  Server/SharedFile.lean --- runs of the workers on one planes file.

  WHAT THIS FILE IS FOR.  What the steps of `RowGame.lean` keep, every run of the
  workers keeps, whatever the order of their system calls: the responses and the file
  are those of the game of rows (`workers_play_rows`), the file stays sound
  (`shared_file_sound`), and a plane that no client stores again is settled by one
  poll at most (`spared_row_settles_once`).
-/
import AirTraffic.Atcd.Scan
import AirTraffic.Server.Scene

set_option autoImplicit false

namespace AirTraffic.Server

open AirTraffic.Foundation AirTraffic.Storage AirTraffic.Atcd AirTraffic.Protocol

/-! ## Two workers at once -/

/-- The draws of a plane with an id of its own. -/
def laterChance : Chance := { Chance.zero with rand := fun _ => 1 }

/-- Requests that store no plane with the id of the one that comes down. -/
def SparesFalling (request : RowEvent) : Prop := ¬ request.Touches falling.id

theorem inFile_twoPlanes [Platform] : ∀ plane ∈ [cruising, falling], InFile plane := by
  intro plane hmem
  have named := holds_twoPlanes.named plane hmem
  rcases List.mem_pair.mp hmem with rfl | rfl
  · exact ⟨named, Or.inr rfl, fun _ =>
      { heading := by decide, elevation := by decide, speed := by decide, x := by decide
        y := by decide, z := by decide, steady := Platform.single.round_intCast (by decide) }⟩
  · exact ⟨named, Or.inr rfl, fun _ =>
      { heading := by decide, elevation := by decide, speed := by decide, x := by decide
        y := by decide, z := by decide, steady := Platform.single.round_intCast (by decide) }⟩

/-- Worker 0 polls.  In the middle of that worker 1 comes to make a plane, and has to
wait; worker 0 brings down the plane that falls, and loses its lock by that.  Worker 1
stores its plane, which is the last one of the poll then, and gives a command to a plane
that the poll has returned. -/
theorem exists_twoWorkers : ∃ (_ : Platform) (trace : List ((Nat × Deed) × Workers))
    (w : Workers) (faster : AtcPlane),
    Run (SharedStep SparesFalling) (Workers.initial twoPlanes) trace w ∧ w.Quiet ∧
      w.seen = [(0, overWire (advance cruising 10)),
        (0, overWire (advance (newPlane laterChance 10) 10))] ∧
      Holds w.store.file [faster, settle falling 10, newPlane laterChance 10] ∧
      (∀ plane ∈ [cruising, falling], InFile plane) ∧ ComesDown 10 falling := by
  let _ : Platform := x86
  have hup : StaysUp 10 cruising := by decide +kernel
  have hdown : ComesDown 10 falling := by decide +kernel
  have hnew : StaysUp 10 (newPlane laterChance 10) := by decide +kernel
  obtain ⟨faster, hfaster⟩ : ∃ faster, commanded AtcCommand.speedUp.code
      (overWire (overWire (advance cruising 10))) 10 = some faster :=
    Option.isSome_iff_exists.mp (by decide +kernel)
  have hlate : SparesFalling (.create laterChance 10) := by
    unfold SparesFalling RowEvent.Touches
    decide +kernel
  have hcommand : SparesFalling (.command .speedUp (overWire (advance cruising 10)) 10) := by
    unfold SparesFalling RowEvent.Touches
    decide +kernel
  have hsettled : put AtcPlane.id (settle falling 10) [cruising, falling] =
      [cruising, settle falling 10] := by
    rw [put_cons_of_ne _ (by decide)]
    exact congrArg (cruising :: ·) (put_cons_of_eq _ rfl)
  have hmade : put AtcPlane.id (newPlane laterChance 10) [cruising, settle falling 10] =
      [cruising, settle falling 10, newPlane laterChance 10] :=
    put_of_not_mem (by rw [List.map_cons, List.map_singleton, settle_id]; decide +kernel)
  have hchanged : put AtcPlane.id faster
        [cruising, settle falling 10, newPlane laterChance 10] =
      [faster, settle falling 10, newPlane laterChance 10] :=
    put_cons_of_eq _ (commanded_id_pad hfaster).1.symm
  have hstored := inFile_twoPlanes
  have hsettledNamed := (inFile_settle (hstored falling (by simp)) 10).named
  have hcopyNamed : (overWire (advance cruising 10)).Named :=
    overWire_named (hstored cruising (by simp)).named.free
  have hfasterNamed : faster.Named :=
    hcopyNamed.congr (commanded_id_pad hfaster).1 (commanded_id_pad hfaster).2
  have s := @staged_initial _ SparesFalling 0 1 _ _ holds_twoPlanes (by decide)
  have s := (s.poll 10 rfl).lock .get rfl nofun nofun
  have s := s.read rfl rfl rfl rfl
  have s := s.swap.create 10 rfl hlate rfl (by decide)
  have s := (s.block (.set false) rfl rfl rfl trivial nofun).swap
  have s := (s.take rfl rfl hup (by decide)).lock .get rfl nofun nofun
  have s := (s.read rfl rfl rfl (AtcPlane.length_bytes _)).settle rfl rfl hdown
  have s := s.lock (.set true) rfl nofun nofun
  obtain ⟨_, s⟩ := s.write hsettledNamed hsettled rfl rfl
  have s := s.swap.wake (.set false) rfl nofun
  obtain ⟨_, s⟩ := s.write (named_newPlane rfl 10) hmade rfl rfl
  have s := s.swap.lock .get rfl nofun nofun
  have s := (s.read rfl rfl rfl (AtcPlane.length_bytes _)).take rfl rfl hnew
    (show 1 < maxPlanes by decide)
  have s := (s.lock .get rfl nofun nofun).readEnd rfl (show 3 ≤ 3 by decide)
  have s := (s.unlock rfl).answer rfl rfl
  have s := s.swap.command hcommand List.mem_cons_self hfaster rfl
  have s := s.lock (.set false) rfl nofun nofun
  obtain ⟨_, s⟩ := s.write hfasterNamed hchanged rfl rfl
  obtain ⟨trace, w, run, quiet, hseen, holds⟩ := s.exists_quiet nofun nofun
  exact ⟨x86, trace, w, faster, run, quiet, hseen, holds, hstored, hdown⟩

/-! ## Runs -/

theorem SharedStep.any [Platform] {allowed : RowEvent → Prop} {w w' : Workers}
    {event : Nat × Deed} (step : SharedStep allowed w event w') :
    SharedStep (fun _ => True) w event w' :=
  ⟨step.1, step.2.1, step.2.2.1, fun _ _ => trivial⟩

section Runs

variable [Platform] {allowed : RowEvent → Prop} {file : Bytes} {fleet : List AtcPlane} {w : Workers}
  {g : RowGame} {trace : List ((Nat × Deed) × Workers)}

theorem plays_initial (holds : Holds file fleet) :
    PlaysRows allowed file (Workers.initial file) (RowGame.initial fleet) where
  store := ⟨file, storeInv_initial planesDb file, holds⟩
  seen := rfl
  doing := fun _ => trivial

/-- While nobody is in the middle of a `sto_set`, the file holds the planes of the
game. -/
theorem PlaysRows.holds (plays : PlaysRows allowed file w g) (quiet : w.Quiet) :
    Holds w.store.file g.planes ∧ w.planes = g.planes := by
  obtain ⟨base, inv, holds⟩ := plays.store
  rw [← inv.settled quiet] at holds
  exact ⟨holds, holds.lists.planes⟩

theorem plays_of_run (holds : Holds file fleet) (stored : ∀ plane ∈ fleet, InFile plane)
    (run : Run (SharedStep allowed) (Workers.initial file) trace w) :
    ∃ g, Reachable (AllowedRowStep allowed) (RowGame.initial fleet) g ∧
      PlaysRows allowed file w g ∧ g.Inv := by
  refine run.refine (fun w g => PlaysRows allowed file w g ∧ g.Inv) ?_
    ⟨plays_initial holds, rowInv_initial holds.distinct stored⟩
  rintro w event w' g ⟨plays, inv⟩ step
  obtain ⟨g', plays', hquiet | ⟨e, hstep⟩⟩ := plays.step inv step
  · exact ⟨g', ⟨plays', hquiet ▸ inv⟩, Or.inl hquiet⟩
  · exact ⟨g', ⟨plays', inv.step hstep.1⟩, Or.inr ⟨e, hstep⟩⟩

/-- **The workers play the game of rows.**  In any order of the system calls of the
workers, the responses and the file, while nobody is in the middle of a `sto_set`,
are those of a game in which each row is one step: a poll settles a plane that is
stored at that time, and takes one that is stored at that time. -/
theorem workers_play_rows (holds : Holds file fleet) (stored : ∀ plane ∈ fleet, InFile plane)
    (run : Run (SharedStep fun _ => True) (Workers.initial file) trace w) :
    ∃ g, Reachable RowStep (RowGame.initial fleet) g ∧ w.seen = g.seen ∧
      (w.Quiet → Holds w.store.file g.planes) := by
  obtain ⟨g, ⟨rows, rowRun⟩, plays, _⟩ := plays_of_run holds stored run
  exact ⟨g, ⟨rows, rowRun.mono fun _ _ _ step => step.1⟩, plays.seen,
    fun quiet => (plays.holds quiet).1⟩

omit [Platform] in
theorem workers_play_rows_twoWorkers :
    ∃ (_ : Platform) (trace : List ((Nat × Deed) × Workers)) (w : Workers) (faster : AtcPlane)
      (g : RowGame), Run (SharedStep fun _ => True) (Workers.initial twoPlanes) trace w ∧
        w.seen = [(0, overWire (advance cruising 10)),
          (0, overWire (advance (newPlane laterChance 10) 10))] ∧
        Reachable RowStep (RowGame.initial [cruising, falling]) g ∧ w.seen = g.seen ∧
        g.planes = [faster, settle falling 10, newPlane laterChance 10] ∧
        (w.Quiet → Holds w.store.file g.planes) := by
  obtain ⟨platform, trace, w, faster, run, quiet, hseen, holds, stored, _⟩ := exists_twoWorkers
  have anyRun := run.mono fun _ _ _ => SharedStep.any
  obtain ⟨g, hg, hsame, hfile⟩ := workers_play_rows holds_twoPlanes stored anyRun
  have hplanes : g.planes = _ := (hfile quiet).lists.planes.symm.trans holds.lists.planes
  exact ⟨platform, trace, w, faster, g, anyRun, hseen, hg, hsame, hplanes, hfile⟩

/-- **The shared file stays sound.**  In any order of the system calls of the workers
the file holds each plane once, under its id; no plane is lost or changes its place;
each is down, or flies and is airworthy; and so are all planes that clients get. -/
theorem shared_file_sound (holds : Holds file fleet)
    (stored : ∀ plane ∈ fleet, InFile plane)
    (run : Run (SharedStep fun _ => True) (Workers.initial file) trace w) :
    (w.Quiet → Holds w.store.file w.planes ∧
        fleet.map AtcPlane.id <+: w.planes.map AtcPlane.id ∧
        ∀ plane ∈ w.planes, InFile plane) ∧
      ∀ copy ∈ w.seen, Obtained copy.2 := by
  obtain ⟨g, ⟨rows, rowRun⟩, plays, inv⟩ := plays_of_run holds stored run
  refine ⟨fun quiet => ?_, plays.seen ▸ inv.seen⟩
  obtain ⟨hfile, hplanes⟩ := plays.holds quiet
  rw [hplanes]
  have hkept := rowRun.invariant
    (fun g => fleet.map AtcPlane.id <+: g.planes.map AtcPlane.id)
    (fun _ _ _ hbefore step => hbefore.trans step.1.ids_kept) (List.prefix_refl _)
  exact ⟨hfile, hkept, inv.planes⟩

omit [Platform] in
theorem shared_file_sound_twoWorkers :
    ∃ (_ : Platform) (w : Workers) (faster : AtcPlane), w.Quiet ∧
      w.planes = [faster, settle falling 10, newPlane laterChance 10] ∧ w.seen.length = 2 ∧
      (w.Quiet → Holds w.store.file w.planes ∧
          [cruising, falling].map AtcPlane.id <+: w.planes.map AtcPlane.id ∧
          ∀ plane ∈ w.planes, InFile plane) ∧
      ∀ copy ∈ w.seen, Obtained copy.2 := by
  obtain ⟨platform, trace, w, faster, run, quiet, hseen, holds, stored, _⟩ := exists_twoWorkers
  exact ⟨platform, w, faster, quiet, holds.lists.planes, hseen ▸ rfl,
    shared_file_sound holds_twoPlanes stored (run.mono fun _ _ _ => SharedStep.any)⟩

/-- **A row that no client stores is settled once.**  Whatever the polls do to it, and
whatever else goes on, it is the plane it was, or that plane as one poll has settled
it; and clients get it as it was, where it is in the air. -/
theorem spared_row_settles_once (holds : Holds file fleet)
    (stored : ∀ plane ∈ fleet, InFile plane) {row : AtcPlane} (hrow : row ∈ fleet)
    (run : Run (SharedStep fun request => ¬ request.Touches row.id) (Workers.initial file)
      trace w) :
    (w.Quiet → ∃ plane ∈ w.planes, plane.id = row.id ∧ SettledOnce row plane ∧
        ∀ other ∈ w.planes, other.id = row.id → other = plane) ∧
      ∀ copy ∈ w.seen, copy.2.id = row.id →
        ∃ plane, TakenFrom row plane ∧ copy.2 = overWire plane := by
  obtain ⟨g, ⟨rows, rowRun⟩, plays, inv⟩ := plays_of_run holds stored run
  have spared : Spared row g := by
    refine (rowRun.invariant (fun g => g.Inv ∧ Spared row g) ?_
      ⟨rowInv_initial holds.distinct stored, spared_initial holds.distinct hrow⟩).2
    rintro g e g' ⟨inv, spared⟩ ⟨step, hallowed⟩
    refine ⟨inv.step step, spared.step inv step fun htouches => ?_⟩
    cases e with
    | create | command => exact hallowed trivial htouches
    | poll | settle | take | answer => exact htouches
  refine ⟨fun quiet => ?_, plays.seen ▸ spared.seen⟩
  rw [(plays.holds quiet).2]
  obtain ⟨plane, hmem, hid⟩ := List.mem_map.mp spared.listed
  exact ⟨plane, hmem, hid, spared.planes plane hmem hid,
    fun other hother hsame =>
      List.inj_on_of_nodup_map inv.distinct hother hmem (hsame.trans hid.symm)⟩

end Runs

theorem spared_row_settles_once_twoWorkers :
    ∃ (_ : Platform) (w : Workers) (faster : AtcPlane), w.Quiet ∧ ComesDown 10 falling ∧
      w.planes = [faster, settle falling 10, newPlane laterChance 10] ∧
      (w.Quiet → ∃ plane ∈ w.planes, plane.id = falling.id ∧ SettledOnce falling plane ∧
        ∀ other ∈ w.planes, other.id = falling.id → other = plane) ∧
      ∀ copy ∈ w.seen, copy.2.id = falling.id →
        ∃ plane, TakenFrom falling plane ∧ copy.2 = overWire plane := by
  obtain ⟨platform, trace, w, faster, run, quiet, _, holds, stored, hdown⟩ := exists_twoWorkers
  exact ⟨platform, w, faster, quiet, hdown, holds.lists.planes,
    spared_row_settles_once holds_twoPlanes stored (List.mem_pair.mpr (Or.inr rfl)) run⟩

end AirTraffic.Server
