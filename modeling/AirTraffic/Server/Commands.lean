/-
  Server/Commands.lean --- commands on copies that may be stale.

  WHAT THIS FILE IS FOR.  A command carries the whole plane as some earlier poll
  returned it, and `set` stores the whole of it with the command applied and the
  time of the command.  What the row holds by then is never looked at.  So a
  plane that came down flies again when a command on an old copy arrives
  (`down_rows_stay_down_iff` says exactly when that does not happen).
-/
import AirTraffic.Server.Board

set_option autoImplicit false

namespace AirTraffic.Server

open AirTraffic.Foundation AirTraffic.Storage AirTraffic.Atcd AirTraffic.Protocol

section Commands

variable [Platform]

/-! ## What a command does -/

/-- A command stores the copy it carries, with the command applied. -/
theorem Step.command {w w' : World} {e : Event} {cmd : AtcCommand} {copy : AtcPlane}
    (inv : w.Inv) (step : Step w e w') (haction : e.action = .command cmd copy) :
    Obtained copy ∧
      w'.planes =
        match applyCommand cmd.code { overWire copy with time := e.moment.now } with
        | none => w.planes
        | some stored => put AtcPlane.id stored w.planes := by
  have houtcome := (step.served inv).outcome
  have hoffers := step.cases.1.2
  simp only [World.Offers, haction] at hoffers
  obtain ⟨pair, hseen, hcopy⟩ := List.mem_map.mp hoffers
  have hobtained : Obtained copy := hcopy ▸ inv.seen pair hseen
  refine ⟨hobtained, ?_⟩
  simp only [Outcome, haction, commandedFleet, commanded_eq hobtained] at houtcome
  exact houtcome

omit [Platform] in
/-- Whether a command applies is the same for a plane and for its copies. -/
theorem isSome_applyCommand_copy (cmd : Int32) (copy : AtcPlane) (now : Int64) :
    (applyCommand cmd { overWire copy with time := now }).isSome =
      (applyCommand cmd copy).isSome := by
  have htrim := applyCommand_trim copy { overWire copy with time := now } rfl cmd
  have := congrArg Option.isSome htrim
  rwa [Option.isSome_map, Option.isSome_map] at this

/-- The plane in the first row with an id, which is the row `set` overwrites. -/
def World.rowFor (w : World) (id : List.Vector UInt8 6) : Option AtcPlane :=
  w.planes.find? fun row => row.id = id

/-! ## Planes that are down -/

/-- Commands carry what the same client obtained. -/
def Board.OwnCopy (b : Board) (e : Event) : Prop :=
  match e.action with
  | .command _ plane => (e.client, plane) ∈ b.seen
  | _ => True

/-- New planes have new ids. -/
def Board.FreshId (b : Board) (e : Event) : Prop :=
  match e.action with
  | .create => ∀ row ∈ b.planes, row.id ≠ (newPlane e.moment.chance e.moment.now).id
  | _ => True

omit [Platform] in
instance (b : Board) (e : Event) : Decidable (b.OwnCopy e) :=
  match h : e.action with
  | .command _ plane =>
      decidable_of_iff ((e.client, plane) ∈ b.seen) (by simp only [Board.OwnCopy, h])
  | .create => isTrue (by simp only [Board.OwnCopy, h])
  | .poll => isTrue (by simp only [Board.OwnCopy, h])

omit [Platform] in
instance (b : Board) (e : Event) : Decidable (b.FreshId e) :=
  match h : e.action with
  | .create =>
      decidable_of_iff
        (∀ row ∈ b.planes, row.id ≠ (newPlane e.moment.chance e.moment.now).id)
        (by simp only [Board.FreshId, h])
  | .poll => isTrue (by simp only [Board.FreshId, h])
  | .command _ _ => isTrue (by simp only [Board.FreshId, h])

/-- The client commands its own copies and makes planes with new ids. -/
def Plays (w : World) (e : Event) : Prop := w.board.OwnCopy e ∧ w.board.FreshId e

/-- The steps of clients that command their own copies, with no id used twice. -/
def PlayStep : World → Event → World → Prop := Guarded Step Plays

/-- The rows that hold a plane that is down in one world hold it, down, in the
other. -/
def StayDown (w w' : World) : Prop :=
  ∀ (k : Nat) (plane : AtcPlane), w.planes[k]? = some plane → plane.Down →
    ∃ later, w'.planes[k]? = some later ∧ later.id = plane.id ∧ later.Down

/-- A command that applies to the copy it carries finds the row of that plane
still flying. -/
def OnFlyingRow (w : World) (e : Event) : Prop :=
  match e.action with
  | .command cmd copy =>
      (applyCommand cmd.code copy).isSome = true →
        ∀ row, w.rowFor copy.id = some row → row.status = flying
  | _ => True

omit [Platform] in
theorem StayDown.trans {u v w : World} (first : StayDown u v) (second : StayDown v w) :
    StayDown u w := by
  intro k plane hplane hdown
  obtain ⟨later, hlater, hid, hdown'⟩ := first k plane hplane hdown
  obtain ⟨last, hlast, hid', hdown''⟩ := second k later hlater hdown'
  exact ⟨last, hlast, hid'.trans hid, hdown''⟩

/-- A poll stores planes that are down, so no row takes off. -/
theorem stayDown_of_settles {now : Int64} {fleet fleet' : List AtcPlane}
    (h : Settles now fleet fleet') {k : Nat} {plane : AtcPlane}
    (hplane : fleet[k]? = some plane) (hdown : plane.Down) :
    ∃ later, fleet'[k]? = some later ∧ later.id = plane.id ∧ later.Down := by
  induction h with
  | refl => exact ⟨plane, hplane, rfl, hdown⟩
  | tail _ step ih =>
      obtain ⟨later, hlater, hid, hdown'⟩ := ih
      obtain ⟨other, _, _, slot, stores⟩ := step
      rcases stores.getElem? hlater with hsame | ⟨hstored, _, hrow⟩
      · exact ⟨later, hsame, hid, hdown'⟩
      · exact ⟨_, hstored, hrow.symm.trans hid, down_settle other now⟩

/-- One step keeps every plane down exactly if its command finds a flying row. -/
theorem stayDown_iff {w w' : World} {e : Event} (inv : w.Inv) (step : PlayStep w e w') :
    StayDown w w' ↔ OnFlyingRow w e := by
  obtain ⟨step, _, fresh⟩ := step
  have houtcome := (step.served inv).outcome
  cases haction : e.action with
  | create =>
      simp only [OnFlyingRow, haction, iff_true]
      simp only [Outcome, haction] at houtcome
      simp only [Board.FreshId, haction] at fresh
      intro k plane hplane hdown
      refine ⟨plane, ?_, rfl, hdown⟩
      split at houtcome
      · rw [houtcome]
        exact hplane
      · rcases houtcome.getElem? hplane with hsame | ⟨_, _, hid⟩
        · exact hsame
        · exact absurd hid (fresh plane (List.mem_of_getElem? hplane))
  | poll =>
      simp only [OnFlyingRow, haction, iff_true]
      simp only [Outcome, haction] at houtcome
      intro k plane hplane hdown
      exact stayDown_of_settles houtcome hplane hdown
  | command cmd copy =>
      obtain ⟨hobtained, hplanes⟩ := step.command inv haction
      have happlies := isSome_applyCommand_copy cmd.code copy e.moment.now
      simp only [OnFlyingRow, haction, ← happlies]
      cases hstored : applyCommand cmd.code { overWire copy with time := e.moment.now } with
      | none =>
          rw [hstored] at hplanes
          simp only [Option.isSome_none, Bool.false_eq_true, false_imp_iff, iff_true]
          intro k plane hplane hdown
          exact ⟨plane, by rw [hplanes]; exact hplane, rfl, hdown⟩
      | some stored =>
          have hput : w'.planes = put AtcPlane.id stored w.planes := by rw [hplanes, hstored]
          obtain ⟨hflying, _, hid⟩ := stored_of_obtained hobtained hstored
          have stores := put_stores stored w.planes
          rw [← hput, hid] at stores
          simp only [Option.isSome_some, true_imp_iff]
          constructor
          · -- a row that is down would have been overwritten by a flying plane
            intro hstay row hrow
            refine (inv.status row (List.mem_of_find?_eq_some hrow)).resolve_left fun hdown => ?_
            obtain ⟨k, hk⟩ := stores.slot_at hrow
            obtain ⟨later, hlater, _, hlaterDown⟩ := hstay k row hk.1 hdown
            rw [hk.2] at hlater
            exact (Option.some.inj hlater ▸ hlaterDown).not_flying hflying
          · intro hrows k plane hplane hdown
            refine ⟨plane, (stores.getElem? hplane).resolve_right ?_, rfl, hdown⟩
            rintro ⟨_, hslot, _⟩
            exact hdown.not_flying (hrows plane hslot)

end Commands

/-! ## A plane that takes off again -/

/-- Whether `Plays` holds, on the board. -/
def checkPlays (b : Board) (e : Event) : Bool := decide (b.OwnCopy e ∧ b.FreshId e)

theorem plays_of_check (w : World) (e : Event) (h : checkPlays w.board e = true) :
    Plays w e := by
  have hboth : w.board.OwnCopy e ∧ w.board.FreshId e := of_decide_eq_true h
  exact hboth

/-- Client 0 makes a plane, sends it down and polls it; client 1 polls it as it
lands. -/
def landing : List Event :=
  [request 0 0 .create, request 0 0 .poll, request 0 0 (.command .descend firstPlane),
    request 0 0 .poll, request 1 1000 .poll]

/-- Client 0 commands the plane as it last saw it. -/
def lateClimb : Event :=
  request 0 1000 (.command .climb { firstPlane with elevation := -10 })

/-- The plane lands, and is flying after the command. -/
theorem play_lateClimb :
    ((@Board.play x86 checkPlays (Board.initial 0) landing).any fun b =>
      b.planes.map AtcPlane.status == [landed] &&
        (@Board.play x86 checkPlays b [lateClimb]).any fun b' =>
          b'.planes.map AtcPlane.status == [flying]) = true := by
  decide +kernel

theorem exists_lateClimb : ∃ (_ : Platform) (trace : List (Event × World)) (grounded w : World),
    Run PlayStep (World.initial 0) (trace ++ [(lateClimb, w)]) w ∧
      Run PlayStep (World.initial 0) trace grounded ∧ PlayStep grounded lateClimb w ∧
      trace.map Prod.fst = landing ∧ grounded.planes.map AtcPlane.status = [landed] ∧
      w.planes.map AtcPlane.status = [flying] := by
  let _ : Platform := x86
  obtain ⟨left, grounded, first, clean, hgood, hleft⟩ := exists_run plays_of_check play_lateClimb
  obtain ⟨hlanded, hplay⟩ := (Bool.and_eq_true _ _).mp hgood
  obtain ⟨right, w, last, _, hflying, hright⟩ := clean.run plays_of_check hplay
  have hplays : ∀ s e t, Guarded CleanStep Plays s e t → PlayStep s e t :=
    fun _ _ _ step => ⟨step.1.1, step.2⟩
  obtain ⟨step, rfl⟩ := last.step_of_single hright
  exact ⟨x86, left, grounded, w, (first.append last).mono hplays, first.mono hplays,
    hplays _ _ _ step, hleft, beq_iff_eq.mp hlanded, beq_iff_eq.mp hflying⟩


/-! ## Runs -/

/-- **When landed and crashed are terminal.**  Throughout a run no row that is
down ever flies again exactly if every command that applies finds the row of its
plane still flying. -/
theorem down_rows_stay_down_iff [Platform] {start : Int64} {trace : List (Event × World)} {w : World}
    (run : Run PlayStep (World.initial start) trace w) :
    (states (World.initial start) trace).Pairwise StayDown ↔
      Run (Guarded PlayStep OnFlyingRow) (World.initial start) trace w :=
  Run.pairwise_states_iff World.Inv StayDown OnFlyingRow
    (fun _ _ _ first second => first.trans second)
    (fun _ _ _ inv step => inv.step step.1) (fun _ _ _ inv step => stayDown_iff inv step)
    run (inv_initial start)

theorem down_rows_stay_down_iff_lateClimb :
    ∃ (_ : Platform) (trace : List (Event × World)) (w : World),
      trace.map Prod.fst = landing ++ [lateClimb] ∧
        ((states (World.initial 0) trace).Pairwise StayDown ↔
          Run (Guarded PlayStep OnFlyingRow) (World.initial 0) trace w) := by
  obtain ⟨platform, trace, _, w, run, _, _, hevents, _⟩ := exists_lateClimb
  refine ⟨platform, trace ++ [(lateClimb, w)], w, ?_, down_rows_stay_down_iff run⟩
  rw [List.map_append, hevents]
  rfl

/-- A plane that has landed flies again. -/
theorem lateClimb_takes_off :
    ∃ (_ : Platform) (trace : List (Event × World)) (w : World),
      Run PlayStep (World.initial 0) trace w ∧
        trace.map Prod.fst = landing ++ [lateClimb] ∧
        ¬ (states (World.initial 0) trace).Pairwise StayDown := by
  obtain ⟨platform, trace, grounded, w, run, first, step, hevents, hlanded, hflying⟩ :=
    exists_lateClimb
  refine ⟨platform, trace ++ [(lateClimb, w)], w, run, ?_, ?_⟩
  · rw [List.map_append, hevents]
    rfl
  · intro hpairwise
    have hstay : StayDown grounded w := Run.rel_of_pairwise first step (.nil w) hpairwise
    obtain ⟨plane, hplanes, hstatus⟩ := List.map_eq_singleton_iff.mp hlanded
    obtain ⟨later, hlater, hlaterStatus⟩ := List.map_eq_singleton_iff.mp hflying
    obtain ⟨row, hrow, _, hdown⟩ := hstay 0 plane (by rw [hplanes]; rfl) (Or.inl hstatus)
    rw [hlater] at hrow
    obtain rfl := Option.some.inj hrow
    exact hdown.not_flying hlaterStatus

end AirTraffic.Server
