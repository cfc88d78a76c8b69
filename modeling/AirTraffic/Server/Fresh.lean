/-
  Server/Fresh.lean --- commands that are lost, and commands that are not.

  WHAT THIS FILE IS FOR.  `set` stores the whole of the copy it was given, so a
  command on a copy from before another command takes the other one back.  The
  server has no means against it.  What does hold is said of copies that are
  fresh, that is, polled after the last command that was accepted for their
  plane: `fresh_commands_compose`.
-/
import AirTraffic.Server.Commands

set_option autoImplicit false

namespace AirTraffic.Server

open AirTraffic.Foundation AirTraffic.Storage AirTraffic.Atcd AirTraffic.Protocol

section Fresh

variable [Platform]

/-! ## Commands that are accepted -/

/-- The server answers 0. -/
def Accepted (w : World) (e : Event) : Prop :=
  ∃ res worker, serve e.moment (reqOverWire e.action.req)
      { counters := w.counters e.client, disk := w.disk } = some (res, worker) ∧
    res.returnCode = 0

/-- The server accepts a command unless `set` returns -1. -/
theorem accepted_iff_set {w : World} {e : Event} {cmd : AtcCommand} {copy : AtcPlane}
    (haction : e.action = .command cmd copy) :
    Accepted w e ↔ (set cmd.code (overWire copy) e.moment.now w.disk).1 ≠ -1 := by
  have hserve := serve_command (AtcReqType.command_ofCommand cmd) e.moment (overWire copy)
    { counters := w.counters e.client, disk := w.disk }
  rw [Accepted, haction, reqOverWire_command, hserve]
  constructor
  · rintro ⟨res, worker, hres, hcode⟩ hfailed
    obtain ⟨rfl, _⟩ := Prod.mk.inj (Option.some.inj hres)
    rw [ackRes_returnCode, if_pos hfailed] at hcode
    exact absurd hcode (by decide)
  · intro hset
    refine ⟨ackRes _, _, rfl, ?_⟩
    rw [ackRes_returnCode, if_neg hset]

/-- The server accepts a command on an obtained plane exactly if it applies. -/
theorem accepted_iff {w : World} {e : Event} {cmd : AtcCommand} {copy : AtcPlane}
    (inv : w.Inv) (haction : e.action = .command cmd copy) (obtained : Obtained copy) :
    Accepted w e ↔
      ∃ stored, applyCommand cmd.code { overWire copy with time := e.moment.now } =
        some stored := by
  obtain ⟨file', _, _, hfailed⟩ := set_lists inv.lists (overWire_named obtained.named.free)
    cmd.code e.moment.now
  rw [accepted_iff_set haction, Disk.eq_sound inv.sound, Ne, hfailed, commanded_eq obtained]
  exact Option.ne_none_iff_exists'

theorem accepted_of_step {w w' : World} {e : Event} {cmd : AtcCommand} {copy : AtcPlane}
    (inv : w.Inv) (step : Step w e w') (haction : e.action = .command cmd copy)
    (happlies : (applyCommand cmd.code
      { overWire copy with time := e.moment.now }).isSome = true) : Accepted w e := by
  obtain ⟨hobtained, _⟩ := step.command inv haction
  exact (accepted_iff inv haction hobtained).mpr (Option.isSome_iff_exists.mp happlies)

/-! ## The attributes of a plane -/

/-- The first row of a plane has these attributes, and no other one flies. -/
structure HasTrim (id : List.Vector UInt8 6) (trim : Trim) (w : World) : Prop where
  leads : Leads id w.planes
  row : ∃ row, w.rowFor id = some row ∧ row.trim = trim

/-- The event makes no plane with the id, and no command on it that applies. -/
def Quiet (id : List.Vector UInt8 6) (_ : World) (e : Event) : Prop :=
  match e.action with
  | .create => (newPlane e.moment.chance e.moment.now).id ≠ id
  | .poll => True
  | .command cmd plane => plane.id = id → applyCommand cmd.code plane = none

/-- The steps that leave the attributes of a plane alone. -/
def QuietStep (id : List.Vector UInt8 6) : World → Event → World → Prop :=
  Guarded Step (Quiet id)

/-- No plane with the id is made while there is one. -/
def MadeOnce (id : List.Vector UInt8 6) (w : World) (e : Event) : Prop :=
  e.action = .create → (newPlane e.moment.chance e.moment.now).id = id →
    ∀ row ∈ w.planes, row.id ≠ id

/-- The steps in which the id is not used twice. -/
def FreshStep (id : List.Vector UInt8 6) : World → Event → World → Prop :=
  Guarded Step (MadeOnce id)

omit [Platform] in
/-- A store that keeps the attributes of the first row of an id. -/
theorem hasTrim_of_stores {w w' : World} {id : List.Vector UInt8 6} {trim : Trim}
    {plane : AtcPlane} {slot : Option AtcPlane} (leads : Leads id w'.planes)
    (stores : Stores plane slot w.planes w'.planes) (h : HasTrim id trim w)
    (hsame : plane.id = id → plane.trim = trim) : HasTrim id trim w' := by
  obtain ⟨row, hrow, htrim⟩ := h.row
  refine ⟨leads, ?_⟩
  rcases stores.find? hrow with hkept | ⟨hid, hstored⟩
  · exact ⟨row, hkept, htrim⟩
  · exact ⟨plane, hstored, hsame hid⟩

/-- A poll keeps the attributes of the first row of an id. -/
theorem trim_of_settles {now : Int64} {fleet fleet' : List AtcPlane}
    (h : Settles now fleet fleet') {id : List.Vector UInt8 6} {row : AtcPlane}
    (leads : Leads id fleet) (hrow : (fleet.find? fun other => other.id = id) = some row) :
    ∃ later, (fleet'.find? fun other => other.id = id) = some later ∧
      later.trim = row.trim := by
  induction h with
  | refl => exact ⟨row, hrow, rfl⟩
  | tail before step ih =>
      obtain ⟨later, hlater, htrim⟩ := ih
      obtain ⟨plane, hmem, hdown, slot, stores⟩ := step
      rcases stores.find? hlater with hkept | ⟨hid, hstored⟩
      · exact ⟨later, hkept, htrim⟩
      · -- a plane that was flying is the first of its id
        have hfirst := (Settles.leads before leads).find? hmem hid hdown.1
        obtain rfl := Option.some.inj (hfirst.symm.trans hlater)
        exact ⟨_, hstored, htrim⟩

theorem poll_hasTrim {w w' : World} {e : Event} {id : List.Vector UInt8 6} {trim : Trim}
    (inv : w.Inv) (step : Step w e w') (haction : e.action = .poll) (h : HasTrim id trim w) :
    HasTrim id trim w' := by
  have houtcome := (step.served inv).outcome
  simp only [Outcome, haction] at houtcome
  obtain ⟨row, hrow, htrim⟩ := h.row
  obtain ⟨later, hlater, hsame⟩ := trim_of_settles houtcome h.leads hrow
  exact ⟨Settles.leads houtcome h.leads, later, hlater, hsame.trans htrim⟩

theorem QuietStep.hasTrim {w w' : World} {e : Event} {id : List.Vector UInt8 6} {trim : Trim}
    (inv : w.Inv) (step : QuietStep id w e w') (h : HasTrim id trim w) :
    HasTrim id trim w' := by
  obtain ⟨step, quiet⟩ := step
  cases haction : e.action with
  | create =>
      have houtcome := (step.served inv).outcome
      simp only [Quiet, haction] at quiet
      simp only [Outcome, haction] at houtcome
      split at houtcome
      · obtain ⟨row, hrow, htrim⟩ := h.row
        exact ⟨houtcome ▸ h.leads, row, by rw [World.rowFor, houtcome]; exact hrow, htrim⟩
      · exact hasTrim_of_stores (houtcome.leads h.leads fun hid => absurd hid quiet) houtcome h
          fun hid => absurd hid quiet
  | poll => exact poll_hasTrim inv step haction h
  | command cmd copy =>
      obtain ⟨hobtained, hplanes⟩ := step.command inv haction
      have happlies := isSome_applyCommand_copy cmd.code copy e.moment.now
      simp only [Quiet, haction] at quiet
      cases hstored : applyCommand cmd.code { overWire copy with time := e.moment.now } with
      | none =>
          have hkept : w'.planes = w.planes := by rw [hplanes, hstored]
          obtain ⟨row, hrow, htrim⟩ := h.row
          exact ⟨hkept ▸ h.leads, row, by rw [World.rowFor, hkept]; exact hrow, htrim⟩
      | some stored =>
          have hput : w'.planes = put AtcPlane.id stored w.planes := by rw [hplanes, hstored]
          obtain ⟨_, _, hid⟩ := stored_of_obtained hobtained hstored
          rw [hstored] at happlies
          have hother : stored.id ≠ id := fun hsame => by
            rw [quiet (hid.symm.trans hsame)] at happlies
            exact absurd happlies (by simp)
          have stores := put_stores stored w.planes
          rw [← hput] at stores
          exact hasTrim_of_stores (stores.leads h.leads fun hsame => absurd hsame hother)
            stores h fun hsame => absurd hsame hother

/-- Quiet runs keep the attributes of a plane. -/
theorem quietRun_hasTrim {w w' : World} {trace : List (Event × World)}
    {id : List.Vector UInt8 6} {trim : Trim} (run : Run (QuietStep id) w trace w')
    (inv : w.Inv) (h : HasTrim id trim w) : w'.Inv ∧ HasTrim id trim w' :=
  Run.invariant (fun w => w.Inv ∧ HasTrim id trim w)
    (fun _ _ _ hs step => ⟨hs.1.step step.1, step.hasTrim hs.1 hs.2⟩) run ⟨inv, h⟩

/-- While an id is not used twice a flying plane is the first of its id. -/
theorem FreshStep.leads {w w' : World} {e : Event} {id : List.Vector UInt8 6} (inv : w.Inv)
    (step : FreshStep id w e w') (leads : Leads id w.planes) : Leads id w'.planes := by
  obtain ⟨step, fresh⟩ := step
  have houtcome := (step.served inv).outcome
  cases haction : e.action with
  | create =>
      simp only [Outcome, haction] at houtcome
      split at houtcome
      · rw [houtcome]
        exact leads
      · exact houtcome.leads leads fun hid _ => fresh haction hid
  | poll =>
      simp only [Outcome, haction] at houtcome
      exact Settles.leads houtcome leads
  | command cmd copy =>
      obtain ⟨_, hplanes⟩ := step.command inv haction
      rw [hplanes]
      split
      · exact leads
      · exact leads_put _ leads

theorem leads_of_reachable {start : Int64} {w : World} {id : List.Vector UInt8 6}
    (reached : Reachable (FreshStep id) (World.initial start) w) : w.Inv ∧ Leads id w.planes :=
  reached.invariant (fun w => w.Inv ∧ Leads id w.planes)
    (fun _ _ _ hs step => ⟨hs.1.step step.1, FreshStep.leads hs.1 step hs.2⟩)
    ⟨inv_initial start, by rw [planes_initial]; exact .nil⟩

theorem freshRun_of_plays (id : List.Vector UInt8 6) {s t : World}
    {trace : List (Event × World)} (run : Run (Guarded CleanStep Plays) s trace t) :
    Run (FreshStep id) s trace t := by
  refine run.mono fun w e _ step => ⟨step.1.1, fun hcreate hid => ?_⟩
  have hfresh := step.2.2
  simp only [Board.FreshId, hcreate, hid] at hfresh
  exact hfresh

/-! ## Fresh commands -/

/-- The plane is one that the client gets from the event. -/
def Returned (w : World) (e : Event) (w' : World) (copy : AtcPlane) : Prop :=
  ∃ new, w'.seen = w.seen ++ new ∧ (e.client, copy) ∈ new

/-- What is returned is a plane in the air, as it is now. -/
theorem Returned.row {w w' : World} {e : Event} {copy : AtcPlane}
    (returned : Returned w e w' copy) (inv : w.Inv) (step : Step w e w') :
    e.action = .poll ∧ ∃ row ∈ w.planes, StaysUp e.moment.now row ∧
      copy = overWire (advance row e.moment.now) := by
  obtain ⟨new, hnew, hmem⟩ := returned
  obtain ⟨new', hseen, hall⟩ := (step.served inv).seen
  obtain rfl := List.append_cancel_left (hnew.symm.trans hseen)
  obtain ⟨haction, row, hrow, hstays, heq⟩ := hall _ hmem
  exact ⟨haction, row, hrow, hstays, congrArg Prod.snd heq⟩

/-- A client polls at `w` and then, at `before`, gives an accepted command on the
plane as that poll returned it; in between no command on that plane applies. -/
def FreshCommand (id : List.Vector UInt8 6) (cmd : AtcCommand) (w before after : World) :
    Prop :=
  ∃ (poll command : Event) (polled : World) (trace : List (Event × World))
    (copy : AtcPlane),
    (Step w poll polled ∧ Returned w poll polled copy ∧ copy.id = id) ∧
    Run (QuietStep id) polled trace before ∧
    Step before command after ∧ command.client = poll.client ∧
    command.action = .command cmd copy ∧ Accepted before command

/-- A command on a fresh copy is applied to the row. -/
theorem FreshCommand.applied {id : List.Vector UInt8 6} {cmd : AtcCommand}
    {w before after : World} (fresh : FreshCommand id cmd w before after) (inv : w.Inv)
    (leads : Leads id w.planes) :
    after.Inv ∧ ∃ trim, HasTrim id trim w ∧ HasTrim id trim before ∧
      ∀ row : AtcPlane, row.trim = trim → ∃ changed, applyCommand cmd.code row = some changed ∧
        HasTrim id changed.trim after := by
  obtain ⟨poll, command, polled, trace, copy, ⟨hpoll, hreturned, hid⟩, hquiet, hcommand, _,
    haction, haccepted⟩ := fresh
  obtain ⟨hpollAction, row, hrow, hstays, rfl⟩ := hreturned.row inv hpoll
  have htrim : HasTrim id row.trim w :=
    ⟨leads, row, leads.find? hrow hid hstays.1, rfl⟩
  obtain ⟨invBefore, hbefore⟩ := quietRun_hasTrim hquiet (inv.step hpoll)
    (poll_hasTrim inv hpoll hpollAction htrim)
  obtain ⟨hobtained, hplanes⟩ := hcommand.command invBefore haction
  obtain ⟨stored, happly⟩ := (accepted_iff invBefore haction hobtained).mp haccepted
  have hput : after.planes = put AtcPlane.id stored before.planes := by rw [hplanes, happly]
  obtain ⟨_, _, hstoredId⟩ := stored_of_obtained hobtained happly
  refine ⟨invBefore.step hcommand, row.trim, htrim, hbefore, ?_⟩
  intro other hother
  have hsame := applyCommand_trim other
    { overWire (overWire (advance row poll.moment.now)) with time := command.moment.now }
    hother.symm cmd.code
  rw [happly, Option.map_some] at hsame
  obtain ⟨changed, hchanged, hchangedTrim⟩ := Option.map_eq_some_iff.mp hsame.symm
  refine ⟨changed, hchanged, ?_, stored, ?_, hchangedTrim.symm⟩
  · rw [hput]
    exact leads_put stored hbefore.leads
  · have hfound := find?_put stored before.planes
    rw [hstoredId.trans hid] at hfound
    rw [World.rowFor, hput]
    exact hfound

/-- The row of a plane has in the later world what two commands, one after the
other, make of the row in the earlier one. -/
def CarriesBoth (id : List.Vector UInt8 6) (first second : AtcCommand) (before after : World) :
    Prop :=
  ∃ row, before.rowFor id = some row ∧
    ∃ once, applyCommand first.code row = some once ∧
    ∃ twice, applyCommand second.code once = some twice ∧
    ∃ later, after.rowFor id = some later ∧ later.trim = twice.trim

/-- A command on the copy that the poll before it returns is a fresh one. -/
theorem World.Clean.freshCommand {w : World} (clean : w.Clean) (client : Nat) (now : Int64)
    (cmd : AtcCommand) (copy : AtcPlane) {good : Board → Bool}
    (h : ((w.board.step (request client now .poll)).any fun polled =>
      decide ((client, copy) ∈ w.board.shown (request client now .poll)) &&
        (applyCommand cmd.code { overWire copy with time := now }).isSome &&
          (polled.step (request client now (.command cmd copy))).any good) = true) :
    ∃ before after, FreshCommand copy.id cmd w before after ∧ after.Clean ∧
      good after.board = true := by
  obtain ⟨b, hpoll, hrest⟩ := (Option.any_eq_true _ _).mp h
  obtain ⟨hshown, hcommand⟩ := (Bool.and_eq_true _ _).mp hrest
  obtain ⟨hreturned, happlies⟩ := (Bool.and_eq_true _ _).mp hshown
  obtain ⟨polled, step₁, rfl⟩ := clean.simulates hpoll
  obtain ⟨b', hstep, hgood⟩ := (Option.any_eq_true _ _).mp hcommand
  have cleanPolled := clean.step step₁
  obtain ⟨after, step₂, rfl⟩ := cleanPolled.simulates hstep
  obtain ⟨_, _, _, hseen⟩ := step₁.1.clean clean step₁.2
  have haccepted := accepted_of_step cleanPolled.toInv step₂.1 rfl happlies
  exact ⟨polled, after,
    ⟨_, _, polled, [], copy, ⟨step₁.1, ⟨_, hseen, of_decide_eq_true hreturned⟩, rfl⟩,
      .nil polled, step₂.1, rfl, rfl, haccepted⟩,
    cleanPolled.step step₂, hgood⟩

end Fresh

/-- **No command on a fresh copy is lost.**  When each of two accepted commands
is given on a copy polled after the last accepted command on that plane, the row
has both changes afterwards. -/
theorem fresh_commands_compose [Platform] {start : Int64}
    {w before₁ after₁ between before₂ after₂ : World} {trace : List (Event × World)}
    {id : List.Vector UInt8 6} {first second : AtcCommand}
    (reached : Reachable (FreshStep id) (World.initial start) w)
    (one : FreshCommand id first w before₁ after₁)
    (quiet : Run (QuietStep id) after₁ trace between)
    (two : FreshCommand id second between before₂ after₂) :
    CarriesBoth id first second before₁ after₂ := by
  obtain ⟨inv, leads⟩ := leads_of_reachable reached
  obtain ⟨inv₁, trim, _, hbefore, happlied₁⟩ := one.applied inv leads
  obtain ⟨row, hrow, htrim⟩ := hbefore.row
  obtain ⟨once, honce, htrim₁⟩ := happlied₁ row htrim
  obtain ⟨inv₂, htrim₂⟩ := quietRun_hasTrim quiet inv₁ htrim₁
  obtain ⟨_, _, hfound, _, happlied₂⟩ := two.applied inv₂ htrim₂.leads
  -- the second poll saw what the first command left
  obtain ⟨kept, hkept, hkeptTrim⟩ := htrim₂.row
  obtain ⟨found, hfound, hfoundTrim⟩ := hfound.row
  obtain rfl := Option.some.inj (hkept.symm.trans hfound)
  obtain ⟨twice, htwice, htrim₃⟩ := happlied₂ once (hkeptTrim.symm.trans hfoundTrim)
  exact ⟨row, hrow, once, honce, twice, htwice, htrim₃.row⟩

/-- The first plane after a command to speed up. -/
def fasterPlane : AtcPlane := { firstPlane with speed := 56 }

theorem fresh_commands_compose_polled :
    ∃ (_ : Platform) (w before after : World),
      Reachable Step (World.initial 0) w ∧
        CarriesBoth firstPlane.id .speedUp .climb before after := by
  let _ : Platform := x86
  have hplay : ((@Board.play x86 checkPlays (Board.initial 0) [request 0 0 .create]).any
      fun b => (b.step (request 0 0 .poll)).any fun polled =>
        decide ((0, firstPlane) ∈ b.shown (request 0 0 .poll)) &&
          (applyCommand AtcCommand.speedUp.code { overWire firstPlane with time := 0 }).isSome &&
          (polled.step (request 0 0 (.command .speedUp firstPlane))).any fun b =>
            (b.step (request 1 0 .poll)).any fun polled =>
              decide ((1, fasterPlane) ∈ b.shown (request 1 0 .poll)) &&
                (applyCommand AtcCommand.climb.code
                  { overWire fasterPlane with time := 0 }).isSome &&
                (polled.step (request 1 0 (.command .climb fasterPlane))).any fun _ => true) =
      true := by
    decide +kernel
  obtain ⟨trace, w, run, clean, hgood, _⟩ := exists_run plays_of_check hplay
  obtain ⟨before₁, after₁, one, clean₁, hrest⟩ := clean.freshCommand 0 0 .speedUp firstPlane hgood
  obtain ⟨before₂, after₂, two, _⟩ := clean₁.freshCommand 1 0 .climb fasterPlane hrest
  have reached : Reachable (FreshStep firstPlane.id) (World.initial 0) w :=
    ⟨trace, freshRun_of_plays firstPlane.id run⟩
  exact ⟨x86, w, before₁, after₂, ⟨trace, run.mono fun _ _ _ step => step.1.1⟩,
    fresh_commands_compose reached one (.nil after₁) two⟩

/-- Both clients poll the plane before either of them commands it, and of the two
accepted commands the first one is lost. -/
theorem speedUp_is_lost :
    ∃ (_ : Platform) (trace : List (Event × World)) (w between after : World),
      Run (FreshStep firstPlane.id) (World.initial 0) trace w ∧
        trace.map Prod.fst = [request 0 0 .create, request 0 0 .poll, request 1 0 .poll] ∧
        Step w (request 0 0 (.command .speedUp firstPlane)) between ∧
        Accepted w (request 0 0 (.command .speedUp firstPlane)) ∧
        Step between (request 1 0 (.command .climb firstPlane)) after ∧
        Accepted between (request 1 0 (.command .climb firstPlane)) ∧
        ¬ CarriesBoth firstPlane.id .speedUp .climb w after := by
  let _ : Platform := x86
  have hplay : ((@Board.play x86 checkPlays (Board.initial 0)
      [request 0 0 .create, request 0 0 .poll, request 1 0 .poll]).any fun b =>
        decide (b.planes = [firstPlane]) &&
          (b.step (request 0 0 (.command .speedUp firstPlane))).any fun b =>
            (b.step (request 1 0 (.command .climb firstPlane))).any fun b =>
              decide (b.planes = [{ firstPlane with elevation := 10 }])) = true := by
    decide +kernel
  obtain ⟨trace, w, run, clean, hgood, hevents⟩ := exists_run plays_of_check hplay
  obtain ⟨hplanes, hrest⟩ := (Bool.and_eq_true _ _).mp hgood
  obtain ⟨_, hfirst, hrest⟩ := (Option.any_eq_true _ _).mp hrest
  obtain ⟨between, step₁, rfl⟩ := clean.simulates hfirst
  obtain ⟨_, hsecond, hlast⟩ := (Option.any_eq_true _ _).mp hrest
  have cleanBetween := clean.step step₁
  obtain ⟨after, step₂, rfl⟩ := cleanBetween.simulates hsecond
  have haccepted₁ := accepted_of_step clean.toInv step₁.1 rfl (by decide +kernel)
  have haccepted₂ := accepted_of_step cleanBetween.toInv step₂.1 rfl (by decide +kernel)
  refine ⟨x86, trace, w, between, after, freshRun_of_plays firstPlane.id run, hevents,
    step₁.1, haccepted₁, step₂.1, haccepted₂, ?_⟩
  have hw : w.planes = [firstPlane] := of_decide_eq_true hplanes
  have hafter : after.planes = [{ firstPlane with elevation := 10 }] := of_decide_eq_true hlast
  rintro ⟨row, hrow, once, honce, twice, htwice, later, hlater, htrim⟩
  rw [World.rowFor, hw] at hrow
  rw [World.rowFor, hafter] at hlater
  obtain rfl : firstPlane = row := Option.some.inj hrow
  obtain rfl : fasterPlane = once := Option.some.inj honce
  obtain rfl := Option.some.inj htwice
  obtain rfl := Option.some.inj hlater
  exact absurd (congrArg Trim.speed htrim) (by decide)

end AirTraffic.Server
