/-
  Server/World.lean --- the server with all of its clients.

  WHAT THIS FILE IS FOR.  Every client is served by a process of its own, with
  counters of its own, and all of them work on one planes file.  A step of the
  system is one request of one client, served at a time that is not before the
  last one; a command carries a plane that some poll returned, at any time in the
  past.  The world keeps who obtained which planes.

  THE INVARIANT.  Whatever the padding of new planes is, the file lists planes
  (`World.Inv`), and a step does to the list what `Outcome` says: a request that
  is offered is always served (`World.Inv.serves`).  The results on whole runs
  are about that list; `flying_rows_airworthy` is the first of them.
-/
import AirTraffic.Foundation.Transition
import AirTraffic.Atcd.Airworthy
import AirTraffic.Server.Session

set_option autoImplicit false

namespace AirTraffic.Server

open AirTraffic.Foundation AirTraffic.Storage AirTraffic.Atcd AirTraffic.Protocol

/-- What a client can ask for that touches the planes. -/
inductive Action where
  | create
  | poll
  | command (cmd : AtcCommand) (plane : AtcPlane)
  deriving DecidableEq

/-- The request of an action. -/
def Action.req : Action → AtcReq
  | .create => { type := AtcReqType.createPlane.code, plane := zeroPlane }
  | .poll => { type := AtcReqType.getPlanes.code, plane := zeroPlane }
  | .command cmd plane => { type := (AtcReqType.ofCommand cmd).code, plane := plane }

/-- An action of a client, and when it is served. -/
structure Event where
  client : Nat
  moment : Moment
  action : Action

/-- The planes file, the time of the last request, the counters of the process
of each client, and the planes obtained so far, each with the client whose poll
returned it. -/
structure World where
  disk : Disk
  clock : Int64
  counters : Nat → Counters
  seen : List (Nat × AtcPlane)

/-- The world before the first request. -/
def World.initial (clock : Int64) : World where
  disk := Disk.sound []
  clock := clock
  counters := fun _ => {}
  seen := []

/-- The planes stored, first to last. -/
def World.planes (w : World) : List AtcPlane := (rowsOf planesDb w.disk.file).map planeOf

/-- The client can make the request: a command carries a plane some poll
returned. -/
def World.Offers (w : World) (e : Event) : Prop :=
  match e.action with
  | .command _ plane => plane ∈ w.seen.map Prod.snd
  | _ => True

instance (w : World) (e : Event) : Decidable (w.Offers e) :=
  match h : e.action with
  | .command _ plane =>
      decidable_of_iff (plane ∈ w.seen.map Prod.snd) (by simp only [World.Offers, h])
  | .create => isTrue (by simp only [World.Offers, h])
  | .poll => isTrue (by simp only [World.Offers, h])

section World

variable [Platform]

/-- The planes a client obtains from the response to its request. -/
def obtained (e : Event) (res : AtcRes) : List (Nat × AtcPlane) :=
  match e.action with
  | .poll => (resPlanes res).map fun plane => (e.client, overWire plane)
  | _ => []

/-- One request of one client. -/
def World.step (w : World) (e : Event) : Option World :=
  if w.clock ≤ e.moment.now ∧ w.Offers e then
    (serve e.moment (reqOverWire e.action.req)
        { counters := w.counters e.client, disk := w.disk }).map fun (res, worker) =>
      { disk := worker.disk
        clock := e.moment.now
        counters := Function.update w.counters e.client worker.counters
        seen := w.seen ++ obtained e res }
  else none

/-- The steps of the system. -/
def Step (w : World) (e : Event) (w' : World) : Prop := w.step e = some w'

/-! ## What a step does -/

/-- A plane that a poll returned. -/
structure Obtained (plane : AtcPlane) : Prop where
  flying : plane.status = flying
  worthy : Airworthy plane
  named : plane.Named

/-- What every reachable world keeps. -/
structure World.Inv (w : World) : Prop where
  sound : w.disk.faults = []
  lists : Lists w.disk.file w.planes
  status : ∀ plane ∈ w.planes, plane.Down ∨ plane.status = flying
  worthy : ∀ plane ∈ w.planes, plane.status = flying → Airworthy plane
  seen : ∀ copy ∈ w.seen, Obtained copy.2

/-- The planes an event leaves stored. -/
def Outcome (w : World) (e : Event) (fleet : List AtcPlane) : Prop :=
  match e.action with
  | .create =>
      if (w.counters e.client).planesCount = Int32.ofNat maxPlanes then fleet = w.planes
      else
        Stores (newPlane e.moment.chance e.moment.now)
          (slotOf w.disk.file (newPlane e.moment.chance e.moment.now)) w.planes fleet
  | .poll => Settles e.moment.now w.planes fleet
  | .command cmd plane =>
      fleet = commandedFleet cmd.code (overWire plane) e.moment.now w.planes

/-- What one request does to a world. -/
structure Served (w : World) (e : Event) (w' : World) : Prop where
  sound : w'.disk.faults = []
  lists : Lists w'.disk.file w'.planes
  outcome : Outcome w e w'.planes
  seen : ∃ new, w'.seen = w.seen ++ new ∧ ∀ copy ∈ new, e.action = .poll ∧
    ∃ row ∈ w.planes, StaysUp e.moment.now row ∧
      copy = (e.client, overWire (advance row e.moment.now))

omit [Platform] in
theorem carriesPlane_ofCommand (cmd : AtcCommand) :
    carriesPlane (AtcReqType.ofCommand cmd).code = true :=
  carriesPlane_code (AtcReqType.command_ofCommand cmd)

omit [Platform] in
theorem reqOverWire_command (cmd : AtcCommand) (plane : AtcPlane) :
    reqOverWire (Action.command cmd plane).req =
      { type := (AtcReqType.ofCommand cmd).code, plane := overWire plane } := by
  rw [reqOverWire, Action.req]
  simp only [carriesPlane_ofCommand, if_true]

omit [Platform] in
theorem overWire_named {plane : AtcPlane} (hfree : NulFree plane.id.toList) :
    (overWire plane).Named := ⟨hfree, rfl⟩

omit [Platform] in
/-- A world whose file lists planes has those planes. -/
theorem planes_of_lists {w : World} {file : Bytes} {fleet : List AtcPlane}
    (hdisk : w.disk = Disk.sound file) (lists : Lists file fleet) :
    w.disk.faults = [] ∧ Lists w.disk.file w.planes ∧ w.planes = fleet := by
  have hfile : Lists w.disk.file fleet := by rw [hdisk]; exact lists
  have hplanes : w.planes = fleet := hfile.planes
  exact ⟨by rw [hdisk], hplanes ▸ hfile, hplanes⟩

/-- A step is a request that is offered and served. -/
theorem Step.cases {w w' : World} {e : Event} (step : Step w e w') :
    (w.clock ≤ e.moment.now ∧ w.Offers e) ∧
      ∃ res worker, serve e.moment (reqOverWire e.action.req)
          { counters := w.counters e.client, disk := w.disk } = some (res, worker) ∧
        w' =
          { disk := worker.disk
            clock := e.moment.now
            counters := Function.update w.counters e.client worker.counters
            seen := w.seen ++ obtained e res } := by
  unfold Step World.step at step
  split at step
  · rename_i hguard
    obtain ⟨⟨res, worker⟩, hserve, rfl⟩ := Option.map_eq_some_iff.mp step
    exact ⟨hguard, res, worker, hserve, rfl⟩
  · exact absurd step (by simp)

/-- A step is served, and does what its outcome says. -/
theorem Step.served {w w' : World} {e : Event} (inv : w.Inv) (step : Step w e w') :
    Served w e w' := by
  obtain ⟨⟨_, hoffers⟩, res, worker, hserve, hw'⟩ := step.cases
  have hdisk := Disk.eq_sound inv.sound
  have hdisk' : w'.disk = worker.disk := by rw [hw']
  have hseen : w'.seen = w.seen ++ obtained e res := by rw [hw']
  clear hw' step
  obtain ⟨client, moment, action⟩ := e
  cases action with
  | create =>
      have hreq : reqOverWire (Action.create).req = (Action.create).req := rfl
      obtain ⟨file', fleet', hcreate, lists', hfleet⟩ := createPlane_lists inv.lists
        moment.chance moment.now (w.counters client)
      rw [hreq, Action.req, serve_createPlane, hdisk, hcreate] at hserve
      obtain ⟨rfl, rfl⟩ := Prod.mk.inj (Option.some.inj hserve)
      obtain ⟨hsound, hlists, hplanes⟩ := planes_of_lists hdisk' lists'
      exact
        { sound := hsound
          lists := hlists
          outcome := by rw [hplanes]; exact hfleet
          seen := ⟨[], hseen, by simp⟩ }
  | poll =>
      have hreq : reqOverWire (Action.poll).req = (Action.poll).req := rfl
      obtain ⟨poll, file', fleet', hpoll, hpollDisk, lists', settles, hcount, hmax, hall⟩ :=
        getAirplanes_lists inv.lists moment.now (w.counters client)
      rw [hreq, Action.req, serve_getPlanes, hdisk, hpoll, Option.map_some] at hserve
      obtain ⟨rfl, rfl⟩ := Prod.mk.inj (Option.some.inj hserve)
      obtain ⟨hsound, hlists, hplanes⟩ := planes_of_lists (hdisk'.trans hpollDisk) lists'
      refine
        { sound := hsound
          lists := hlists
          outcome := by rw [hplanes]; exact settles
          seen := ⟨_, hseen, ?_⟩ }
      intro copy hnew
      unfold obtained at hnew
      dsimp only at hnew
      rw [resPlanes_planesRes hcount hmax] at hnew
      obtain ⟨plane, hplane, rfl⟩ := List.mem_map.mp hnew
      obtain ⟨row, hrow, hstays, rfl⟩ := hall plane hplane
      exact ⟨rfl, row, hrow, hstays, rfl⟩
  | command cmd plane =>
      obtain ⟨copy, hmem, hcopy⟩ := List.mem_map.mp hoffers
      have hnamed : (overWire plane).Named :=
        overWire_named (hcopy ▸ (inv.seen copy hmem).named.free)
      obtain ⟨file', hset, lists', _⟩ := set_lists inv.lists hnamed cmd.code moment.now
      rw [reqOverWire_command, serve_command (AtcReqType.command_ofCommand cmd), hdisk,
        hset] at hserve
      obtain ⟨rfl, rfl⟩ := Prod.mk.inj (Option.some.inj hserve)
      obtain ⟨hsound, hlists, hplanes⟩ := planes_of_lists hdisk' lists'
      exact
        { sound := hsound
          lists := hlists
          outcome := hplanes
          seen := ⟨[], hseen, by simp⟩ }

/-- **A request that is offered in time is served.** -/
theorem World.Inv.serves {w : World} (inv : w.Inv) {e : Event}
    (hclock : w.clock ≤ e.moment.now) (hoffers : w.Offers e) : ∃ w', Step w e w' := by
  have named : carriesPlane (reqOverWire e.action.req).type = true →
      (reqOverWire e.action.req).plane.Named := by
    apply named_reqOverWire
    intro hcarries
    obtain ⟨client, moment, action⟩ := e
    cases action with
    | create =>
        have hnone : carriesPlane (Action.create).req.type = false := by decide
        exact absurd (hnone.symm.trans hcarries) (by decide)
    | poll =>
        have hnone : carriesPlane (Action.poll).req.type = false := by decide
        exact absurd (hnone.symm.trans hcarries) (by decide)
    | command cmd plane =>
        obtain ⟨copy, hseen, hcopy⟩ := List.mem_map.mp hoffers
        exact hcopy ▸ (inv.seen copy hseen).named.free
  obtain ⟨res, worker, file, fleet, hserve, _⟩ := serve_lists e.moment
    { counters := w.counters e.client, disk := w.disk } (Disk.eq_sound inv.sound)
    inv.lists named
  have hstep : w.step e = (serve e.moment (reqOverWire e.action.req)
      { counters := w.counters e.client, disk := w.disk }).map _ :=
    if_pos ⟨hclock, hoffers⟩
  rw [hserve, Option.map_some] at hstep
  exact ⟨_, hstep⟩

/-! ## The invariant -/

omit [Platform] in
theorem planes_initial (clock : Int64) : (World.initial clock).planes = [] := by
  have hrows : rowsOf planesDb (World.initial clock).disk.file = [] := rowsOf_nil fits_planes
  rw [World.planes, hrows]
  rfl

theorem inv_initial (clock : Int64) : (World.initial clock).Inv where
  sound := rfl
  lists := by rw [planes_initial]; exact lists_nil
  status := by rw [planes_initial]; simp
  worthy := by rw [planes_initial]; simp
  seen := by simp [World.initial]

theorem airworthy_overWire {plane : AtcPlane} (worthy : Airworthy plane) :
    Airworthy (overWire plane) :=
  worthy.congr (worthy.toInTrim.congr rfl rfl rfl) rfl rfl rfl

/-- The planes a poll returns are flying, airworthy, and keep their names. -/
theorem obtained_advance {w : World} (inv : w.Inv) {now : Int64} {row : AtcPlane}
    (hrow : row ∈ w.planes) (hstays : StaysUp now row) :
    Obtained (overWire (advance row now)) where
  flying := hstays.1
  worthy := airworthy_overWire
    (airworthy_advance (inv.worthy row hrow hstays.1).toInTrim hstays.2)
  named := by
    apply overWire_named
    rw [advance_id]
    exact inv.lists.free hrow

/-- An obtained plane is in the air and stays where it is when no time passes, so
`set` gets to its `switch`. -/
theorem commanded_eq {plane : AtcPlane} (obtained : Obtained plane) (cmd : Int32)
    (now : Int64) :
    commanded cmd (overWire plane) now =
      applyCommand cmd { overWire plane with time := now } := by
  have worthy := airworthy_overWire obtained.worthy
  have hz : ¬ floatAltitude (overWire plane).z < 0 := by
    rw [worthy.steady.altitude]
    exact fun hneg => absurd (Int32.lt_iff_toInt_lt.mp hneg) (Int.not_lt.mpr worthy.z)
  have hstay : advance { overWire plane with time := now } now =
      { overWire plane with time := now } :=
    advance_self worthy.steady worthy.x worthy.y
  rw [commanded, if_neg hz, hstay]

/-- What a command on an obtained plane stores is flying and airworthy. -/
theorem stored_of_obtained {cmd : Int32} {plane stored : AtcPlane} {now : Int64}
    (obtained : Obtained plane)
    (h : applyCommand cmd { overWire plane with time := now } = some stored) :
    stored.status = flying ∧ Airworthy stored ∧ stored.id = plane.id := by
  have worthy := airworthy_overWire obtained.worthy
  have heq := applyCommand_eq h
  have trim := inTrim_applyCommand
    { overWire plane with time := now } (worthy.toInTrim.congr rfl rfl rfl) h
  refine ⟨?_, ?_, ?_⟩
  · rw [heq]
    exact obtained.flying
  · exact worthy.congr trim (by rw [heq]) (by rw [heq]) (by rw [heq])
  · rw [heq]
    rfl

/-- A plane of the list after an event was there before, or has come down, or is
flying and airworthy. -/
theorem Outcome.mem {w : World} {e : Event} {fleet : List AtcPlane} (inv : w.Inv)
    (hoffers : w.Offers e) (h : Outcome w e fleet) {plane : AtcPlane} (hmem : plane ∈ fleet) :
    plane ∈ w.planes ∨ plane.Down ∨ (plane.status = flying ∧ Airworthy plane) := by
  obtain ⟨client, moment, action⟩ := e
  cases action with
  | create =>
      simp only [Outcome] at h
      split at h
      · exact Or.inl (h ▸ hmem)
      · rcases h.mem hmem with rfl | hold
        · exact Or.inr (Or.inr ⟨rfl, airworthy_newPlane moment.chance moment.now⟩)
        · exact Or.inl hold
  | poll =>
      have settles : Settles moment.now w.planes fleet := h
      exact (settles.mem_or_down hmem).imp_right Or.inl
  | command cmd copy =>
      obtain ⟨pair, hseen, hcopy⟩ := List.mem_map.mp hoffers
      have hobtained : Obtained copy := hcopy ▸ inv.seen pair hseen
      simp only [Outcome, commandedFleet, commanded_eq hobtained] at h
      cases hstored : applyCommand cmd.code { overWire copy with time := moment.now } with
      | none =>
          rw [h, hstored] at hmem
          exact Or.inl hmem
      | some stored =>
          rw [h, hstored] at hmem
          obtain ⟨hflying, hworthy, _⟩ := stored_of_obtained hobtained hstored
          rcases (put_stores stored w.planes).mem hmem with rfl | hold
          · exact Or.inr (Or.inr ⟨hflying, hworthy⟩)
          · exact Or.inl hold

/-- **Every step keeps the invariant.** -/
theorem World.Inv.step {w w' : World} {e : Event} (inv : w.Inv) (step : Step w e w') :
    w'.Inv := by
  have served := step.served inv
  have hoffers := step.cases.1.2
  refine
    { sound := served.sound
      lists := served.lists
      status := ?_
      worthy := ?_
      seen := ?_ }
  · intro plane hmem
    rcases served.outcome.mem inv hoffers hmem with hold | hdown | ⟨hflying, _⟩
    · exact inv.status plane hold
    · exact Or.inl hdown
    · exact Or.inr hflying
  · intro plane hmem hflying
    rcases served.outcome.mem inv hoffers hmem with hold | hdown | ⟨_, hworthy⟩
    · exact inv.worthy plane hold hflying
    · exact absurd hflying hdown.not_flying
    · exact hworthy
  · intro copy hmem
    obtain ⟨new, hseen, hnew⟩ := served.seen
    rcases List.mem_append.mp (hseen ▸ hmem) with hold | hmem
    · exact inv.seen copy hold
    · obtain ⟨_, row, hrow, hstays, rfl⟩ := hnew copy hmem
      exact obtained_advance inv hrow hstays

theorem inv_of_reachable {start : Int64} {w : World}
    (reached : Reachable Step (World.initial start) w) : w.Inv :=
  reached.invariant World.Inv (fun _ _ _ inv step => inv.step step) (inv_initial start)

/-- **Every stored plane that is flying is airworthy**, in every world that can
be reached from the empty store by any interleaving of any clients' requests. -/
theorem flying_rows_airworthy {start : Int64} {w : World}
    (reached : Reachable Step (World.initial start) w) :
    ∀ plane ∈ w.planes, plane.status = flying → Airworthy plane :=
  (inv_of_reachable reached).worthy

end World

/-- A request served when every draw is zero. -/
def request (client : Nat) (now : Int64) (action : Action) : Event where
  client := client
  moment := { now := now, chance := Chance.zero }
  action := action

/-- The plane that is made then. -/
def firstPlane : AtcPlane := newPlane Chance.zero 0

/-- Client 1 turns the plane by the copy that it was before client 0 made it climb. -/
theorem flying_rows_airworthy_staleCopy :
    ∃ (_ : Platform) (copy : AtcPlane) (trace : List (Event × World)) (w : World),
      Run Step (World.initial 0) trace w ∧
        trace.map Prod.fst =
          [request 0 0 .create, request 0 10 .poll, request 0 20 (.command .climb copy),
            request 1 30 (.command .turnLeft copy)] ∧
        (∃ plane ∈ w.planes, plane.status = flying) ∧
        ∀ plane ∈ w.planes, plane.status = flying → Airworthy plane := by
  let _ : Platform := x86
  let copy : AtcPlane := overWire (advance firstPlane 10)
  let requests : List Event :=
    [request 0 0 .create, request 0 10 .poll, request 0 20 (.command .climb copy),
      request 1 30 (.command .turnLeft copy)]
  have hplayed : (requests.foldlM World.step (World.initial 0)).any
      (fun w => w.planes.any fun plane => plane.status = flying) = true := by decide +kernel
  obtain ⟨w, hlast, hflying⟩ := (Option.any_eq_true _ _).mp hplayed
  obtain ⟨trace, run, hevents⟩ := Run.of_foldlM hlast
  exact ⟨x86, copy, trace, w, run, hevents, by simpa using hflying,
    flying_rows_airworthy ⟨trace, run⟩⟩

end AirTraffic.Server
