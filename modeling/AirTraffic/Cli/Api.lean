/-
  Cli/Api.lean --- the remote API refines the local one.

  WHAT THIS FILE IS FOR.  A client calls the functions of `atcd.h`, and it can be
  linked with `atcd.c` or with `cli.c`.  Here are both: `direct` calls the
  functions on the store, `proxied` goes through the proxies, the wire and
  `reply_handler`.  While struct padding is zero and times fit into a message,
  what is returned and what is stored is the same in both (`proxied_refines`),
  call after call.

  ONE DIFFERENCE.  `set` of `atcd.c` leaves the caller's plane as it stored it,
  the proxy leaves it alone.  So both are given the same planes here, which are
  those that a poll returned or that `set` left.
-/
import AirTraffic.Foundation.Transition
import AirTraffic.Cli.Proxy

set_option autoImplicit false

namespace AirTraffic.Cli

open AirTraffic.Foundation AirTraffic.Storage AirTraffic.Atcd AirTraffic.Protocol
open AirTraffic.Server

/-- A call of the API. -/
inductive ApiCall where
  | getAirplanes
  | getCrashed
  | getLanded
  | getAirports
  | createPlane
  | set (cmd : Int32) (plane : AtcPlane)

/-- A call, with what it meets. -/
structure ApiRequest where
  call : ApiCall
  trip : Trip

/-- What a call returns, with what it writes to the buffer it was given. -/
inductive ApiReply where
  | planes (count : Int32) (buff : List AtcPlane)
  | airports (count : Int32) (buff : List AtcAirport)
  | value (count : Int32)
  | done
  | set (code : Int32) (plane : AtcPlane)

/-- The planes the caller gets. -/
def ApiReply.given : ApiReply → List AtcPlane
  | .planes _ buff => buff
  | .set _ plane => [plane]
  | _ => []

/-- Replies that tell the caller the same: all of it is equal, but of `set` it is
only whether it returned -1. -/
def ApiReply.Agrees : ApiReply → ApiReply → Prop
  | .set code _, .set code' _ => code = -1 ↔ code' = -1
  | reply, reply' => reply = reply'

section Api

variable [Platform]

/-- A call of `atcd.c`. -/
def direct (q : ApiRequest) (worker : Worker) : Option (ApiReply × Worker) :=
  let moment := q.trip.moment
  match q.call with
  | .getAirplanes =>
      (Atcd.getAirplanes moment.now worker.counters worker.disk).map fun poll =>
        (.planes poll.result poll.buffer, { counters := poll.counters, disk := poll.disk })
  | .getCrashed => some (.value (Atcd.getCrashed worker.counters), worker)
  | .getLanded => some (.value (Atcd.getLanded worker.counters), worker)
  | .getAirports => some (.airports Atcd.getAirports.1 Atcd.getAirports.2, worker)
  | .createPlane =>
      some (.done, { worker with
        disk := Atcd.createPlane moment.chance moment.now worker.counters worker.disk })
  | .set cmd plane =>
      let (res, plane, disk) := Atcd.set cmd plane moment.now worker.disk
      some (.set res plane, { worker with disk := disk })

/-- A call of `cli.c`. -/
def proxied (q : ApiRequest) (r : Remote) : Option (ApiReply × Remote) :=
  match q.call with
  | .getAirplanes =>
      (getAirplanes q.trip r).map fun ((count, buff), r) => (.planes count buff, r)
  | .getCrashed => (getCrashed q.trip r).map fun (count, r) => (.value count, r)
  | .getLanded => (getLanded q.trip r).map fun (count, r) => (.value count, r)
  | .getAirports =>
      (getAirports q.trip r).map fun ((count, buff), r) => (.airports count buff, r)
  | .createPlane => (createPlane q.trip r).map fun r => (.done, r)
  | .set cmd plane => (set cmd plane q.trip r).map fun (code, r) => (.set code plane, r)

/-- A program that calls `atcd.c`: the process, and the planes it was given. -/
structure Direct where
  worker : Worker
  held : List AtcPlane

/-- The calls whose planes the program was given, at times that fit into a
message and with zero padding. -/
structure Direct.Offers (s : Direct) (q : ApiRequest) : Prop where
  clock : 0 ≤ q.trip.moment.now.toInt ∧ q.trip.moment.now.toInt < 2 ^ 32
  pad : q.call = .createPlane → q.trip.moment.chance.pad = List.Vector.replicate 2 0
  plane : ∀ cmd plane, q.call = .set cmd plane → plane ∈ s.held

/-- The steps of a program with `atcd.c`. -/
def DirectStep (s : Direct) (e : ApiRequest × ApiReply) (t : Direct) : Prop :=
  s.Offers e.1 ∧ direct e.1 s.worker = some (e.2, t.worker) ∧ t.held = s.held ++ e.2.given

/-- The steps of a program with `cli.c`. -/
def ProxiedStep (r : Remote) (e : ApiRequest × ApiReply) (r' : Remote) : Prop :=
  proxied e.1 r = some (e.2, r')

/-! ## What both of them keep -/

/-- A plane that `set` can be given. -/
structure Given (plane : AtcPlane) : Prop extends WireSafe plane where
  free : NulFree plane.id.toList
  aloft : ¬ floatAltitude plane.z < 0

/-- The file lists planes, and those that fly go over the wire as they are. -/
structure Stored (disk : Disk) (fleet : List AtcPlane) : Prop where
  sound : disk.faults = []
  lists : Lists disk.file fleet
  safe : ∀ row ∈ fleet, row.status = flying → WireSafe row

/-- The two programs are at the same point. -/
structure Matches (s : Direct) (r : Remote) : Prop where
  stored : ∃ fleet, Stored s.worker.disk fleet
  held : ∀ plane ∈ s.held, Given plane
  worker : r.worker = s.worker
  link : r.link = Link.empty

theorem Given.named {plane : AtcPlane} (h : Given plane) : plane.Named where
  free := h.free
  pad := by
    rw [h.pad]
    rfl

omit [Platform] in
/-- What is stored after a plane was: the planes that fly go over the wire. -/
theorem Stored.of_mem {disk : Disk} {fleet fleet' : List AtcPlane} {plane : AtcPlane}
    (stored : Stored disk fleet) {file' : Bytes} (lists : Lists file' fleet')
    (hmem : ∀ row ∈ fleet', row = plane ∨ row ∈ fleet) (safe : WireSafe plane) :
    Stored (Disk.sound file') fleet' where
  sound := rfl
  lists := lists
  safe := by
    intro row hrow hflying
    rcases hmem row hrow with rfl | hold
    · exact safe
    · exact stored.safe row hold hflying

/-! ## The calls -/

/-- A call does the same in both programs, and leaves them at the same point. -/
def Refines (q : ApiRequest) (worker : Worker) (r : Remote) : Prop :=
  ∃ reply worker' reply' r', direct q worker = some (reply, worker') ∧
    proxied q r = some (reply', r') ∧ reply.Agrees reply' ∧ Answered r' worker' ∧
    (∃ fleet, Stored worker'.disk fleet) ∧ ∀ plane ∈ reply.given, Given plane

variable {worker : Worker} {r : Remote} {fleet : List AtcPlane}

theorem refines_getAirplanes (stored : Stored worker.disk fleet) (hworker : r.worker = worker)
    (hlink : r.link = Link.empty) (trip : Trip) :
    Refines { call := .getAirplanes, trip := trip } worker r := by
  obtain ⟨poll, file', fleet', hpoll, hdisk, lists', settles, hcount, hmax, hall⟩ :=
    getAirplanes_lists stored.lists trip.moment.now worker.counters
  rw [← Disk.eq_sound stored.sound] at hpoll
  have given : ∀ plane ∈ poll.buffer, Given plane := by
    intro plane hplane
    obtain ⟨row, hrow, hstays, rfl⟩ := hall plane hplane
    have safe := stored.safe row hrow hstays.1
    exact
      { pad := safe.pad
        time := safe.time
        free := by
          rw [advance_id]
          exact stored.lists.free hrow
        aloft := by
          rw [(steady_advance row trip.moment.now).altitude]
          exact hstays.2 }
  obtain ⟨r', hproxy, answered⟩ := getAirplanes_spec hlink
    (by rw [hworker]; exact hpoll) hcount hmax fun plane hplane => (given plane hplane).toWireSafe
  let reply : ApiReply := .planes poll.result poll.buffer
  refine ⟨reply, _, reply, r', by simp only [direct, hpoll, Option.map_some, reply],
    by simp only [proxied, hproxy, Option.map_some, reply], rfl, answered, ⟨fleet', ?_⟩, given⟩
  rw [hdisk]
  refine { sound := rfl, lists := lists', safe := ?_ }
  intro row hrow hflying
  rcases settles.mem_or_down hrow with hold | hdown
  · exact stored.safe row hold hflying
  · exact absurd hflying hdown.not_flying

theorem refines_createPlane (stored : Stored worker.disk fleet) (hworker : r.worker = worker)
    (hlink : r.link = Link.empty) {trip : Trip}
    (hclock : 0 ≤ trip.moment.now.toInt ∧ trip.moment.now.toInt < 2 ^ 32)
    (hpad : trip.moment.chance.pad = List.Vector.replicate 2 0) :
    Refines { call := .createPlane, trip := trip } worker r := by
  obtain ⟨file', fleet', hcreate, lists', hfleet⟩ := createPlane_lists stored.lists
    trip.moment.chance trip.moment.now worker.counters
  rw [← Disk.eq_sound stored.sound] at hcreate
  obtain ⟨r', hproxy, answered⟩ := createPlane_spec trip hlink
  rw [hworker] at answered
  refine ⟨.done, _, .done, r', rfl, by simp only [proxied, hproxy, Option.map_some], rfl,
    answered, ⟨fleet', ?_⟩, by simp [ApiReply.given]⟩
  have safe : WireSafe (newPlane trip.moment.chance trip.moment.now) :=
    { pad := hpad, time := hclock }
  simp only [hcreate]
  refine stored.of_mem lists' (fun row hrow => ?_) safe
  split at hfleet
  · exact Or.inr (hfleet ▸ hrow)
  · exact hfleet.mem hrow

/-- `set` leaves the caller's plane where it is, at the present time. -/
theorem set_plane {plane : AtcPlane} (hz : ¬ floatAltitude plane.z < 0) (cmd : Int32)
    (now : Int64) (disk : Disk) :
    let left := (Atcd.set cmd plane now disk).2.1
    left.id = plane.id ∧ left.pad = plane.pad ∧ left.time = now ∧
      left.z = floatAltitude plane.z := by
  have hadvance : (advance { plane with time := now } now).z = floatAltitude plane.z :=
    altitudeAt_self { plane with time := now }
  rw [set_eq]
  cases hcommanded : commanded cmd plane now with
  | none => exact ⟨rfl, rfl, rfl, hadvance⟩
  | some stored =>
      rw [commanded, if_neg hz] at hcommanded
      have heq := applyCommand_eq hcommanded
      dsimp only
      rw [heq]
      exact ⟨rfl, rfl, rfl, hadvance⟩

/-- What `set` leaves can be given to it again. -/
theorem Given.left {plane : AtcPlane} (given : Given plane) (cmd : Int32) {now : Int64}
    (hclock : 0 ≤ now.toInt ∧ now.toInt < 2 ^ 32) (disk : Disk) :
    Given (Atcd.set cmd plane now disk).2.1 := by
  obtain ⟨hid, hpad, htime, hz⟩ := set_plane given.aloft cmd now disk
  exact
    { pad := hpad.trans given.pad
      time := by rw [TimeFits, htime]; exact hclock
      free := by rw [hid]; exact given.free
      aloft := by rw [hz, floatAltitude_floatAltitude]; exact given.aloft }

/-- What `set` stores is what it leaves. -/
theorem commandedFleet_mem {plane row : AtcPlane} {cmd : Int32} {now : Int64} (disk : Disk)
    (hrow : row ∈ commandedFleet cmd plane now fleet) :
    row = (Atcd.set cmd plane now disk).2.1 ∨ row ∈ fleet := by
  unfold commandedFleet at hrow
  rw [set_eq]
  cases hcommanded : commanded cmd plane now with
  | none =>
      rw [hcommanded] at hrow
      exact Or.inr hrow
  | some stored =>
      rw [hcommanded] at hrow
      exact (put_stores stored fleet).mem hrow

/-- A command that is none does nothing, and returns -1. -/
theorem set_none {plane : AtcPlane} {cmd : Int32} (hcmd : AtcCommand.ofCode cmd = none)
    (hz : ¬ floatAltitude plane.z < 0) (now : Int64) (disk : Disk) :
    (Atcd.set cmd plane now disk).1 = -1 ∧ (Atcd.set cmd plane now disk).2.2 = disk := by
  have hnone : commanded cmd plane now = none := by
    rw [commanded, if_neg hz, applyCommand, hcmd]
  rw [set_eq, hnone]
  exact ⟨rfl, rfl⟩

theorem direct_set (cmd : Int32) (plane : AtcPlane) (trip : Trip) (worker : Worker) :
    direct { call := .set cmd plane, trip := trip } worker =
      some
        (.set (Atcd.set cmd plane trip.moment.now worker.disk).1
            (Atcd.set cmd plane trip.moment.now worker.disk).2.1,
          { worker with disk := (Atcd.set cmd plane trip.moment.now worker.disk).2.2 }) := by
  simp only [direct]

theorem refines_set (stored : Stored worker.disk fleet) (hworker : r.worker = worker)
    (hlink : r.link = Link.empty) {trip : Trip}
    (hclock : 0 ≤ trip.moment.now.toInt ∧ trip.moment.now.toInt < 2 ^ 32) (cmd : Int32)
    {plane : AtcPlane} (given : Given plane) :
    Refines { call := .set cmd plane, trip := trip } worker r := by
  have left := given.left cmd hclock worker.disk
  obtain ⟨file', hset, lists', _⟩ := set_lists stored.lists given.named cmd trip.moment.now
  rw [← Disk.eq_sound stored.sound] at hset
  have stored' : Stored (Atcd.set cmd plane trip.moment.now worker.disk).2.2
      (commandedFleet cmd plane trip.moment.now fleet) := by
    rw [hset]
    exact stored.of_mem lists' (fun row hrow => commandedFleet_mem worker.disk hrow)
      left.toWireSafe
  cases hcmd : AtcCommand.ofCode cmd with
  | none =>
      -- the proxy sends nothing, and `set` of the server would not store anything
      obtain ⟨hcode, hdisk⟩ := set_none hcmd given.aloft trip.moment.now worker.disk
      refine ⟨_, _, .set (-1) plane, r, direct_set cmd plane trip worker,
        by simp only [proxied, set_unknown hcmd, Option.map_some], iff_of_true hcode rfl,
        ⟨?_, hlink⟩, ⟨_, stored'⟩, ?_⟩
      · rw [hdisk]
        exact hworker
      · intro other hother
        rw [List.mem_singleton.mp hother]
        exact left
  | some command =>
      obtain ⟨code, r', hproxy, hcode, answered⟩ := set_spec trip hlink hcmd
        given.toWireSafe
      rw [hworker] at hcode answered
      refine ⟨_, _, .set code plane, r', direct_set cmd plane trip worker,
        by simp only [proxied, hproxy, Option.map_some], hcode.symm, answered,
        ⟨_, stored'⟩, ?_⟩
      intro other hother
      rw [List.mem_singleton.mp hother]
      exact left

/-- **Every call does the same in both programs.** -/
theorem Matches.refines {s : Direct} (same : Matches s r) {q : ApiRequest}
    (offers : s.Offers q) : Refines q s.worker r := by
  obtain ⟨fleet, stored⟩ := same.stored
  have hsame : Answered r s.worker := ⟨same.worker, same.link⟩
  obtain ⟨call, trip⟩ := q
  cases call with
  | getAirplanes => exact refines_getAirplanes stored same.worker same.link trip
  | getCrashed =>
      obtain ⟨r', hproxy, answered⟩ := getCrashed_spec trip same.link
      rw [same.worker] at hproxy answered
      exact ⟨.value _, _, .value _, r', rfl, by simp only [proxied, hproxy, Option.map_some],
        rfl, answered, ⟨fleet, stored⟩, by simp [ApiReply.given]⟩
  | getLanded =>
      obtain ⟨r', hproxy, answered⟩ := getLanded_spec trip same.link
      rw [same.worker] at hproxy answered
      exact ⟨.value _, _, .value _, r', rfl, by simp only [proxied, hproxy, Option.map_some],
        rfl, answered, ⟨fleet, stored⟩, by simp [ApiReply.given]⟩
  | getAirports =>
      obtain ⟨r', hproxy, answered⟩ := getAirports_spec trip same.link
      rw [same.worker] at answered
      exact ⟨.airports _ _, _, .airports _ _, r', rfl,
        by simp only [proxied, hproxy, Option.map_some], rfl, answered, ⟨fleet, stored⟩,
        by simp [ApiReply.given]⟩
  | createPlane =>
      exact refines_createPlane stored same.worker same.link offers.clock (offers.pad rfl)
  | set cmd plane =>
      exact refines_set stored same.worker same.link offers.clock cmd
        (same.held plane (offers.plane cmd plane rfl))

/-- A step of the one program is a step of the other. -/
theorem Matches.step {s t : Direct} (same : Matches s r) {e : ApiRequest × ApiReply}
    (step : DirectStep s e t) :
    ∃ e' r', ProxiedStep r e' r' ∧ (e.1 = e'.1 ∧ e.2.Agrees e'.2) ∧ Matches t r' := by
  obtain ⟨offers, hdirect, hheld⟩ := step
  obtain ⟨reply, worker', reply', r', hreply, hproxied, agrees, answered, stored, given⟩ :=
    same.refines offers
  obtain ⟨hfst, hsnd⟩ := Prod.mk.inj (Option.some.inj (hdirect.symm.trans hreply))
  refine ⟨(e.1, reply'), r', hproxied, ⟨rfl, hfst ▸ agrees⟩, ?_⟩
  refine
    { stored := hsnd ▸ stored
      held := ?_
      worker := answered.worker.trans hsnd.symm
      link := answered.link }
  intro plane hmem
  rw [hheld, hfst] at hmem
  exact (List.mem_append.mp hmem).elim (same.held plane) (given plane)

/-- Two steps of the two programs: one call, replies that agree, and the same
store and counters afterwards. -/
structure SameStep (a : (ApiRequest × ApiReply) × Direct) (b : (ApiRequest × ApiReply) × Remote) :
    Prop where
  request : a.1.1 = b.1.1
  reply : a.1.2.Agrees b.1.2
  worker : b.2.worker = a.2.worker

end Api

/-- **The remote API refines the local one.**  Whatever a program calls, the same
calls through the proxies are answered, with replies that agree, and leave the
same store and counters after each of them; and the calls of `atcd.c` return. -/
theorem proxied_refines [Platform] {s t : Direct} {r : Remote}
    {trace : List ((ApiRequest × ApiReply) × Direct)} (start : Matches s r)
    (run : Run DirectStep s trace t) :
    (∃ trace' r', Run ProxiedStep r trace' r' ∧ List.Forall₂ SameStep trace trace') ∧
      ∀ q, t.Offers q → ∃ reply t', DirectStep t (q, reply) t' := by
  obtain ⟨trace', r', run', same, hall⟩ := Run.simulate Matches
    (fun e (e' : ApiRequest × ApiReply) => e.1 = e'.1 ∧ e.2.Agrees e'.2)
    (fun _ _ _ _ same step => same.step step) run start
  have hsteps : List.Forall₂ SameStep trace trace' := by
    refine hall.imp fun a b h => ?_
    obtain ⟨⟨hrequest, agrees⟩, same⟩ := h
    exact { request := hrequest, reply := agrees, worker := same.worker }
  refine ⟨⟨trace', r', run', hsteps⟩, ?_⟩
  intro q offers
  obtain ⟨reply, worker', _, _, hdirect, _⟩ := same.refines offers
  exact ⟨reply, ⟨worker', t.held ++ reply.given⟩, offers, hdirect, rfl⟩

/-- A call at time zero, with all draws and buffers zero. -/
def atZero (call : ApiCall) : ApiRequest where
  call := call
  trip :=
    { moment := { now := 0, chance := Chance.zero }
      clientStack := Stack.zero
      serverStack := Stack.zero }

/-- A program makes a plane, polls it, commands it to climb and gives it a command
that is none. -/
def outing : List ApiCall :=
  let plane := newPlane Chance.zero 0
  [.createPlane, .getAirplanes, .set AtcCommand.climb.code plane, .set 6 plane]

theorem proxied_refines_outing :
    ∃ (_ : Platform) (trace : List ((ApiRequest × ApiReply) × Direct))
      (trace' : List ((ApiRequest × ApiReply) × Remote)) (r' : Remote),
      trace.map (fun a => a.1.1.call) = outing ∧
        Run ProxiedStep
          { conn := { req := { type := 0, plane := zeroPlane }, res := zeroRes }
            worker := { counters := {}, disk := Disk.sound [] }
            link := Link.empty } trace' r' ∧
        List.Forall₂ SameStep trace trace' := by
  let _ : Platform := x86
  let plane := newPlane Chance.zero 0
  let start : Direct := { worker := { counters := {}, disk := Disk.sound [] }, held := [] }
  have hcalls : ((@direct x86 (atZero .createPlane) start.worker).any fun a =>
      (@direct x86 (atZero .getAirplanes) a.2).any fun b =>
        decide (plane ∈ b.1.given) &&
          (@direct x86 (atZero (.set AtcCommand.climb.code plane)) b.2).any fun c =>
            (@direct x86 (atZero (.set 6 plane)) c.2).isSome) = true := by
    decide +kernel
  obtain ⟨a, hcreate, hrest⟩ := (Option.any_eq_true _ _).mp hcalls
  obtain ⟨b, hpoll, hrest⟩ := (Option.any_eq_true _ _).mp hrest
  obtain ⟨hgiven, hrest⟩ := (Bool.and_eq_true _ _).mp hrest
  obtain ⟨c, hclimb, hrest⟩ := (Option.any_eq_true _ _).mp hrest
  obtain ⟨d, hnone⟩ := Option.isSome_iff_exists.mp hrest
  have hmem : plane ∈ b.1.given := of_decide_eq_true hgiven
  have hclock : (0 : Int) ≤ (0 : Int64).toInt ∧ (0 : Int64).toInt < 2 ^ 32 := by decide
  let s₁ : Direct := { worker := a.2, held := start.held ++ a.1.given }
  let s₂ : Direct := { worker := b.2, held := s₁.held ++ b.1.given }
  let s₃ : Direct := { worker := c.2, held := s₂.held ++ c.1.given }
  have hheld : plane ∈ s₂.held := List.mem_append_right _ hmem
  have hheld' : plane ∈ s₃.held := List.mem_append_left _ hheld
  have offers : ∀ {s : Direct} {call : ApiCall},
      (∀ cmd plane, call = .set cmd plane → plane ∈ s.held) → s.Offers (atZero call) :=
    fun hset => { clock := hclock, pad := fun _ => rfl, plane := hset }
  have step₁ : DirectStep start (atZero .createPlane, a.1) s₁ :=
    ⟨offers fun _ _ hset => absurd hset (by simp), hcreate, rfl⟩
  have step₂ : DirectStep s₁ (atZero .getAirplanes, b.1) s₂ :=
    ⟨offers fun _ _ hset => absurd hset (by simp), hpoll, rfl⟩
  have step₃ : DirectStep s₂ (atZero (.set AtcCommand.climb.code plane), c.1) s₃ :=
    ⟨offers fun _ _ hset => (ApiCall.set.inj hset).2 ▸ hheld, hclimb, rfl⟩
  have step₄ : DirectStep s₃ (atZero (.set 6 plane), d.1) ⟨d.2, s₃.held ++ d.1.given⟩ :=
    ⟨offers fun _ _ hset => (ApiCall.set.inj hset).2 ▸ hheld', hnone, rfl⟩
  have same : Matches start
      { conn := { req := { type := 0, plane := zeroPlane }, res := zeroRes }
        worker := start.worker
        link := Link.empty } :=
    { stored := ⟨[], rfl, lists_nil, by simp⟩
      held := by simp [start]
      worker := rfl
      link := rfl }
  obtain ⟨⟨trace', r', run', hall⟩, _⟩ := proxied_refines same
    (.cons step₁ (.cons step₂ (.cons step₃ (.cons step₄ (.nil _)))))
  exact ⟨x86, _, trace', r', rfl, run', hall⟩

end AirTraffic.Cli
