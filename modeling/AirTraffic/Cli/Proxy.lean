/-
  Cli/Proxy.lean --- `cli.c`: the API of `atcd.c` over a connection.

  WHAT THIS FILE IS FOR.  The translation of the client's side of the game, one
  proxy for each function of the API.  A proxy sets the type of the request in
  the connection, sends it and takes its result from the response; the server
  answers in between.  Each proxy gets a specification: what the function it
  stands for does to the worker, and what arrives of the answer.
-/
import AirTraffic.Server.Session

set_option autoImplicit false

namespace AirTraffic.Cli

open AirTraffic.Foundation AirTraffic.Storage AirTraffic.Atcd AirTraffic.Protocol
open AirTraffic.Server

/-- A client, the worker that serves it, and the connection between them. -/
structure Remote where
  conn : AtcConn
  worker : Worker
  link : Link

/-- What a request meets on its way: when it is served, and what the stacks of
the two sides hold. -/
structure Trip where
  moment : Moment
  clientStack : Stack
  serverStack : Stack

section Proxy

variable [Platform]

/-- `atc_request(&conn)`, answered by the worker. -/
def Remote.ask (trip : Trip) (req : AtcReq) (r : Remote) : Option Remote :=
  let call :=
    { req := req
      moment := trip.moment
      clientStack := trip.clientStack
      serverStack := trip.serverStack }
  (exchange call r.conn.res r.worker r.link).map fun e =>
    { conn := { req := req, res := e.got }, worker := e.worker, link := e.done }

/-- A proxy whose request carries nothing new but its type. -/
def Remote.askFor (trip : Trip) (type : AtcReqType) (r : Remote) : Option Remote :=
  r.ask trip { r.conn.req with type := type.code }

/-! ## The proxies -/

/-- `get_airplanes`, with what it writes to the buffer -/
def getAirplanes (trip : Trip) (r : Remote) : Option ((Int32 × List AtcPlane) × Remote) :=
  (r.askFor trip .getPlanes).map fun r =>
    let res := r.conn.res
    (if res.type = atcAck then (res.returnCode, []) else (res.len.toInt32, resPlanes res), r)

/-- `get_crashed` -/
def getCrashed (trip : Trip) (r : Remote) : Option (Int32 × Remote) :=
  (r.askFor trip .getCrashed).map fun r => (r.conn.res.returnCode, r)

/-- `get_landed` -/
def getLanded (trip : Trip) (r : Remote) : Option (Int32 × Remote) :=
  (r.askFor trip .getLanded).map fun r => (r.conn.res.returnCode, r)

/-- `get_airports`, with what it writes to the buffer -/
def getAirports (trip : Trip) (r : Remote) : Option ((Int32 × List AtcAirport) × Remote) :=
  (r.askFor trip .getAirports).map fun r =>
    let res := r.conn.res
    (if res.returnCode = -1 then (res.returnCode, []) else (res.len.toInt32, resAirports res),
      r)

/-- `create_plane` -/
def createPlane (trip : Trip) (r : Remote) : Option Remote := r.askFor trip .createPlane

/-- `set`.  A command that is none is refused without a request. -/
def set (cmd : Int32) (plane : AtcPlane) (trip : Trip) (r : Remote) : Option (Int32 × Remote) :=
  match AtcCommand.ofCode cmd with
  | none => some (-1, r)
  | some cmd =>
      (r.ask trip { type := (AtcReqType.ofCommand cmd).code, plane := plane }).map fun r =>
        (r.conn.res.returnCode, r)

/-! ## What arrives -/

/-- A plane that goes over the wire as it is. -/
structure WireSafe (plane : AtcPlane) : Prop where
  pad : plane.pad = List.Vector.replicate 2 0
  time : TimeFits plane

omit [Platform] in
theorem WireSafe.overWire {plane : AtcPlane} (safe : WireSafe plane) :
    overWire plane = plane := overWire_eq safe.pad safe.time

omit [Platform] in
theorem WireSafe.clearPad {plane : AtcPlane} (safe : WireSafe plane) :
    clearPad plane = plane := by
  rw [Server.clearPad, ← safe.pad]

/-- The client's view of a response, against the one the server settled on. -/
structure Arrives (sent got : AtcRes) : Prop where
  type : got.type = sent.type
  code : sent.type = atcAck → got.returnCode = sent.returnCode
  count : sent.type ≠ atcAck → got.len = sent.len
  planes : sent.type = atcPlanes → resPlanes got = resPlanes sent
  airports : sent.type = atcAirports → resAirports got = resAirports sent

/-- The connection after a request: the worker has served it and nothing is under
way. -/
structure Answered (r : Remote) (worker : Worker) : Prop where
  worker : r.worker = worker
  link : r.link = Link.empty

/-- A request that is served gets its answer. -/
theorem ask_served {trip : Trip} {req : AtcReq} {r : Remote} {res : AtcRes} {worker : Worker}
    (hlink : r.link = Link.empty)
    (hserve : serve trip.moment (reqOverWire req) r.worker = some (res, worker))
    (hreq : carriesPlane req.type = true → WireSafe req.plane)
    (hres : res.type = atcPlanes → ∀ plane ∈ resPlanes res, WireSafe plane) :
    ∃ r', r.ask trip req = some r' ∧ Answered r' worker ∧ Arrives res r'.conn.res := by
  have fit : TimesFit ⟨req, trip.moment, trip.clientStack, trip.serverStack⟩ (res, worker) :=
    { req := fun hcarries => (hreq hcarries).time
      res := fun hplanes plane hmem => (hres hplanes plane hmem).time }
  obtain ⟨e, hexchange, lockstep⟩ := exchange_lockstep hserve fit r.conn.res
  obtain ⟨hsettled, hworker⟩ := Prod.mk.inj lockstep.settled
  refine ⟨_, by rw [Remote.ask, hlink, hexchange]; rfl, ⟨hworker, lockstep.done⟩, ?_⟩
  exact
    { type := by rw [lockstep.gotType, hsettled]
      code := fun hack => by rw [lockstep.gotCode (hsettled ▸ hack), hsettled]
      count := fun hack => by rw [lockstep.gotCount (hsettled ▸ hack), hsettled]
      planes := by
        intro hplanes
        rw [lockstep.gotPlanes (hsettled ▸ hplanes), hsettled]
        exact (List.map_congr_left fun plane hmem =>
          (hres hplanes plane hmem).clearPad).trans (List.map_id _)
      airports := fun hairports => by
        rw [lockstep.gotAirports (hsettled ▸ hairports), hsettled] }

omit [Platform] in
theorem reqOverWire_code {type : AtcReqType} (h : type.command = none) (plane : AtcPlane) :
    reqOverWire { type := type.code, plane := plane } =
      { type := type.code, plane := zeroPlane } := by
  have hnone : carriesPlane type.code = false := by
    rw [carriesPlane, AtcReqType.ofCode_code, Option.bind_some, h]
    rfl
  unfold reqOverWire
  simp only [hnone, Bool.false_eq_true, if_false]

/-- A request without a plane that is served gets its answer. -/
theorem askFor_served {trip : Trip} {type : AtcReqType} {r : Remote} {res : AtcRes}
    {worker : Worker} (hlink : r.link = Link.empty) (hcommand : type.command = none)
    (hserve : serve trip.moment { type := type.code, plane := zeroPlane } r.worker =
      some (res, worker))
    (hres : res.type = atcPlanes → ∀ plane ∈ resPlanes res, WireSafe plane) :
    ∃ r', r.askFor trip type = some r' ∧ Answered r' worker ∧ Arrives res r'.conn.res := by
  refine ask_served hlink (by rw [reqOverWire_code hcommand]; exact hserve) ?_ hres
  intro hcarries
  rw [carriesPlane, AtcReqType.ofCode_code, Option.bind_some, hcommand] at hcarries
  exact absurd hcarries (by decide)

omit [Platform] in
theorem ackRes_ne_planes (code : Int32) : (ackRes code).type ≠ atcPlanes := by
  rw [ackRes_type]
  decide

/-- A request that is acknowledged gets its code. -/
theorem askFor_ack {trip : Trip} {type : AtcReqType} {r : Remote} {code : Int32}
    {worker : Worker} (hlink : r.link = Link.empty) (hcommand : type.command = none)
    (hserve : serve trip.moment { type := type.code, plane := zeroPlane } r.worker =
      some (ackRes code, worker)) :
    ∃ r', r.askFor trip type = some r' ∧ Answered r' worker ∧
      r'.conn.res.returnCode = code := by
  obtain ⟨r', hask, answered, arrives⟩ := askFor_served hlink hcommand hserve
    fun hplanes => absurd hplanes (ackRes_ne_planes code)
  exact ⟨r', hask, answered, (arrives.code rfl).trans (ackRes_returnCode code)⟩

/-! ## What the proxies do -/

theorem getAirplanes_spec {trip : Trip} {r : Remote} {poll : PollResult}
    (hlink : r.link = Link.empty)
    (hpoll : Atcd.getAirplanes trip.moment.now r.worker.counters r.worker.disk = some poll)
    (hcount : poll.result = Int32.ofNat poll.buffer.length)
    (hmax : poll.buffer.length ≤ maxPlanes) (hsafe : ∀ plane ∈ poll.buffer, WireSafe plane) :
    ∃ r', getAirplanes trip r = some ((poll.result, poll.buffer), r') ∧
      Answered r' { counters := poll.counters, disk := poll.disk } := by
  have hplanes := resPlanes_planesRes hcount hmax
  have hserve := serve_getPlanes trip.moment zeroPlane r.worker
  rw [hpoll, Option.map_some] at hserve
  obtain ⟨r', hask, answered, arrives⟩ := askFor_served hlink rfl hserve
    fun _ plane hmem => hsafe plane (hplanes ▸ hmem)
  have htype := planesRes_type poll
  have hack : (planesRes poll).type ≠ atcAck := by
    rw [htype]
    decide
  have hok : poll.result ≠ -1 :=
    hcount ▸ ofNat_ne_neg_one (Nat.lt_of_le_of_lt hmax (by decide))
  have hlen : r'.conn.res.len.toInt32 = poll.result := by
    rw [arrives.count hack, planesRes]
    simp only [hok, if_false]
    exact Int32.toInt32_toUInt32 _
  refine ⟨r', ?_, answered⟩
  rw [getAirplanes, hask, Option.map_some]
  simp only [arrives.type, hack, if_false, hlen, arrives.planes htype, hplanes]

theorem getCrashed_spec (trip : Trip) {r : Remote} (hlink : r.link = Link.empty) :
    ∃ r', getCrashed trip r = some (Atcd.getCrashed r.worker.counters, r') ∧
      Answered r' r.worker := by
  obtain ⟨r', hask, answered, hcode⟩ := askFor_ack hlink rfl
    (serve_getCrashed trip.moment zeroPlane r.worker)
  exact ⟨r', by rw [getCrashed, hask, Option.map_some, hcode], answered⟩

theorem getLanded_spec (trip : Trip) {r : Remote} (hlink : r.link = Link.empty) :
    ∃ r', getLanded trip r = some (Atcd.getLanded r.worker.counters, r') ∧
      Answered r' r.worker := by
  obtain ⟨r', hask, answered, hcode⟩ := askFor_ack hlink rfl
    (serve_getLanded trip.moment zeroPlane r.worker)
  exact ⟨r', by rw [getLanded, hask, Option.map_some, hcode], answered⟩

omit [Platform] in
/-- `msg.return_code` is the `x` of the first airport. -/
theorem returnCode_of_airports {res : AtcRes} (h : resAirports res = airports) :
    res.returnCode = 1000 := by
  have hfirst := congrArg List.head? h
  rw [resAirports, List.head?_map] at hfirst
  cases hrange : (List.range (rounds res.len.toInt32)).head? with
  | none =>
      rw [hrange] at hfirst
      exact absurd hfirst (by simp [airports])
  | some idx =>
      obtain ⟨_, hidx⟩ := List.head?_eq_some_iff.mp hrange
      have hzero : idx = 0 := by
        cases hrounds : rounds res.len.toInt32 with
        | zero =>
            rw [hrounds] at hidx
            exact absurd hidx (by simp)
        | succ n =>
            rw [hrounds, List.range_succ_eq_map] at hidx
            exact (List.cons.inj hidx).1.symm
      rw [hrange, hzero] at hfirst
      exact congrArg AtcAirport.x (Option.some.inj hfirst)

theorem getAirports_spec (trip : Trip) {r : Remote} (hlink : r.link = Link.empty) :
    ∃ r', getAirports trip r = some (Atcd.getAirports, r') ∧ Answered r' r.worker := by
  obtain ⟨r', hask, answered, arrives⟩ := askFor_served hlink rfl
    (serve_getAirports trip.moment zeroPlane r.worker) fun hplanes => absurd hplanes (by decide)
  have hairports : resAirports r'.conn.res = airports :=
    (arrives.airports rfl).trans resAirports_airportsRes
  have hlen : r'.conn.res.len.toInt32 = 2 := by
    rw [arrives.count (by decide)]
    rfl
  have hcode : r'.conn.res.returnCode ≠ -1 := by
    rw [returnCode_of_airports hairports]
    decide
  refine ⟨r', ?_, answered⟩
  rw [getAirports, hask, Option.map_some]
  simp only [hcode, if_false, hlen, hairports]
  rfl

theorem createPlane_spec (trip : Trip) {r : Remote} (hlink : r.link = Link.empty) :
    ∃ r', createPlane trip r = some r' ∧
      Answered r'
        { r.worker with
          disk := Atcd.createPlane trip.moment.chance trip.moment.now r.worker.counters
            r.worker.disk } := by
  obtain ⟨r', hask, answered, _⟩ := askFor_ack hlink rfl
    (serve_createPlane trip.moment zeroPlane r.worker)
  exact ⟨r', hask, answered⟩

/-- A command is the `set` of the server, whose failure is the client's. -/
theorem set_spec (trip : Trip) {r : Remote} {cmd : Int32} {command : AtcCommand}
    {plane : AtcPlane} (hlink : r.link = Link.empty)
    (hcommand : AtcCommand.ofCode cmd = some command) (safe : WireSafe plane) :
    ∃ code r', set cmd plane trip r = some (code, r') ∧
      (code = -1 ↔ (Atcd.set cmd plane trip.moment.now r.worker.disk).1 = -1) ∧
      Answered r'
        { r.worker with
          disk := (Atcd.set cmd plane trip.moment.now r.worker.disk).2.2 } := by
  obtain rfl := AtcCommand.code_of_ofCode hcommand
  have hreq : reqOverWire { type := (AtcReqType.ofCommand command).code, plane := plane } =
      { type := (AtcReqType.ofCommand command).code, plane := plane } := by
    unfold reqOverWire
    simp only [carriesPlane_code (AtcReqType.command_ofCommand command), if_true,
      safe.overWire]
  have hserve := serve_command (AtcReqType.command_ofCommand command) trip.moment plane
    r.worker
  obtain ⟨r', hask, answered, arrives⟩ := ask_served hlink (by rw [hreq]; exact hserve)
    (fun _ => safe) fun hplanes => absurd hplanes (ackRes_ne_planes _)
  refine ⟨r'.conn.res.returnCode, r', ?_, ?_, answered⟩
  · rw [set, hcommand]
    simp only [hask, Option.map_some]
  · rw [arrives.code rfl, ackRes_returnCode]
    split
    · simp [*]
    · simp [*]

theorem set_unknown {trip : Trip} {r : Remote} {cmd : Int32}
    (hcommand : AtcCommand.ofCode cmd = none) (plane : AtcPlane) :
    set cmd plane trip r = some (-1, r) := by
  rw [set, hcommand]

end Proxy

end AirTraffic.Cli
