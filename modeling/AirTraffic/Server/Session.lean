/-
  Server/Session.lean --- a client and its worker over a reliable byte stream.

  WHAT THIS FILE IS FOR.  An exchange is one `atc_request` answered by one
  `atc_reply` with `reply_handler`; a session is a sequence of exchanges on one
  connection.  The client waits for its answer before it does anything else, so
  an exchange is its request, then the whole reply, then its reading of the
  response.  `exchange_lockstep` is one exchange, `session_lockstep` the session:
  each side takes exactly the bytes the other one wrote.
-/
import AirTraffic.Server.Serve

set_option autoImplicit false

namespace AirTraffic.Server

open AirTraffic.Foundation AirTraffic.Storage AirTraffic.Atcd AirTraffic.Protocol

/-- One request of a client: what it asks, when it is served, and what the stack
buffers of the two calls hold. -/
structure Call where
  req : AtcReq
  moment : Moment
  clientStack : Stack
  serverStack : Stack

/-- What is seen of one exchange, in order. -/
structure Exchange where
  /-- The link after the client sent its request. -/
  sent : Link
  /-- The request as the server decoded it. -/
  decoded : AtcReq
  /-- The response the server settled on. -/
  settled : AtcRes
  /-- The worker after it replied. -/
  worker : Worker
  /-- The link after the server replied. -/
  answered : Link
  /-- The response as the client decoded it. -/
  got : AtcRes
  /-- The link after the client read its response. -/
  done : Link

section Session

variable [Platform]

/-- `atc_request` on one side and `atc_reply` on the other; `res` is the memory
into which the client decodes. -/
def exchange (call : Call) (res : AtcRes) (worker : Worker) (link : Link) : Option Exchange :=
  let (_, sent) := sendRequest Link.clientEnd call.clientStack call.req link
  (atcReply Link.serverEnd call.serverStack (replyHandler call.moment) worker sent).map
    fun (_, conn, worker, answered) =>
      let (_, got, done) := atcReadResponse Link.clientEnd call.clientStack res answered
      { sent, answered, worker, got, done
        decoded := (receiveRequest Link.serverEnd call.serverStack sent).2.1
        settled := conn.res }

/-- Exchange after exchange, on one link. -/
def session : List Call → AtcRes → Worker → Link → Option (List Exchange)
  | [], _, _, _ => some []
  | call :: rest, res, worker, link =>
      (exchange call res worker link).bind fun e =>
        (session rest e.got e.worker e.done).map fun es => e :: es

/-- The requests served one after the other, without a wire between. -/
def serveAll : List Call → Worker → Option (List (AtcRes × Worker))
  | [], _ => some []
  | call :: rest, worker =>
      (serve call.moment (reqOverWire call.req) worker).bind fun answer =>
        (serveAll rest answer.2).map fun answers => answer :: answers

/-- A plane whose padding is zeroed, as a message leaves it. -/
def clearPad (plane : AtcPlane) : AtcPlane :=
  { plane with pad := List.Vector.replicate 2 0 }

/-- An exchange in lockstep, for the answer that the request is served with. -/
structure Lockstep (call : Call) (answer : AtcRes × Worker) (e : Exchange) : Prop where
  /-- The request is under way, and nothing else. -/
  sent : e.sent = { toServer := reqFormat call.req, toClient := [] }
  /-- The server took exactly the request. -/
  consumed : e.answered.toServer = []
  type : e.decoded.type = call.req.type
  plane : carriesPlane call.req.type = true → e.decoded.plane = clearPad call.req.plane
  settled : (e.settled, e.worker) = answer
  gotType : e.got.type = e.settled.type
  gotCode : e.settled.type = atcAck → e.got.returnCode = e.settled.returnCode
  gotCount : e.settled.type ≠ atcAck → e.got.len = e.settled.len
  gotPlanes : e.settled.type = atcPlanes → resPlanes e.got = (resPlanes e.settled).map clearPad
  gotAirports : e.settled.type = atcAirports → resAirports e.got = resAirports e.settled
  /-- The client took exactly the response. -/
  done : e.done = Link.empty

/-- The times of an exchange that has to go over the wire. -/
structure TimesFit (call : Call) (answer : AtcRes × Worker) : Prop where
  req : carriesPlane call.req.type = true → TimeFits call.req.plane
  res : answer.1.type = atcPlanes → ∀ plane ∈ resPlanes answer.1, TimeFits plane

instance (call : Call) (answer : AtcRes × Worker) : Decidable (TimesFit call answer) :=
  decidable_of_iff
    ((carriesPlane call.req.type = true → TimeFits call.req.plane) ∧
      (answer.1.type = atcPlanes → ∀ plane ∈ resPlanes answer.1, TimeFits plane))
    ⟨fun ⟨req, res⟩ => ⟨req, res⟩, fun fit => ⟨fit.req, fit.res⟩⟩

omit [Platform] in
theorem receiveRequest_link (stack : Stack) (req : AtcReq) :
    receiveRequest Link.serverEnd stack { toServer := reqFormat req, toClient := [] } =
      (64, reqOverWire req, Link.empty) := by
  have hlen := stack.message.toList_length
  have hreceive := Link.receive_append (reqFormat req) [] stack.message.toList
    (by rw [length_reqFormat, hlen])
  rw [List.append_nil, hlen] at hreceive
  simp only [receiveRequest, Link.serverEnd, hreceive, atcWireToReq_reqFormat]
  rfl

omit [Platform] in
theorem sendRequest_link (stack : Stack) (req : AtcReq) :
    sendRequest Link.clientEnd stack req Link.empty =
      (0, { toServer := reqFormat req, toClient := [] }) := by
  rw [sendRequest, take_atcReqToWire req stack.message.toList_length]
  rfl

/-- **One exchange.** -/
theorem exchange_lockstep {call : Call} {worker : Worker} {answer : AtcRes × Worker}
    (hserve : serve call.moment (reqOverWire call.req) worker = some answer)
    (fit : TimesFit call answer) (res : AtcRes) :
    ∃ e, exchange call res worker Link.empty = some e ∧ Lockstep call answer e := by
  obtain ⟨settled, worker'⟩ := answer
  have hknown := serve_known hserve
  obtain ⟨⟨handled, conn, worker''⟩, hhandler, heq⟩ := Option.map_eq_some_iff.mp hserve
  obtain ⟨rfl, rfl⟩ := Prod.mk.inj heq
  obtain ⟨stream, written, response, got, hwrite, hread, payload⟩ :=
    readResponse_writeResponse hknown call.serverStack call.clientStack [] res
  let e : Exchange :=
    { sent := { toServer := reqFormat call.req, toClient := [] }
      decoded := reqOverWire call.req
      settled := settledRes handled conn.res
      worker := worker''
      answered := { toServer := [], toClient := stream }
      got := got
      done := Link.empty }
  refine ⟨e, ?_, ?_⟩
  · rw [exchange, sendRequest_link]
    simp only [atcReply, receiveRequest_link, hhandler, Option.map_some, Link.empty, hwrite,
      hread]
    rfl
  · exact
      { sent := rfl
        consumed := rfl
        type := rfl
        plane := by
          intro hcarries
          have hplane : (reqOverWire call.req).plane = overWire call.req.plane :=
            if_pos hcarries
          exact hplane.trans (overWire_of_timeFits (fit.req hcarries))
        settled := rfl
        gotType := payload.type
        gotCode := payload.code
        gotCount := payload.count
        gotPlanes := by
          intro hplanes
          have hack : (settledRes handled conn.res).type ≠ atcAck := by
            rw [hplanes]
            decide
          rw [resPlanes, resPlanes, payload.count hack, List.map_map]
          apply List.map_congr_left
          intro idx hidx
          rw [payload.planes hplanes idx (List.mem_range.mp hidx)]
          exact overWire_of_timeFits (fit.res hplanes _ (List.mem_map_of_mem hidx))
        gotAirports := by
          intro hairports
          have hack : (settledRes handled conn.res).type ≠ atcAck := by
            rw [hairports]
            decide
          rw [resAirports, resAirports, payload.count hack]
          apply List.map_congr_left
          intro idx hidx
          exact payload.airports hairports idx (List.mem_range.mp hidx)
        done := rfl }

omit [Platform] in
/-- A plane out of the wire has its padding zeroed. -/
theorem named_reqOverWire {req : AtcReq} (hfree : carriesPlane req.type = true →
    NulFree req.plane.id.toList) (hcarries : carriesPlane (reqOverWire req).type = true) :
    (reqOverWire req).plane.Named := by
  have hplane : (reqOverWire req).plane = overWire req.plane := if_pos hcarries
  rw [hplane]
  exact ⟨hfree hcarries, rfl⟩

/-- On a file that lists planes every request is served. -/
theorem serveAll_lists {calls : List Call}
    (hfree : ∀ call ∈ calls, carriesPlane call.req.type = true →
      NulFree call.req.plane.id.toList) :
    ∀ {worker : Worker} {file : Bytes} {fleet : List AtcPlane},
      worker.disk = Disk.sound file → Lists file fleet →
      ∃ answers, serveAll calls worker = some answers := by
  induction calls with
  | nil =>
      intro worker file fleet hdisk lists
      exact ⟨[], rfl⟩
  | cons call rest ih =>
      intro worker file fleet hdisk lists
      obtain ⟨res, worker', file', fleet', hserve, hdisk', lists'⟩ := serve_lists call.moment
        worker hdisk lists (named_reqOverWire (hfree call List.mem_cons_self))
      obtain ⟨answers, hrest⟩ := ih
        (fun other hmem => hfree other (List.mem_cons_of_mem call hmem)) hdisk' lists'
      exact ⟨(res, worker') :: answers, by rw [serveAll, hserve, Option.bind_some, hrest]; rfl⟩

/-- **Client and server stay in lockstep.**  When the handler returns from every
request, every exchange completes and is in lockstep with the answer its request
is served with; and on a file that lists planes the handler does return. -/
theorem session_lockstep (calls : List Call) (worker : Worker) :
    (∀ answers, serveAll calls worker = some answers →
      List.Forall₂ TimesFit calls answers → ∀ res : AtcRes,
      ∃ es, session calls res worker Link.empty = some es ∧
        List.Forall₂ (fun (call, answer) e => Lockstep call answer e)
          (calls.zip answers) es) ∧
    ((∀ call ∈ calls, carriesPlane call.req.type = true →
        NulFree call.req.plane.id.toList) →
      ∀ file fleet, worker.disk = Disk.sound file → Lists file fleet →
        ∃ answers, serveAll calls worker = some answers) := by
  refine ⟨?_, fun hfree file fleet hdisk lists => serveAll_lists hfree hdisk lists⟩
  intro answers hserve fits res
  induction fits generalizing worker res with
  | nil => exact ⟨[], rfl, .nil⟩
  | @cons call answer rest answers fit _ ih =>
      obtain ⟨first, hfirst, hmap⟩ := Option.bind_eq_some_iff.mp hserve
      obtain ⟨later, hlater, heq⟩ := Option.map_eq_some_iff.mp hmap
      obtain ⟨rfl, rfl⟩ := List.cons.inj heq
      obtain ⟨e, hexchange, lockstep⟩ := exchange_lockstep hfirst fit res
      have hworker : e.worker = first.2 := congrArg Prod.snd lockstep.settled
      obtain ⟨es, hsession, hall⟩ := ih first.2 hlater e.got
      refine ⟨e :: es, ?_, .cons lockstep hall⟩
      rw [session, hexchange, Option.bind_some, lockstep.done, hworker, hsession]
      rfl

end Session

/-- A client that joins, makes a plane, polls it, commands it and leaves. -/
def visit : List Call :=
  let plane := newPlane Chance.zero 0
  [AtcReqType.join, .createPlane, .getPlanes, .ascend, .leave].map fun type =>
    { req := { type := type.code, plane := plane }
      moment := { now := 0, chance := Chance.zero }
      clientStack := Stack.zero
      serverStack := Stack.zero }

theorem session_lockstep_visit :
    ∃ (_ : Platform) (answers : List (AtcRes × Worker)) (es : List Exchange),
      serveAll visit { counters := {}, disk := Disk.sound [] } = some answers ∧
        session visit zeroRes { counters := {}, disk := Disk.sound [] } Link.empty = some es ∧
        List.Forall₂ (fun (call, answer) e => Lockstep call answer e)
          (visit.zip answers) es := by
  let _ : Platform := x86
  have hserved : ((@serveAll x86 visit { counters := {}, disk := Disk.sound [] }).any
      fun answers => decide (List.Forall₂ TimesFit visit answers)) = true := by
    decide +kernel
  obtain ⟨answers, hserve, hfits⟩ := (Option.any_eq_true _ _).mp hserved
  obtain ⟨es, hsession, lockstep⟩ :=
    (session_lockstep visit { counters := {}, disk := Disk.sound [] }).1 answers hserve
      (of_decide_eq_true hfits) zeroRes
  exact ⟨x86, answers, es, hserve, hsession, lockstep⟩

end AirTraffic.Server
