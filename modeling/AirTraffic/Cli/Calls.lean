/-
  Cli/Calls.lean --- `cli.c` over any transport.

  WHAT THIS FILE IS FOR.  In `Proxy.lean` the proxies run against a worker that
  answers.  Here they run over whatever connects them, so that it may fail or
  bring anything.  A proxy drops what `atc_request` returns and takes its result
  from the response in the connection, and `call_heard` says which one that is.
  With a worker behind the transport, these are the proxies of `Proxy.lean`
  (`proxied_over`).
-/
import AirTraffic.Cli.Api
import AirTraffic.Protocol.Reader

set_option autoImplicit false

namespace AirTraffic.Cli

open AirTraffic.Foundation AirTraffic.Storage AirTraffic.Atcd AirTraffic.Protocol
open AirTraffic.Server

/-! ## Results -/

/-- What `get_airplanes` takes from the response: the count, and the planes it
copies to the caller's buffer. -/
def planesReply (res : AtcRes) : Int32 × List AtcPlane :=
  if res.type = atcAck then (res.returnCode, []) else (res.len.toInt32, resPlanes res)

/-- What `get_airports` takes from the response: the count, and the airports it
copies to the caller's buffer. -/
def airportsReply (res : AtcRes) : Int32 × List AtcAirport :=
  if res.returnCode = -1 then (res.returnCode, []) else (res.len.toInt32, resAirports res)

namespace Over

variable {σ α : Type} (transport : Transport σ)

/-- A proxy: the request, and what is taken from the response. -/
def proxy (req : AtcReq) (reply : AtcRes → α) (stack : Stack) (conn : AtcConn) (link : σ) :
    α × AtcConn × σ :=
  let (_, conn, link) := atcRequest transport stack { conn with req := req } link
  (reply conn.res, conn, link)

/-- `get_airplanes` -/
def getAirplanes (stack : Stack) (conn : AtcConn) (link : σ) :
    (Int32 × List AtcPlane) × AtcConn × σ :=
  proxy transport { conn.req with type := AtcReqType.getPlanes.code } planesReply stack conn link

/-- `get_crashed` -/
def getCrashed (stack : Stack) (conn : AtcConn) (link : σ) : Int32 × AtcConn × σ :=
  proxy transport { conn.req with type := AtcReqType.getCrashed.code } AtcRes.returnCode stack
    conn link

/-- `get_landed` -/
def getLanded (stack : Stack) (conn : AtcConn) (link : σ) : Int32 × AtcConn × σ :=
  proxy transport { conn.req with type := AtcReqType.getLanded.code } AtcRes.returnCode stack
    conn link

/-- `get_airports` -/
def getAirports (stack : Stack) (conn : AtcConn) (link : σ) :
    (Int32 × List AtcAirport) × AtcConn × σ :=
  proxy transport { conn.req with type := AtcReqType.getAirports.code } airportsReply stack conn
    link

/-- `create_plane` -/
def createPlane (stack : Stack) (conn : AtcConn) (link : σ) : Unit × AtcConn × σ :=
  proxy transport { conn.req with type := AtcReqType.createPlane.code } (fun _ => ()) stack conn
    link

/-- `set` -/
def set (cmd : Int32) (plane : AtcPlane) (stack : Stack) (conn : AtcConn) (link : σ) :
    Int32 × AtcConn × σ :=
  match AtcCommand.ofCode cmd with
  | none => (-1, conn, link)
  | some cmd =>
      proxy transport { type := (AtcReqType.ofCommand cmd).code, plane := plane }
        AtcRes.returnCode stack conn link

/-- A call of the API. -/
def call (stack : Stack) (conn : AtcConn) (link : σ) : ApiCall → ApiReply × AtcConn × σ
  | .getAirplanes =>
      let ((count, buff), conn, link) := getAirplanes transport stack conn link
      (.planes count buff, conn, link)
  | .getCrashed =>
      let (count, conn, link) := getCrashed transport stack conn link
      (.value count, conn, link)
  | .getLanded =>
      let (count, conn, link) := getLanded transport stack conn link
      (.value count, conn, link)
  | .getAirports =>
      let ((count, buff), conn, link) := getAirports transport stack conn link
      (.airports count buff, conn, link)
  | .createPlane =>
      let (_, conn, link) := createPlane transport stack conn link
      (.done, conn, link)
  | .set cmd plane =>
      let (code, conn, link) := set transport cmd plane stack conn link
      (.set code plane, conn, link)

end Over

/-! ## A call as one request -/

/-- The request a call makes, given what the last one left in the connection;
`set` makes none for a command that is none. -/
def ApiCall.req (held : AtcReq) : ApiCall → Option AtcReq
  | .getAirplanes => some { held with type := AtcReqType.getPlanes.code }
  | .getCrashed => some { held with type := AtcReqType.getCrashed.code }
  | .getLanded => some { held with type := AtcReqType.getLanded.code }
  | .getAirports => some { held with type := AtcReqType.getAirports.code }
  | .createPlane => some { held with type := AtcReqType.createPlane.code }
  | .set cmd plane =>
      (AtcCommand.ofCode cmd).map fun cmd =>
        { type := (AtcReqType.ofCommand cmd).code, plane := plane }

/-- What a call takes from the response. -/
def ApiCall.reply (res : AtcRes) : ApiCall → ApiReply
  | .getAirplanes => .planes (planesReply res).1 (planesReply res).2
  | .getCrashed => .value res.returnCode
  | .getLanded => .value res.returnCode
  | .getAirports => .airports (airportsReply res).1 (airportsReply res).2
  | .createPlane => .done
  | .set _ plane => .set res.returnCode plane

/-- The reply to a call that is refused without a request. -/
def ApiCall.refusal : ApiCall → ApiReply
  | .set _ plane => .set (-1) plane
  | _ => .done

section Over

variable {σ : Type} {transport : Transport σ}

/-- A call is its request, and what it takes from the response. -/
theorem call_eq (stack : Stack) (conn : AtcConn) (link : σ) (call : ApiCall) :
    Over.call transport stack conn link call =
      match call.req conn.req with
      | none => (call.refusal, conn, link)
      | some req =>
          let (_, conn, link) := atcRequest transport stack { conn with req := req } link
          (call.reply conn.res, conn, link) := by
  cases call with
  | getAirplanes | getCrashed | getLanded | getAirports | createPlane => rfl
  | set cmd plane =>
      simp only [Over.call, Over.set, ApiCall.req, ApiCall.refusal]
      cases AtcCommand.ofCode cmd with
      | none => rfl
      | some cmd => rfl

/-- **What a call returns** is read off the response before, with what the call
heard laid over it. -/
theorem call_heard {stack : Stack} {conn : AtcConn} {link : σ} {call : ApiCall} {req : AtcReq}
    (hreq : call.req conn.req = some req) :
    (Over.call transport stack conn link call).1 =
        call.reply ((heard transport stack req link).onto conn.res) ∧
      (Over.call transport stack conn link call).2.1 =
        { req := req, res := (heard transport stack req link).onto conn.res } ∧
      (Over.call transport stack conn link call).2.2 =
        (atcRequest transport stack { conn with req := req } link).2.2 := by
  have hconn := atcRequest_heard transport stack { conn with req := req } link
  rw [call_eq, hreq]
  refine ⟨?_, hconn, rfl⟩
  dsimp only
  rw [hconn]

end Over

/-! ## A worker behind the transport -/

section Embed

variable {σ τ : Type} {inner : Transport σ} {outer : Transport τ} {embed : σ → τ}

/-- One transport receives what another one does, in a larger state. -/
def Embeds (inner : Transport σ) (outer : Transport τ) (embed : σ → τ) : Prop :=
  ∀ buffer link, outer.recv buffer (embed link) =
    ((inner.recv buffer link).1, (inner.recv buffer link).2.1,
      embed (inner.recv buffer link).2.2)

theorem readItems_embed (h : Embeds inner outer embed) (decode : Bytes → Bytes)
    (stride : Nat) : ∀ (left idx : Nat) (buffer : Bytes) (res : AtcRes) (link : σ),
      readItems outer decode stride left idx buffer res (embed link) =
        ((readItems inner decode stride left idx buffer res link).1,
          (readItems inner decode stride left idx buffer res link).2.1,
          embed (readItems inner decode stride left idx buffer res link).2.2) := by
  intro left
  induction left with
  | zero => intro idx buffer res link; rfl
  | succ left ih =>
      intro idx buffer res link
      simp only [readItems, h buffer link]
      by_cases hfailed : (inner.recv buffer link).1 = -1
      · simp only [hfailed, if_true]
      · simp only [hfailed, if_false, ih]

theorem atcReadResponse_embed (h : Embeds inner outer embed) (stack : Stack) (res : AtcRes)
    (link : σ) :
    atcReadResponse outer stack res (embed link) =
      ((atcReadResponse inner stack res link).1, (atcReadResponse inner stack res link).2.1,
        embed (atcReadResponse inner stack res link).2.2) := by
  simp only [atcReadResponse, h stack.header.toList link]
  split
  · rfl
  · split
    · rfl
    · split
      · rfl
      · split
        · simp only [atcReadPlanes, readItems_embed h]
        · split
          · simp only [atcReadAirports, readItems_embed h]
          · rfl

end Embed

section Served

variable [Platform]

/-- A transport with a worker at its other end, which answers what is sent.
There is no worker left once one does not return from a request. -/
def servedBy (trip : Trip) : Transport (Option (Worker × Link)) where
  send data peer :=
    (0, peer.bind fun (worker, link) =>
      (atcReply Link.serverEnd trip.serverStack (replyHandler trip.moment) worker
        (Link.clientEnd.send data link).2).map fun (_, _, worker, link) => (worker, link))
  recv buffer peer :=
    match peer with
    | none => (-1, buffer, none)
    | some (worker, link) =>
        let (count, buffer, link) := Link.clientEnd.recv buffer link
        (count, buffer, some (worker, link))

/-- What a call over `servedBy` leaves behind. -/
def remoteOf {α : Type} : α × AtcConn × Option (Worker × Link) → Option (α × Remote)
  | (reply, conn, peer) =>
      peer.map fun (worker, link) => (reply, { conn := conn, worker := worker, link := link })

/-- `atc_request` with a worker behind the transport is the request that
`Proxy.lean` makes. -/
theorem ask_over (trip : Trip) (req : AtcReq) (r : Remote) :
    (r.ask trip req).map (fun r' => ((), r')) =
      remoteOf (Over.proxy (servedBy trip) req (fun _ => ()) trip.clientStack r.conn
        (some (r.worker, r.link))) := by
  have hsent : ¬ (0 : Int32) = -1 := by decide
  simp only [Remote.ask, exchange, Over.proxy, atcRequest, sendRequest, servedBy,
    Option.bind_some, hsent, if_false]
  cases hreply : atcReply Link.serverEnd trip.serverStack (replyHandler trip.moment) r.worker
      (Link.clientEnd.send ((atcReqToWire req trip.clientStack.message.toList).wire.take
        atcpMsgLen) r.link).2 with
  | none =>
      have hgone : ∀ res, (atcReadResponse (servedBy trip) trip.clientStack res none).2.2 =
          none := by
        intro res
        simp only [atcReadResponse, servedBy, if_true]
      have hnone := hgone r.conn.res
      simp only [servedBy] at hnone
      simp only [Option.map_none, remoteOf, hnone]
  | some answer =>
      obtain ⟨handled, conn, worker, answered⟩ := answer
      have embeds : Embeds Link.clientEnd (servedBy trip) fun link => some (worker, link) :=
        fun buffer link => rfl
      have hread := atcReadResponse_embed embeds trip.clientStack r.conn.res answered
      simp only [servedBy] at hread
      simp only [Option.map_some, remoteOf, hread]

/-- A proxy of `Proxy.lean` is its request too. -/
theorem proxied_eq (q : ApiRequest) (r : Remote) :
    proxied q r =
      match q.call.req r.conn.req with
      | none => some (q.call.refusal, r)
      | some req =>
          (r.ask q.trip req).map fun r' => (q.call.reply r'.conn.res, r') := by
  obtain ⟨call, trip⟩ := q
  cases call with
  | getAirplanes =>
      simp only [proxied, getAirplanes, Remote.askFor, Option.map_map, ApiCall.req,
        ApiCall.reply]
      rfl
  | getCrashed | getLanded =>
      simp only [proxied, getCrashed, getLanded, Remote.askFor, Option.map_map, ApiCall.req,
        ApiCall.reply]
      rfl
  | getAirports =>
      simp only [proxied, getAirports, Remote.askFor, Option.map_map, ApiCall.req,
        ApiCall.reply]
      congr 1
  | createPlane =>
      simp only [proxied, createPlane, Remote.askFor, ApiCall.req, ApiCall.reply]
  | set cmd plane =>
      simp only [proxied, set, ApiCall.req, ApiCall.refusal, ApiCall.reply]
      cases AtcCommand.ofCode cmd with
      | none => rfl
      | some command =>
          simp only [Option.map_some, Option.map_map]
          rfl

/-- **The proxies with a worker behind the transport.** -/
theorem proxied_over (q : ApiRequest) (r : Remote) :
    proxied q r =
      remoteOf (Over.call (servedBy q.trip) q.trip.clientStack r.conn
        (some (r.worker, r.link)) q.call) := by
  rw [proxied_eq, call_eq]
  cases q.call.req r.conn.req with
  | none => rfl
  | some req =>
      have hask := congrArg (Option.map fun a => (q.call.reply a.2.conn.res, a.2))
        (ask_over q.trip req r)
      rw [Option.map_map] at hask
      refine hask.trans ?_
      dsimp only [Over.proxy]
      obtain ⟨_, conn, peer⟩ := atcRequest (servedBy q.trip) q.trip.clientStack
        { r.conn with req := req } (some (r.worker, r.link))
      cases peer with
      | none => rfl
      | some peer => rfl

end Served

end AirTraffic.Cli
