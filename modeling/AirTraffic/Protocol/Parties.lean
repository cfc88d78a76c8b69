/-
  Protocol/Parties.lean --- the calls of `proto.c`, one transport call at a time.

  WHAT THIS FILE IS FOR.  `Proto.lean` gives `atc_request` and `atc_reply` as
  functions of the state of a transport, one after the other.  When both sides run
  at the same time, what matters is where each of them stops for the other: a
  `Proc` is what a function still does, up to its next `transport_send` or
  `transport_recv`.  Here the functions of `proto.c` are given once more in this
  form, and over every transport they do what they do in `Proto.lean`
  (`run_requestProc`, `run_replyProc`).
-/
import AirTraffic.Protocol.Proto

set_option autoImplicit false

namespace AirTraffic.Protocol

open AirTraffic.Foundation AirTraffic.Atcd

/-- What a function still does with its transport. -/
inductive Proc (ρ : Type) where
  | done (result : ρ)
  | send (data : Bytes) (rest : Int32 → Proc ρ)
  | recv (buffer : Bytes) (rest : Int32 → Bytes → Proc ρ)

namespace Proc

variable {ρ τ σ : Type}

/-- One function after another. -/
def bind : Proc ρ → (ρ → Proc τ) → Proc τ
  | done result, next => next result
  | send data rest, next => send data fun sent => (rest sent).bind next
  | recv buffer rest, next => recv buffer fun received got => (rest received got).bind next

/-- Every call goes to one transport. -/
def run (transport : Transport σ) : Proc ρ → σ → ρ × σ
  | done result, link => (result, link)
  | send data rest, link =>
      let (sent, link) := transport.send data link
      (rest sent).run transport link
  | recv buffer rest, link =>
      let (received, buffer, link) := transport.recv buffer link
      (rest received buffer).run transport link

theorem run_bind (transport : Transport σ) (proc : Proc ρ) (next : ρ → Proc τ) (link : σ) :
    (proc.bind next).run transport link =
      (next (proc.run transport link).1).run transport (proc.run transport link).2 := by
  induction proc generalizing link with
  | done result => rfl
  | send data rest ih => exact ih _ _
  | recv buffer rest ih => exact ih _ _ _

end Proc

section Proto

variable {σ τ : Type} (transport : Transport σ)

/-! ## Bodies -/

/-- The loop of `_atc_read_planes` and `_atc_read_airports`. -/
def readItemsProc (decode : Bytes → Bytes) (stride : Nat) :
    Nat → Nat → Bytes → AtcRes → Proc (Bool × AtcRes)
  | 0, _, _, res => .done (true, res)
  | left + 1, idx, buffer, res =>
      .recv buffer fun received buffer =>
        if received = -1 then .done (false, res)
        else
          readItemsProc decode stride left (idx + 1) buffer
            { res with msg := writeAt res.msg (idx * stride) (decode buffer) }

/-- The loop of `_atc_write_planes` and `_atc_write_airports`. -/
def writeItemsProc (encode : Nat → Bytes → Bytes) : Nat → Nat → Bytes → Proc Bool
  | 0, _, _ => .done true
  | left + 1, idx, buffer =>
      .send ((encode idx buffer).take atcpMsgLen) fun sent =>
        if sent = -1 then .done false
        else writeItemsProc encode left (idx + 1) (encode idx buffer)

/-- `_atc_read_planes` or `_atc_read_airports` -/
def readBodyProc (decode : Bytes → Bytes) (stride : Nat) (buffer : Bytes) (res : AtcRes) :
    Proc (Int32 × AtcRes) :=
  (readItemsProc decode stride (rounds res.len.toInt32) 0 buffer res).bind
    fun (complete, got) => .done (if complete then res.len.toInt32 else -1, got)

/-- `_atc_write_planes` or `_atc_write_airports` -/
def writeBodyProc (encode : Nat → Bytes → Bytes) (buffer : Bytes) (res : AtcRes) :
    Proc Int32 :=
  (writeItemsProc encode (rounds res.len.toInt32) 0 buffer).bind
    fun complete => .done (if complete then res.len.toInt32 else -1)

theorem run_readItemsProc (decode : Bytes → Bytes) (stride : Nat) (left idx : Nat)
    (buffer : Bytes) (res : AtcRes) (link : σ) :
    readItems transport decode stride left idx buffer res link =
      let ((complete, got), link) :=
        (readItemsProc decode stride left idx buffer res).run transport link
      (complete, got, link) := by
  induction left generalizing idx buffer res link with
  | zero => rfl
  | succ left ih =>
      simp only [readItems, readItemsProc, Proc.run]
      by_cases hfailed : (transport.recv buffer link).1 = -1
      · simp only [if_pos hfailed, Proc.run]
      · simp only [if_neg hfailed]
        exact ih _ _ _ _

theorem run_writeItemsProc (encode : Nat → Bytes → Bytes) (left idx : Nat) (buffer : Bytes)
    (link : σ) :
    writeItems transport encode left idx buffer link =
      (writeItemsProc encode left idx buffer).run transport link := by
  induction left generalizing idx buffer link with
  | zero => rfl
  | succ left ih =>
      simp only [writeItems, writeItemsProc, Proc.run]
      by_cases hfailed :
          (transport.send ((encode idx buffer).take atcpMsgLen) link).1 = -1
      · simp only [if_pos hfailed, Proc.run]
      · simp only [if_neg hfailed]
        exact ih _ _ _

/-! ## Responses -/

/-- `_atc_read_response` -/
def readResponseProc (stack : Stack) (res : AtcRes) : Proc (Int32 × AtcRes) :=
  .recv stack.header.toList fun received buffer =>
    if received = -1 then .done (-1, res)
    else
      let (size, res) := atcHeaderToRes res buffer
      if size = -1 then .done (-1, res)
      else if res.type = atcAck then .done (0, res)
      else if res.type = atcPlanes then
        readBodyProc decodePlane sizeofPlane stack.body.toList res
      else if res.type = atcAirports then
        readBodyProc decodeAirport sizeofAirport stack.body.toList res
      else .done (-1, res)

/-- `_atc_write_response` -/
def writeResponseProc (stack : Stack) (res : AtcRes) : Proc Int32 :=
  .send (atcResToHeader res stack.header.toList).2 fun sent =>
    if sent = -1 then .done (-1)
    else if res.type = atcAck then .done 0
    else if res.type = atcPlanes then writeBodyProc (encodePlane res.msg) stack.body.toList res
    else if res.type = atcAirports then
      writeBodyProc (encodeAirport res.msg) stack.body.toList res
    else .done (-1)

theorem run_readResponseProc (stack : Stack) (res : AtcRes) (link : σ) :
    atcReadResponse transport stack res link =
      let ((response, got), link) := (readResponseProc stack res).run transport link
      (response, got, link) := by
  simp only [atcReadResponse, readResponseProc, Proc.run]
  split
  · rfl
  · split
    · rfl
    · split
      · rfl
      · split
        · simp only [atcReadPlanes, readBodyProc, Proc.run_bind, Proc.run,
            run_readItemsProc transport decodePlane]
        · split
          · simp only [atcReadAirports, readBodyProc, Proc.run_bind, Proc.run,
              run_readItemsProc transport decodeAirport]
          · rfl

theorem run_writeResponseProc (stack : Stack) (res : AtcRes) (link : σ) :
    atcWriteResponse transport stack res link =
      (writeResponseProc stack res).run transport link := by
  simp only [atcWriteResponse, writeResponseProc, Proc.run]
  split
  · rfl
  · split
    · rfl
    · split
      · simp only [atcWritePlanes, writeBodyProc, Proc.run_bind, Proc.run, run_writeItemsProc]
      · split
        · simp only [atcWriteAirports, writeBodyProc, Proc.run_bind, Proc.run,
            run_writeItemsProc]
        · rfl

/-! ## Requests -/

/-- `atc_request` -/
def requestProc (stack : Stack) (conn : AtcConn) : Proc (Int32 × AtcConn) :=
  .send ((atcReqToWire conn.req stack.message.toList).wire.take atcpMsgLen) fun sent =>
    if sent = -1 then .done (-1, conn)
    else
      (readResponseProc stack conn.res).bind fun (response, res) =>
        .done (response, { conn with res := res })

/-- `atc_reply`; `none` if the handler does not return. -/
def replyProc (stack : Stack) (handler : AtcReplyHandler τ) (server : τ) :
    Proc (Option (Int32 × AtcConn × τ)) :=
  .recv stack.message.toList fun response buffer =>
    match handler { req := (atcWireToReq buffer).1, res := zeroRes } server with
    | none => .done none
    | some (handled, conn, server) =>
        let conn := { conn with res := settledRes handled conn.res }
        (writeResponseProc stack conn.res).bind fun _ =>
          .done (some (if handled = -1 then -1 else response, conn, server))

/-- Over every transport, `requestProc` is `atc_request`. -/
theorem run_requestProc (stack : Stack) (conn : AtcConn) (link : σ) :
    atcRequest transport stack conn link =
      let ((response, conn), link) := (requestProc stack conn).run transport link
      (response, conn, link) := by
  rcases hsend : transport.send ((atcReqToWire conn.req stack.message.toList).wire.take
    atcpMsgLen) link with ⟨sent, link'⟩
  simp only [atcRequest, sendRequest, requestProc, Proc.run, hsend]
  by_cases hfailed : sent = -1
  · simp only [if_pos hfailed, Proc.run]
  · simp only [if_neg hfailed, Proc.run_bind, Proc.run, run_readResponseProc]

/-- Over every transport, `replyProc` is `atc_reply`. -/
theorem run_replyProc (stack : Stack) (handler : AtcReplyHandler τ) (server : τ) (link : σ) :
    atcReply transport stack handler server link =
      let (result, link) := (replyProc stack handler server).run transport link
      result.map fun (response, conn, server) => (response, conn, server, link) := by
  simp only [atcReply, receiveRequest, replyProc, Proc.run]
  split
  · rename_i hnone
    simp only [hnone, Option.map_none, Proc.run]
  · rename_i handled conn server' hsome
    simp only [hsome, Option.map_some, Proc.run_bind, Proc.run, run_writeResponseProc]

end Proto

end AirTraffic.Protocol
