/-
  Protocol/Meeting.lean --- the functions of `proto.c` over the blocking backends.

  WHAT THIS FILE IS FOR.  The backends make a sender wait for room and a receiver
  for data.  A call of `transport_send` or `transport_recv` is one message to the
  queues, the FIFOs and the sockets (`overMessages`), and one step for each byte to
  the shared memory (`overShmem`).  Two functions talk when each send meets a
  receive into a buffer of the same length (`Talks`); then they meet over every
  backend.  `response_feeds`: a response that is written meets the reading of a
  response, with the same payload.
-/
import AirTraffic.Foundation.StreamNetwork
import AirTraffic.Protocol.Parties
import AirTraffic.Protocol.Stream
import AirTraffic.Storage.Specs
import AirTraffic.Transport.Socket

set_option autoImplicit false

namespace AirTraffic.Protocol

open AirTraffic.Foundation AirTraffic.Storage AirTraffic.Atcd
open AirTraffic.Transport.Socket (SendLoop Sending)

/-! ## Backends -/

/-- What `transport_send` returns when it sent a buffer. -/
abbrev Status : Type := Bytes → Int32

/-- `mq_send` returns 0. -/
def queueStatus : Status := fun _ => 0

/-- The shared memory returns the number of bytes. -/
def shmemStatus : Status := fun data => Int32.ofNat data.length

/-- A FIFO returns what `write` returns, the number of bytes, and a socket 0 when its
loop has sent them all. -/
def streamStatus : Medium → Status
  | .pipe => fun data => Int32.ofNat data.length
  | .socket => fun _ => 0

/-- A buffer that is sent is not empty, and none is longer than `ATCP_MSG_LEN`. -/
structure Sized (data : Bytes) : Prop where
  pos : 0 < data.length
  le : data.length ≤ atcpMsgLen

/-- A message that is sent is not taken for a failure. -/
def Status.Sends (status : Status) : Prop := ∀ data : Bytes, Sized data → status data ≠ -1

theorem queueStatus_sends : queueStatus.Sends := by
  intro data _
  exact (by decide : (0 : Int32) ≠ -1)

theorem shmemStatus_sends : shmemStatus.Sends := by
  intro data sized
  exact ofNat_ne_neg_one (Nat.lt_of_le_of_lt sized.le (by decide))

theorem streamStatus_sends (medium : Medium) : (streamStatus medium).Sends := by
  cases medium with
  | pipe => exact shmemStatus_sends
  | socket => exact queueStatus_sends

/-! ## The loop of a socket -/

/-- The loop of `transport_send` has sent what its party has sent. -/
structure Sent {σ : Type} {ρ : Side → Type} (n : StreamNetwork UInt8 ρ) (side : Side)
    (data : Bytes) (rest : Party Bytes Nat (ρ side)) (l : SendLoop σ) : Prop where
  party : n.party side = .send data rest
  sending : Transport.Socket.Sending data l
  sent : n.sent side = l.accepted.length

/-- A round of the loop, when the socket takes some of the bytes, is a step of its
party; behind the last one `transport_send` returns and the party goes on. -/
theorem Sent.step {σ : Type} {ρ : Side → Type} {n : StreamNetwork UInt8 ρ} {side : Side}
    {data : Bytes} {rest : Party Bytes Nat (ρ side)} {l : SendLoop σ}
    {send : Bytes → σ → Int64 × σ} {capacity : Nat} (h : Sent n side data rest l)
    (sized : Sized data) {r : Int64} {socket : σ}
    (hsend : send (data.drop l.accepted.length) l.socket = (r, socket)) (hlow : 1 ≤ r.toInt)
    (hhigh : r.toInt ≤ (data.drop l.accepted.length).length)
    (room : r.toInt.toNat ≤ capacity - (n.wire side.other).length) :
    ∃ event m, StreamStep .socket capacity n event m ∧
      if (l.next send data).More (UInt64.ofNat data.length) then
        Sent m side data rest (l.next send data)
      else
        (l.next send data).result (UInt64.ofNat data.length) = streamStatus .socket data ∧
          m.party side = rest := by
  have small : data.length < 2 ^ 31 := Nat.lt_of_le_of_lt sized.le (by decide)
  obtain ⟨hnext, hlength⟩ := h.sending.next_sending small hsend hlow hhigh
  rw [List.length_drop] at hhigh
  have sends : Medium.socket.Sends (data.length - n.sent side)
      (capacity - (n.wire side.other).length) r.toInt.toNat := by
    rw [h.sent]
    exact ⟨by omega, by omega, room⟩
  have hmore := hnext.more_iff small
  have hsent := h.sent
  by_cases more : (l.next send data).accepted.length < data.length
  · refine ⟨_, _, .part h.party sends (by omega), ?_⟩
    rw [if_pos (hmore.mpr more)]
    exact
      { party := h.party
        sending := hnext
        sent := by simp [hsent, hlength] }
  · refine ⟨_, _, .last h.party sends (by omega), ?_⟩
    have hall : (l.next send data).accepted = data :=
      hnext.delivered.eq_of_length (by omega)
    rw [if_neg (mt hmore.mp more)]
    exact ⟨hnext.result_eq small hall, by simp⟩

namespace Proc

variable {ρ τ : Type}

/-- Whole messages; the slot is the length of the buffer.  `mq_receive` is told a size
that any message has room in, whatever the buffer is; the streams are asked for this
many bytes. -/
def overMessages (status : Status) : Proc ρ → Party Bytes Nat ρ
  | done result => .done result
  | send data rest => .send data ((rest (status data)).overMessages status)
  | recv buffer rest =>
      .recv buffer.length fun message =>
        (rest (Int32.ofNat message.length) (writeAt buffer 0 message)).overMessages status

/-- The loops over bytes of the shared memory. -/
def overShmem : Proc ρ → Party UInt8 Unit ρ
  | done result => .done result
  | send data rest => .sendAll data (rest (shmemStatus data)).overShmem
  | recv buffer rest =>
      .recvAll () buffer.length fun bytes =>
        (rest (Int32.ofNat bytes.length) (writeAt buffer 0 bytes)).overShmem

/-! ## Talks -/

/-- Each send of one side meets a receive of the other, into a buffer of the same
length. -/
inductive Talks (status : Status) : Proc ρ → Proc τ → ρ → τ → Prop
  | done (a : ρ) (b : τ) : Talks status (.done a) (.done b) a b
  | toRight {data buffer : Bytes} {left : Int32 → Proc ρ} {right : Int32 → Bytes → Proc τ}
      {a : ρ} {b : τ} (sized : Sized data) (whole : data.length = buffer.length)
      (rest : Talks status (left (status data)) (right (Int32.ofNat data.length) data) a b) :
      Talks status (.send data left) (.recv buffer right) a b
  | toLeft {data buffer : Bytes} {left : Int32 → Bytes → Proc ρ} {right : Int32 → Proc τ}
      {a : ρ} {b : τ} (sized : Sized data) (whole : data.length = buffer.length)
      (rest : Talks status (left (Int32.ofNat data.length) data) (right (status data)) a b) :
      Talks status (.recv buffer left) (.send data right) a b

variable {status : Status} {left : Proc ρ} {right : Proc τ} {a : ρ} {b : τ}

theorem Talks.bind {ρ' τ' : Type} {left' : ρ → Proc ρ'} {right' : τ → Proc τ'} {a' : ρ'}
    {b' : τ'} (talks : Talks status left right a b)
    (next : Talks status (left' a) (right' b) a' b') :
    Talks status (left.bind left') (right.bind right') a' b' := by
  induction talks with
  | done a b => exact next
  | toRight sized whole _ ih => exact .toRight sized whole (ih next)
  | toLeft sized whole _ ih => exact .toLeft sized whole (ih next)

/-- A message of the length of the buffer is the buffer afterwards. -/
theorem writeAt_whole {data buffer : Bytes} (whole : data.length = buffer.length) :
    writeAt buffer 0 data = data :=
  writeAt_zero_of_length_le (Nat.le_of_eq whole.symm)

/-- Message meets message, where one that is as long as its buffer fits. -/
theorem Talks.overMessages {fits : Nat → Bytes → Prop}
    (suits : ∀ data, Sized data → fits data.length data) (talks : Talks status left right a b) :
    Meets fits (left.overMessages status) (right.overMessages status) a b := by
  induction talks with
  | done a b => exact .done a b
  | @toRight data buffer left right a b sized whole _ ih =>
      refine .toRight (whole ▸ suits data sized) ?_
      rwa [writeAt_whole whole]
  | @toLeft data buffer left right a b sized whole _ ih =>
      refine .toLeft (whole ▸ suits data sized) ?_
      rwa [writeAt_whole whole]

/-- Over the shared memory byte meets byte. -/
theorem Talks.overShmem (talks : Talks shmemStatus left right a b) :
    Meets anyFits left.overShmem right.overShmem a b := by
  induction talks with
  | done a b => exact .done a b
  | @toRight data buffer left right a b _ whole _ ih =>
      rw [Proc.overShmem, Proc.overShmem, ← whole]
      refine .sendAll_recvAll (fun _ _ => trivial) ?_
      rwa [writeAt_whole whole]
  | @toLeft data buffer left right a b _ whole _ ih =>
      rw [Proc.overShmem, Proc.overShmem, ← whole]
      refine (Meets.sendAll_recvAll (fun _ _ => trivial) ?_).symm
      rw [writeAt_whole whole]
      exact ih.symm

/-! ## A writer and a reader -/

/-- A function that only writes and one that only reads, message by message, and
the bytes that go over. -/
inductive Feeds (status : Status) : Proc ρ → Proc τ → ρ → τ → Bytes → Prop
  | done (a : ρ) (b : τ) : Feeds status (.done a) (.done b) a b []
  | message {data buffer stream : Bytes} {reader : Int32 → Bytes → Proc ρ}
      {writer : Int32 → Proc τ} {a : ρ} {b : τ} (sized : Sized data)
      (whole : data.length = buffer.length)
      (rest : Feeds status (reader (Int32.ofNat data.length) data) (writer (status data)) a b
        stream) :
      Feeds status (.recv buffer reader) (.send data writer) a b (data ++ stream)

variable {reader : Proc ρ} {writer : Proc τ} {stream : Bytes}

theorem Feeds.bind {ρ' τ' : Type} {reader' : ρ → Proc ρ'} {writer' : τ → Proc τ'} {a' : ρ'}
    {b' : τ'} {later : Bytes} (feeds : Feeds status reader writer a b stream)
    (next : Feeds status (reader' a) (writer' b) a' b' later) :
    Feeds status (reader.bind reader') (writer.bind writer') a' b' (stream ++ later) := by
  induction feeds with
  | done a b => exact next
  | message sized whole _ ih =>
      rw [List.append_assoc]
      exact .message sized whole (ih next)

theorem Feeds.talks (feeds : Feeds status reader writer a b stream) :
    Talks status reader writer a b := by
  induction feeds with
  | done a b => exact .done a b
  | message sized whole _ ih => exact .toLeft sized whole ih

/-- Over the streams of a `Link` the writer puts these bytes on the way, and the
reader takes exactly them. -/
theorem Feeds.run_link (feeds : Feeds queueStatus reader writer a b stream)
    (toServer toClient rest : Bytes) :
    writer.run Link.serverEnd { toServer := toServer, toClient := toClient } =
        (b, { toServer := toServer, toClient := toClient ++ stream }) ∧
      reader.run Link.clientEnd { toServer := toServer, toClient := stream ++ rest } =
        (a, { toServer := toServer, toClient := rest }) := by
  induction feeds generalizing toClient with
  | done a b => simp [Proc.run]
  | @message data buffer stream reader writer a b _ whole _ ih =>
      obtain ⟨hwriter, hreader⟩ := ih (toClient ++ data)
      have hreceive := Link.receive_append data (stream ++ rest) buffer whole
      constructor
      · rw [← List.append_assoc]
        exact hwriter
      · rw [List.append_assoc]
        simp only [Proc.run, Link.clientEnd, hreceive]
        rw [← whole]
        exact hreader

end Proc

open Proc

/-- The loop that writes a body feeds the loop that reads it. -/
theorem items_feed (decode : Bytes → Bytes) (stride : Nat) {encode : Nat → Bytes → Bytes}
    (hencode : ∀ idx buffer, buffer.length = atcpMsgLen →
      (encode idx buffer).length = atcpMsgLen) (left idx : Nat) {readBuffer writeBuffer : Bytes}
    (hread : readBuffer.length = atcpMsgLen) (hwrite : writeBuffer.length = atcpMsgLen)
    (res : AtcRes) :
    ∃ got stream, ∀ status : Status, status.Sends →
      Feeds status (readItemsProc decode stride left idx readBuffer res)
        (writeItemsProc encode left idx writeBuffer) (true, got) true stream := by
  induction left generalizing idx readBuffer writeBuffer res with
  | zero => exact ⟨res, [], fun _ _ => .done _ _⟩
  | succ left ih =>
      have hlength := hencode idx writeBuffer hwrite
      have htake : (encode idx writeBuffer).take atcpMsgLen = encode idx writeBuffer :=
        List.take_of_length_le (Nat.le_of_eq hlength)
      obtain ⟨got, stream, hrest⟩ := ih (idx + 1) hlength hlength
        { res with
          msg := writeAt res.msg (idx * stride) (decode (encode idx writeBuffer)) }
      refine ⟨got, encode idx writeBuffer ++ stream, fun status sends => ?_⟩
      have hsized : Sized (encode idx writeBuffer) :=
        ⟨by rw [hlength]; decide, Nat.le_of_eq hlength⟩
      have hsent := sends _ hsized
      have hreceived : Int32.ofNat (encode idx writeBuffer).length ≠ -1 :=
        ofNat_ne_neg_one (by rw [hlength]; decide)
      rw [readItemsProc, writeItemsProc, htake]
      refine .message hsized (hlength.trans hread.symm) ?_
      rw [if_neg hreceived, if_neg hsent]
      exact hrest status sends

/-- The body of a response feeds the reading of as many items. -/
theorem body_feeds (decode : Bytes → Bytes) (stride : Nat) {encode : Nat → Bytes → Bytes}
    (hencode : ∀ idx buffer, buffer.length = atcpMsgLen →
      (encode idx buffer).length = atcpMsgLen) {readBuffer writeBuffer : Bytes}
    (hread : readBuffer.length = atcpMsgLen) (hwrite : writeBuffer.length = atcpMsgLen)
    {sent res : AtcRes} (hcount : res.len = sent.len) :
    ∃ got written stream, ∀ status : Status, status.Sends →
      Feeds status (readBodyProc decode stride readBuffer res)
        (writeBodyProc encode writeBuffer sent) got written stream := by
  obtain ⟨got, stream, hitems⟩ := items_feed decode stride hencode
    (rounds sent.len.toInt32) 0 hread hwrite res
  refine ⟨(sent.len.toInt32, got), sent.len.toInt32, stream ++ [], fun status sends => ?_⟩
  rw [readBodyProc, writeBodyProc, hcount]
  exact (hitems status sends).bind (.done _ _)

/-- A response is read as far as its header. -/
theorem feeds_header {sent : AtcRes} (htype : KnownType sent.type)
    (serverStack clientStack : Stack) (res : AtcRes) {status : Status} (sends : status.Sends)
    {got : Int32 × AtcRes} {written : Int32} {stream : Bytes}
    (body :
      let counted := { res with type := sent.type, len := sent.len }
      Feeds status
        (if sent.type = atcAck then
          .done (0, readHeader res sent.type (headerPayload sent))
        else if sent.type = atcPlanes then
          readBodyProc decodePlane sizeofPlane clientStack.body.toList counted
        else readBodyProc decodeAirport sizeofAirport clientStack.body.toList counted)
        (if sent.type = atcAck then .done 0
        else if sent.type = atcPlanes then
          writeBodyProc (encodePlane sent.msg) serverStack.body.toList sent
        else writeBodyProc (encodeAirport sent.msg) serverStack.body.toList sent)
        got written stream) :
    Feeds status (readResponseProc clientStack res) (writeResponseProc serverStack sent) got
      written (headerFormat sent ++ stream) := by
  have hlength := length_headerFormat sent
  have hkind : (readHeader res sent.type (headerPayload sent)).type = sent.type := by
    unfold readHeader
    split <;> rfl
  have hsized : Sized (headerFormat sent) :=
    ⟨by rw [hlength]; decide, by rw [hlength]; decide⟩
  have hsent := sends _ hsized
  have hreceived : Int32.ofNat (headerFormat sent).length ≠ -1 := by
    rw [hlength]
    decide
  have height : ¬ (8 : Int32) = -1 := by decide
  rw [readResponseProc, writeResponseProc, atcResToHeader_eq htype serverStack.header.toList_length]
  refine .message hsized (hlength.trans clientStack.header.toList_length.symm) ?_
  rw [if_neg hsent, if_neg hreceived, atcHeaderToRes_headerFormat htype]
  simp only [height, if_false, hkind]
  by_cases hack : sent.type = atcAck
  · simp only [if_pos hack] at body ⊢
    exact body
  · rw [readHeader_count hack]
    by_cases hplanes : sent.type = atcPlanes
    · simp only [if_neg hack, if_pos hplanes] at body ⊢
      exact body
    · have hairports := (htype.resolve_left hack).resolve_left hplanes
      simp only [if_neg hack, if_neg hplanes, if_pos hairports] at body ⊢
      exact body

/-- **A response that is written meets the reading of a response**, and arrives with
its type and payload. -/
theorem response_feeds {sent : AtcRes} (htype : KnownType sent.type)
    (serverStack clientStack : Stack) (res : AtcRes) :
    ∃ response got written stream, SamePayload sent got ∧
      ∀ status : Status, status.Sends →
        Feeds status (readResponseProc clientStack res) (writeResponseProc serverStack sent)
          (response, got) written stream := by
  obtain ⟨got, written, stream, hfeeds⟩ : ∃ got written stream, ∀ status : Status,
      status.Sends → Feeds status (readResponseProc clientStack res)
        (writeResponseProc serverStack sent) got written stream := by
    have hread := clientStack.body.toList_length
    have hwrite := serverStack.body.toList_length
    by_cases hack : sent.type = atcAck
    · refine ⟨(0, readHeader res sent.type (headerPayload sent)), 0, headerFormat sent ++ [],
        fun status sends => feeds_header htype _ _ res sends ?_⟩
      simp only [if_pos hack]
      exact .done _ _
    · by_cases hplanes : sent.type = atcPlanes
      · obtain ⟨got, written, stream, hbody⟩ := body_feeds decodePlane sizeofPlane
          (fun idx _ h => (encodePlane_spec sent.msg idx h).1) hread hwrite
          (show ({ res with type := sent.type, len := sent.len } : AtcRes).len = sent.len from rfl)
        refine ⟨got, written, headerFormat sent ++ stream,
          fun status sends => feeds_header htype _ _ res sends ?_⟩
        simp only [if_neg hack, if_pos hplanes]
        exact hbody status sends
      · obtain ⟨got, written, stream, hbody⟩ := body_feeds decodeAirport sizeofAirport
          (fun idx _ h => (encodeAirport_spec sent.msg idx h).1) hread hwrite
          (show ({ res with type := sent.type, len := sent.len } : AtcRes).len = sent.len from rfl)
        refine ⟨got, written, headerFormat sent ++ stream,
          fun status sends => feeds_header htype _ _ res sends ?_⟩
        simp only [if_neg hack, if_neg hplanes]
        exact hbody status sends
  -- over a link, this is the response that the client decodes
  obtain ⟨hwriter, hreader⟩ := (hfeeds queueStatus queueStatus_sends).run_link [] [] []
  obtain ⟨stream', written', response, decoded, hwrite, hread, hsame⟩ :=
    readResponse_writeResponse htype serverStack clientStack [] res
  rw [run_writeResponseProc, hwriter] at hwrite
  obtain ⟨_, hlink⟩ := Prod.mk.inj hwrite
  have hstream : stream = stream' := by simpa using hlink
  rw [List.append_nil, hstream] at hreader
  rw [run_readResponseProc, hreader] at hread
  obtain ⟨hresponse, hrest⟩ := Prod.mk.inj hread
  obtain ⟨hdecoded, _⟩ := Prod.mk.inj hrest
  refine ⟨response, decoded, written, stream, hsame, fun status sends => ?_⟩
  rw [← hresponse, ← hdecoded]
  exact hfeeds status sends

/-- **One exchange.**  A request and the reply to it talk, when the handler
returns; the client ends up with the payload that the server settled on. -/
theorem exchange_talks {τ : Type} {handler : AtcReplyHandler τ} {server server' : τ}
    {req : AtcReq} {handled : Int32} {conn : AtcConn}
    (handles : handler { req := reqOverWire req, res := zeroRes } server =
      some (handled, conn, server'))
    (htype : KnownType (settledRes handled conn.res).type) (clientStack serverStack : Stack)
    (res : AtcRes) :
    ∃ response got, SamePayload (settledRes handled conn.res) got ∧
      ∀ status : Status, status.Sends →
        Talks status (requestProc clientStack { req := req, res := res })
          (replyProc serverStack handler server) (response, { req := req, res := got })
          (some (if handled = -1 then -1 else Int32.ofNat atcpMsgLen,
            { conn with res := settledRes handled conn.res }, server')) := by
  obtain ⟨response, got, written, stream, hsame, hfeeds⟩ :=
    response_feeds htype serverStack clientStack res
  refine ⟨response, got, hsame, fun status sends => ?_⟩
  have hlength := length_reqFormat req
  have hsized : Sized (reqFormat req) := ⟨by rw [hlength]; decide, Nat.le_of_eq hlength⟩
  have hsent := sends _ hsized
  rw [requestProc, replyProc, take_atcReqToWire req clientStack.message.toList_length]
  refine .toRight hsized (hlength.trans serverStack.message.toList_length.symm) ?_
  rw [if_neg hsent, atcWireToReq_reqFormat, hlength]
  simp only [handles]
  exact (hfeeds status sends).talks.bind (.done _ _)

end AirTraffic.Protocol
