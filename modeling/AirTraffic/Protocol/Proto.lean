/-
  Protocol/Proto.lean --- `proto.c`: requests and responses over a transport.

  WHAT THIS FILE IS FOR.  The translation of `atc_request` and `atc_reply` with
  the loops that write and read the body of a response.  The transport is a
  parameter, a `send` and a `recv` on whatever state connects the two parties;
  so is what the buffers on the stack hold before they are written.  `Link` is
  the transport of the round trips: a byte stream in each direction that delivers
  everything in order.
-/
import AirTraffic.Protocol.Serialize

set_option autoImplicit false

namespace AirTraffic.Protocol

open AirTraffic.Foundation AirTraffic.Atcd

/-- `transport_send` and `transport_recv`.  A receive is given the buffer, whose
length is the size asked for, and returns its count, or -1, with the buffer. -/
structure Transport (σ : Type) where
  send : Bytes → σ → Int32 × σ
  recv : Bytes → σ → Int32 × Bytes × σ

/-- The request and the response of `struct atc_conn`.  Its address is the state
of the transport. -/
structure AtcConn where
  req : AtcReq
  res : AtcRes
  deriving DecidableEq

/-- What the buffers declared by a call hold before it writes them. -/
structure Stack where
  message : List.Vector UInt8 atcpMsgLen
  header : List.Vector UInt8 atcpHeaderLen
  body : List.Vector UInt8 atcpMsgLen

/-- Stack buffers that are zero. -/
def Stack.zero : Stack where
  message := List.Vector.replicate atcpMsgLen 0
  header := List.Vector.replicate atcpHeaderLen 0
  body := List.Vector.replicate atcpMsgLen 0

section Transport

variable {σ τ : Type} (transport : Transport σ)

/-! ## Bodies

`_atc_read_planes` and `_atc_read_airports` are one loop, and so are
`_atc_write_planes` and `_atc_write_airports`; they differ in the record. -/

/-- The loop of `_atc_read_planes`: `decode` gives the bytes a message stores in
the array, whose elements are `stride` apart. -/
def readItems (decode : Bytes → Bytes) (stride : Nat) :
    Nat → Nat → Bytes → AtcRes → σ → Bool × AtcRes × σ
  | 0, _, _, res, link => (true, res, link)
  | left + 1, idx, buffer, res, link =>
      let (received, buffer, link) := transport.recv buffer link
      if received = -1 then (false, res, link)
      else
        readItems decode stride left (idx + 1) buffer
          { res with msg := writeAt res.msg (idx * stride) (decode buffer) } link

/-- The loop of `_atc_write_planes`: `encode` writes the element with an index to
the buffer. -/
def writeItems (encode : Nat → Bytes → Bytes) :
    Nat → Nat → Bytes → σ → Bool × σ
  | 0, _, _, link => (true, link)
  | left + 1, idx, buffer, link =>
      let buffer := encode idx buffer
      let (sent, link) := transport.send (buffer.take atcpMsgLen) link
      if sent = -1 then (false, link) else writeItems encode left (idx + 1) buffer link

/-- The number of rounds of a loop `for (idx = 0; idx < max; idx++)`. -/
def rounds (max : Int32) : Nat := max.toInt.toNat

/-- The bytes `_atc_read_planes` stores for a message. -/
def decodePlane (wire : Bytes) : Bytes := (atcWireToPlane wire 0).1.bytes

/-- The bytes `_atc_read_airports` stores for a message. -/
def decodeAirport (wire : Bytes) : Bytes := airportBytes (atcWireToAirport wire 0).1

/-- The message `_atc_write_planes` makes of `msg.planes[idx]`. -/
def encodePlane (msg : Bytes) (idx : Nat) (buffer : Bytes) : Bytes :=
  (atcPlaneToWire (planeAt msg idx) { wire := buffer, ptr := 0 }).wire

/-- The message `_atc_write_airports` makes of `msg.airports[idx]`. -/
def encodeAirport (msg : Bytes) (idx : Nat) (buffer : Bytes) : Bytes :=
  (atcAirportToWire (airportAt msg idx) { wire := buffer, ptr := 0 }).wire

/-- `_atc_read_planes` -/
def atcReadPlanes (buffer : Bytes) (res : AtcRes) (link : σ) : Int32 × AtcRes × σ :=
  let maxPlanes := res.len.toInt32
  let (complete, res, link) :=
    readItems transport decodePlane sizeofPlane (rounds maxPlanes) 0 buffer res link
  (if complete then maxPlanes else -1, res, link)

/-- `_atc_read_airports` -/
def atcReadAirports (buffer : Bytes) (res : AtcRes) (link : σ) : Int32 × AtcRes × σ :=
  let maxAirports := res.len.toInt32
  let (complete, res, link) :=
    readItems transport decodeAirport sizeofAirport (rounds maxAirports) 0 buffer res link
  (if complete then maxAirports else -1, res, link)

/-- `_atc_write_planes` -/
def atcWritePlanes (buffer : Bytes) (res : AtcRes) (link : σ) : Int32 × σ :=
  let maxPlanes := res.len.toInt32
  let (complete, link) :=
    writeItems transport (encodePlane res.msg) (rounds maxPlanes) 0 buffer link
  (if complete then maxPlanes else -1, link)

/-- `_atc_write_airports` -/
def atcWriteAirports (buffer : Bytes) (res : AtcRes) (link : σ) : Int32 × σ :=
  let maxAirports := res.len.toInt32
  let (complete, link) :=
    writeItems transport (encodeAirport res.msg) (rounds maxAirports) 0 buffer link
  (if complete then maxAirports else -1, link)

/-! ## Responses -/

/-- `_atc_read_response` -/
def atcReadResponse (stack : Stack) (res : AtcRes) (link : σ) : Int32 × AtcRes × σ :=
  let (received, buffer, link) := transport.recv stack.header.toList link
  if received = -1 then (-1, res, link)
  else
    let (size, res) := atcHeaderToRes res buffer
    if size = -1 then (-1, res, link)
    else if res.type = atcAck then (0, res, link)
    else if res.type = atcPlanes then atcReadPlanes transport stack.body.toList res link
    else if res.type = atcAirports then
      atcReadAirports transport stack.body.toList res link
    else (-1, res, link)

/-- `_atc_write_response` -/
def atcWriteResponse (stack : Stack) (res : AtcRes) (link : σ) : Int32 × σ :=
  let (_, buffer) := atcResToHeader res stack.header.toList
  let (sent, link) := transport.send buffer link
  if sent = -1 then (-1, link)
  else if res.type = atcAck then (0, link)
  else if res.type = atcPlanes then atcWritePlanes transport stack.body.toList res link
  else if res.type = atcAirports then
    atcWriteAirports transport stack.body.toList res link
  else (-1, link)

/-! ## Requests -/

/-- The first half of `atc_request`: the request is sent. -/
def sendRequest (stack : Stack) (req : AtcReq) (link : σ) : Int32 × σ :=
  transport.send ((atcReqToWire req stack.message.toList).wire.take atcpMsgLen) link

/-- `atc_request` -/
def atcRequest (stack : Stack) (conn : AtcConn) (link : σ) : Int32 × AtcConn × σ :=
  let (sent, link) := sendRequest transport stack conn.req link
  if sent = -1 then (-1, conn, link)
  else
    let (response, res, link) := atcReadResponse transport stack conn.res link
    (response, { conn with res := res }, link)

/-- `atc_reply_handler`, on the state of the server; `none` if it does not
return. -/
abbrev AtcReplyHandler (τ : Type) : Type := AtcConn → τ → Option (Int32 × AtcConn × τ)

/-- A response of zero bytes. -/
def zeroRes : AtcRes := { type := 0, len := 0, msg := zeros sizeofMsg }

/-- The response a server settles on: the handler's, or a refusal when the
handler returned -1. -/
def settledRes (handled : Int32) (res : AtcRes) : AtcRes :=
  if handled = -1 then { res with type := atcAck }.setReturnCode (-1) else res

/-- The first half of `atc_reply`: a message is received, in full or not, and
decoded. -/
def receiveRequest (stack : Stack) (link : σ) : Int32 × AtcReq × σ :=
  let (response, buffer, link) := transport.recv stack.message.toList link
  (response, (atcWireToReq buffer).1, link)

/-- `atc_reply` -/
def atcReply (stack : Stack) (handler : AtcReplyHandler τ) (server : τ) (link : σ) :
    Option (Int32 × AtcConn × τ × σ) :=
  let (response, req, link) := receiveRequest transport stack link
  (handler { req := req, res := zeroRes } server).map fun (handled, conn, server) =>
    let conn := { conn with res := settledRes handled conn.res }
    let (_, link) := atcWriteResponse transport stack conn.res link
    (if handled = -1 then -1 else response, conn, server, link)

end Transport

/-! ## Reliable byte streams -/

/-- A byte stream in each direction. -/
structure Link where
  toServer : Bytes
  toClient : Bytes
  deriving DecidableEq

namespace Link

/-- Nothing is under way. -/
def empty : Link := { toServer := [], toClient := [] }

/-- Receive from a stream, as much as there is up to the length of the buffer. -/
def receive (stream buffer : Bytes) : Int32 × Bytes × Bytes :=
  let got := stream.take buffer.length
  (Int32.ofNat got.length, writeAt buffer 0 got, stream.drop buffer.length)

/-- The client's end. -/
def clientEnd : Transport Link where
  send data link := (0, { link with toServer := link.toServer ++ data })
  recv buffer link :=
    let (count, buffer, rest) := receive link.toClient buffer
    (count, buffer, { link with toClient := rest })

/-- The server's end. -/
def serverEnd : Transport Link where
  send data link := (0, { link with toClient := link.toClient ++ data })
  recv buffer link :=
    let (count, buffer, rest) := receive link.toServer buffer
    (count, buffer, { link with toServer := rest })

/-- A receive for which there is enough gets the front of the stream. -/
theorem receive_append (got rest buffer : Bytes) (h : got.length = buffer.length) :
    receive (got ++ rest) buffer = (Int32.ofNat buffer.length, got, rest) := by
  have htake : (got ++ rest).take buffer.length = got := List.take_left' h
  have hdrop : (got ++ rest).drop buffer.length = rest := List.drop_left' h
  rw [receive, htake, hdrop, h, writeAt_zero_of_length_le (Nat.le_of_eq h.symm)]

end Link

end AirTraffic.Protocol
