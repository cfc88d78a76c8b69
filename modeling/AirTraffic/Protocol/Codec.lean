/-
  Protocol/Codec.lean --- decoders undo encoders.

  WHAT THIS FILE IS FOR.  Each encoder of `Serialize.lean` is one write of the
  format of its record (`planeFormat`, `airportFormat`), whatever the buffer
  held, and each decoder reads that format back.  A plane loses its padding and
  the high half of its time on the way (`overWire`); everything else arrives.
-/
import AirTraffic.Protocol.Serialize

set_option autoImplicit false

namespace AirTraffic.Protocol

open AirTraffic.Foundation AirTraffic.Atcd

/-! ## Formats -/

/-- A plane on the wire. -/
def planeFormat (plane : AtcPlane) : Bytes :=
  plane.id.toList ++ int32BE plane.x ++ int32BE plane.y ++ int32BE plane.z ++
    int32BE plane.time.toInt32 ++ int32BE plane.heading ++ int32BE plane.elevation ++
    int32BE plane.speed ++ int32BE plane.status

/-- An airport on the wire. -/
def airportFormat (airport : AtcAirport) : Bytes :=
  int32BE airport.x ++ int32BE airport.y ++ airport.id.toList

@[simp] theorem length_planeFormat (plane : AtcPlane) : (planeFormat plane).length = 38 := by
  simp [planeFormat]

@[simp] theorem length_airportFormat (airport : AtcAirport) :
    (airportFormat airport).length = 11 := by
  simp [airportFormat]

/-- A plane as it comes out of the wire. -/
def overWire (plane : AtcPlane) : AtcPlane :=
  { plane with
    pad := List.Vector.replicate 2 0
    time := int64OfLE (int32LE plane.time.toInt32 ++ zeros 4) }

/-- A time that a message has room for. -/
def TimeFits (plane : AtcPlane) : Prop :=
  0 ≤ plane.time.toInt ∧ plane.time.toInt < 2 ^ 32

instance (plane : AtcPlane) : Decidable (TimeFits plane) :=
  inferInstanceAs (Decidable (_ ∧ _))

theorem overWire_of_timeFits {plane : AtcPlane} (h : TimeFits plane) :
    overWire plane = { plane with pad := List.Vector.replicate 2 0 } := by
  rw [overWire, int64OfLE_low_half h.1 h.2]

theorem overWire_eq {plane : AtcPlane} (hpad : plane.pad = List.Vector.replicate 2 0)
    (h : TimeFits plane) : overWire plane = plane := by
  rw [overWire_of_timeFits h, ← hpad]

/-! ## Encoders write formats -/

theorem sndStrn_sndStrn (w : Writer) (left right : Bytes) :
    sndStrn (sndStrn w left) right = sndStrn w (left ++ right) := by
  rw [sndStrn, sndStrn, sndStrn, writeAt_writeAt_append, List.length_append, Nat.add_assoc]

theorem atcPlaneToWire_eq (plane : AtcPlane) (w : Writer) :
    atcPlaneToWire plane w =
      { wire := writeAt w.wire w.ptr (planeFormat plane ++ zeros 26), ptr := w.ptr + 38 } := by
  have hone : atcPlaneToWire plane w = sndStrn (clear w atcpMsgLen) (planeFormat plane) := by
    simp only [atcPlaneToWire, sndInt, sndStrn_sndStrn, planeFormat]
  have hrest : (zeros atcpMsgLen).drop (planeFormat plane).length = zeros 26 := by
    rw [length_planeFormat]
    rfl
  rw [hone, sndStrn, clear, writeAt_writeAt_front, hrest, length_planeFormat]
  rw [length_planeFormat, length_zeros]
  decide

theorem atcAirportToWire_eq (airport : AtcAirport) (w : Writer) :
    atcAirportToWire airport w =
      { wire := writeAt w.wire w.ptr (airportFormat airport), ptr := w.ptr + 11 } := by
  have hone : atcAirportToWire airport w = sndStrn w (airportFormat airport) := by
    simp only [atcAirportToWire, sndInt, sndStrn_sndStrn, airportFormat]
  rw [hone, sndStrn, length_airportFormat]

/-- The message of a plane, in any buffer of a message. -/
theorem atcPlaneToWire_wire (plane : AtcPlane) {buffer : Bytes}
    (h : buffer.length = atcpMsgLen) :
    (atcPlaneToWire plane { wire := buffer, ptr := 0 }).wire =
      planeFormat plane ++ zeros 26 := by
  rw [atcPlaneToWire_eq]
  apply writeAt_zero_of_length_le
  rw [h, List.length_append, length_planeFormat, length_zeros]
  decide

/-! ## Decoders read formats -/

theorem atcWireToPlane_eq {wire : Bytes} {ptr : Nat} {plane : AtcPlane}
    (h : readAt wire ptr 38 = planeFormat plane) :
    atcWireToPlane wire ptr = (overWire plane, ptr + 38) := by
  have hfield : ∀ a n, a + n ≤ 38 → readAt wire (ptr + a) n = readAt (planeFormat plane) a n :=
    fun a n ha => by rw [← h, readAt_readAt wire ha]
  have hid : vectorAt wire ptr 6 = plane.id := by
    apply vectorAt_eq
    rw [← Nat.add_zero ptr, hfield 0 6 (by decide)]
    simp [planeFormat, readAt]
  have hint : ∀ a x, a + 4 ≤ 38 → readAt (planeFormat plane) a 4 = int32BE x →
      int32OfBE (readAt wire (ptr + a) 4) = x := by
    intro a x ha hx
    rw [hfield a 4 ha, hx, int32OfBE_int32BE]
  have hx := hint 6 plane.x (by decide)
    (by simp [planeFormat, readAt])
  have hy := hint 10 plane.y (by decide)
    (by simp [planeFormat, readAt, List.drop_append, List.drop_of_length_le])
  have hz := hint 14 plane.z (by decide)
    (by simp [planeFormat, readAt, List.drop_append, List.drop_of_length_le])
  have htime := hint 18 plane.time.toInt32 (by decide)
    (by simp [planeFormat, readAt, List.drop_append, List.drop_of_length_le])
  have hheading := hint 22 plane.heading (by decide)
    (by simp [planeFormat, readAt, List.drop_append, List.drop_of_length_le])
  have helevation := hint 26 plane.elevation (by decide)
    (by simp [planeFormat, readAt, List.drop_append, List.drop_of_length_le])
  have hspeed := hint 30 plane.speed (by decide)
    (by simp [planeFormat, readAt, List.drop_append, List.drop_of_length_le])
  have hstatus := hint 34 plane.status (by decide)
    (by simp [planeFormat, readAt, List.drop_append, List.drop_of_length_le,
      List.take_of_length_le])
  simp only [atcWireToPlane, getInt, getTime, atcdIdLength, Nat.add_assoc, Nat.reduceAdd, hid,
    hx, hy, hz, htime, hheading, helevation, hspeed, hstatus]
  rfl

theorem atcWireToAirport_eq {wire : Bytes} {airport : AtcAirport}
    (h : readAt wire 0 11 = airportFormat airport) :
    atcWireToAirport wire 0 = (airport, 11) := by
  have hfield : ∀ a n, a + n ≤ 11 → readAt wire a n = readAt (airportFormat airport) a n :=
    fun a n ha => by rw [← h, readAt_readAt wire ha, Nat.zero_add]
  have hx : int32OfBE (readAt wire 0 4) = airport.x := by
    rw [hfield 0 4 (by decide)]
    simp [airportFormat, readAt]
  have hy : int32OfBE (readAt wire 4 4) = airport.y := by
    rw [hfield 4 4 (by decide)]
    simp [airportFormat, readAt]
  have hid : vectorAt wire 8 3 = airport.id := by
    apply vectorAt_eq
    rw [hfield 8 3 (by decide)]
    simp [airportFormat, readAt, List.drop_append, List.drop_of_length_le,
      List.take_of_length_le]
  simp only [atcWireToAirport, getInt, Nat.reduceAdd, hx, hy, hid]

/-! ## Requests -/

/-- The message of a request. -/
def reqFormat (req : AtcReq) : Bytes :=
  int32BE req.type ++
    if carriesPlane req.type then planeFormat req.plane ++ zeros 22 else zeros 60

/-- A request as it comes out of the wire. -/
def reqOverWire (req : AtcReq) : AtcReq :=
  { req with plane := if carriesPlane req.type then overWire req.plane else zeroPlane }

@[simp] theorem length_reqFormat (req : AtcReq) : (reqFormat req).length = atcpMsgLen := by
  unfold reqFormat
  split <;> simp [atcpMsgLen]

/-- The encoder writes the message of its request, and four bytes more behind a
plane, which is cleared as if it had a buffer of its own. -/
theorem atcReqToWire_eq (req : AtcReq) (wire : Bytes) :
    atcReqToWire req wire =
      if carriesPlane req.type then
        { wire := writeAt wire 0 (reqFormat req ++ zeros 4), ptr := 42 }
      else { wire := writeAt wire 0 (reqFormat req), ptr := 4 } := by
  have hbehind : ∀ body : Bytes, writeAt (writeAt wire 0 (int32BE req.type)) 4 body =
      writeAt wire 0 (int32BE req.type ++ body) := by
    intro body
    have happend := writeAt_writeAt_append wire 0 (int32BE req.type) body
    rwa [length_int32BE, Nat.zero_add] at happend
  rw [atcReqToWire, reqFormat]
  split
  · have hzeros : (zeros 26 : Bytes) = zeros 22 ++ zeros 4 := rfl
    simp only [atcPlaneToWire_eq, sndInt, sndStrn, length_int32BE, Nat.zero_add]
    rw [hbehind, hzeros, List.append_assoc, List.append_assoc]
  · simp only [clear, sndInt, sndStrn, length_int32BE, Nat.zero_add, atcpMsgLen,
      Nat.reduceSub]
    rw [hbehind]

/-- What `atc_request` sends of the buffer it encoded its request in. -/
theorem take_atcReqToWire (req : AtcReq) {buffer : Bytes} (h : buffer.length = atcpMsgLen) :
    (atcReqToWire req buffer).wire.take atcpMsgLen = reqFormat req := by
  have hlength := length_reqFormat req
  rw [atcReqToWire_eq]
  split
  · rw [writeAt_zero_of_length_le (by rw [h, List.length_append, hlength]; omega),
      List.take_left' hlength]
  · rw [writeAt_zero_of_length_le (by rw [h, hlength]),
      List.take_of_length_le (Nat.le_of_eq hlength)]

/-- A request is read from the front of any buffer that holds its message. -/
theorem atcWireToReq_eq {req : AtcReq} {wire : Bytes}
    (h : readAt wire 0 atcpMsgLen = reqFormat req) :
    atcWireToReq wire = (reqOverWire req, if carriesPlane req.type then 42 else 4) := by
  have hfield : ∀ a n, a + n ≤ atcpMsgLen → readAt wire a n = readAt (reqFormat req) a n := by
    intro a n ha
    rw [← h, readAt_readAt wire ha, Nat.zero_add]
  have htype : int32OfBE (readAt wire 0 4) = req.type := by
    rw [hfield 0 4 (by decide), reqFormat]
    simp [readAt]
  simp only [atcWireToReq, getInt, htype]
  split
  · rename_i hcarries
    have hplane : readAt wire (0 + 4) 38 = planeFormat req.plane := by
      rw [hfield (0 + 4) 38 (by decide), reqFormat, if_pos hcarries]
      simp [readAt]
    rw [atcWireToPlane_eq hplane, reqOverWire, if_pos hcarries]
  · rename_i hcarries
    rw [reqOverWire, if_neg hcarries]

theorem atcWireToReq_reqFormat (req : AtcReq) :
    atcWireToReq (reqFormat req) =
      (reqOverWire req, if carriesPlane req.type then 42 else 4) := by
  apply atcWireToReq_eq
  rw [readAt, List.drop_zero]
  exact List.take_of_length_le (Nat.le_of_eq (length_reqFormat req))

/-! ## Headers -/

/-- The payload of a header. -/
def headerPayload (res : AtcRes) : Int32 :=
  if res.type = atcAck then res.returnCode else res.len.toInt32

/-- The header of a response of one of the three types. -/
def headerFormat (res : AtcRes) : Bytes := int32BE res.type ++ int32BE (headerPayload res)

/-- The types a response can have. -/
def KnownType (type : Int32) : Prop := type = atcAck ∨ type = atcPlanes ∨ type = atcAirports

@[simp] theorem length_headerFormat (res : AtcRes) :
    (headerFormat res).length = atcpHeaderLen := by
  simp [headerFormat, atcpHeaderLen]

/-- The header of a response, at the front of any buffer. -/
theorem atcResToHeader_writeAt {res : AtcRes} (htype : KnownType res.type) (wire : Bytes) :
    atcResToHeader res wire = (8, writeAt wire 0 (headerFormat res)) := by
  have hwrite : ∀ payload, writeAt (writeAt wire 0 (int32BE res.type)) 4 (int32BE payload) =
      writeAt wire 0 (int32BE res.type ++ int32BE payload) := by
    intro payload
    have happend := writeAt_writeAt_append wire 0 (int32BE res.type) (int32BE payload)
    rwa [length_int32BE, Nat.zero_add] at happend
  rw [atcResToHeader, headerFormat, headerPayload]
  by_cases hack : res.type = atcAck
  · simp only [hack, if_true, sndInt, sndStrn, length_int32BE, Nat.zero_add]
    rw [← hack, hwrite]
    rfl
  · have hother := htype.resolve_left hack
    simp only [hack, hother, if_false, if_true, sndInt, sndStrn, length_int32BE, Nat.zero_add]
    rw [hwrite]
    rfl

theorem atcResToHeader_eq {res : AtcRes} (htype : KnownType res.type) {buffer : Bytes}
    (h : buffer.length = atcpHeaderLen) :
    atcResToHeader res buffer = (8, headerFormat res) := by
  rw [atcResToHeader_writeAt htype,
    writeAt_zero_of_length_le (by rw [h, length_headerFormat])]

/-- A response whose header was read: the type, and the return code or the
count. -/
def readHeader (res : AtcRes) (type payload : Int32) : AtcRes :=
  if type = atcAck then { res with type := type, len := 0 }.setReturnCode payload
  else { res with type := type, len := payload.toUInt32 }

/-- A header is read from the front of any buffer that holds it. -/
theorem atcHeaderToRes_eq {sent : AtcRes} (htype : KnownType sent.type) {wire : Bytes}
    (h : readAt wire 0 atcpHeaderLen = headerFormat sent) (res : AtcRes) :
    atcHeaderToRes res wire = (8, readHeader res sent.type (headerPayload sent)) := by
  have hfield : ∀ a, a + 4 ≤ atcpHeaderLen → readAt wire a 4 = readAt (headerFormat sent) a 4 := by
    intro a ha
    rw [← h, readAt_readAt wire ha, Nat.zero_add]
  have hfirst : int32OfBE (readAt wire 0 4) = sent.type := by
    rw [hfield 0 (by decide)]
    simp [headerFormat, readAt]
  have hsecond : int32OfBE (readAt wire (0 + 4) 4) = headerPayload sent := by
    rw [hfield (0 + 4) (by decide)]
    simp [headerFormat, readAt, List.take_of_length_le]
  simp only [atcHeaderToRes, getInt, hfirst, hsecond]
  unfold readHeader
  by_cases hack : sent.type = atcAck
  · simp only [hack, if_true]
    rfl
  · have hother := htype.resolve_left hack
    simp only [hack, hother, if_false, if_true]
    rfl

theorem atcHeaderToRes_headerFormat {sent : AtcRes} (htype : KnownType sent.type)
    (res : AtcRes) :
    atcHeaderToRes res (headerFormat sent) =
      (8, readHeader res sent.type (headerPayload sent)) := by
  apply atcHeaderToRes_eq htype
  rw [readAt, List.drop_zero]
  exact List.take_of_length_le (Nat.le_of_eq (length_headerFormat sent))

end AirTraffic.Protocol
