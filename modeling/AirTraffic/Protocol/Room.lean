/-
  Protocol/Room.lean --- the writes of the encoders and the buffers they get.

  WHAT THIS FILE IS FOR.  `ATCP_MSG_LEN` is 64: the size of a union whose largest
  member is a request type, an id and a plane, with their padding.  A plane takes
  38 bytes of it, but `atc_plane_to_wire` clears 64 bytes from wherever its
  pointer stands.  `atc_req_to_wire` calls it behind the four bytes of the type,
  so that a request with a plane clears four bytes behind the buffer; all other
  messages stay inside (`encoders_stay_inside_iff`).
-/
import AirTraffic.Foundation.Writes
import AirTraffic.Protocol.Serialize

set_option autoImplicit false

namespace AirTraffic.Protocol

open AirTraffic.Foundation AirTraffic.Atcd

/-! ## Writes -/

/-- The writes of `atc_plane_to_wire`. -/
def planeWrites (plane : AtcPlane) : List WriteOp :=
  [.fill atcpMsgLen, .copy plane.id.toList, .copy (int32BE plane.x), .copy (int32BE plane.y),
    .copy (int32BE plane.z), .copy (int32BE plane.time.toInt32), .copy (int32BE plane.heading),
    .copy (int32BE plane.elevation), .copy (int32BE plane.speed), .copy (int32BE plane.status)]

/-- The writes of `atc_airport_to_wire`. -/
def airportWrites (airport : AtcAirport) : List WriteOp :=
  [.copy (int32BE airport.x), .copy (int32BE airport.y), .copy airport.id.toList]

/-- The writes of `atc_req_to_wire`. -/
def reqWrites (req : AtcReq) : List WriteOp :=
  .copy (int32BE req.type) ::
    if carriesPlane req.type then planeWrites req.plane
    else [.fill (atcpMsgLen - (int32BE req.type).length)]

/-- The writes of `atc_res_to_header`. -/
def headerWrites (res : AtcRes) : List WriteOp :=
  .copy (int32BE res.type) ::
    if res.type = atcAck then [.copy (int32BE res.returnCode)]
    else if res.type = atcPlanes ∨ res.type = atcAirports then [.copy (int32BE res.len.toInt32)]
    else []

theorem runWrites_copy (w : Writer) (data : Bytes) (rest : List WriteOp) :
    runWrites (.copy data :: rest) w.wire w.ptr =
      runWrites rest (sndStrn w data).wire (sndStrn w data).ptr := rfl

theorem runWrites_fill (w : Writer) (n : Nat) (rest : List WriteOp) :
    runWrites (.fill n :: rest) w.wire w.ptr =
      runWrites rest (clear w n).wire (clear w n).ptr := rfl

theorem runWrites_nil (w : Writer) : runWrites [] w.wire w.ptr = (w.wire, w.ptr) := rfl

theorem runWrites_planeWrites (plane : AtcPlane) (w : Writer) :
    runWrites (planeWrites plane) w.wire w.ptr =
      ((atcPlaneToWire plane w).wire, (atcPlaneToWire plane w).ptr) := by
  unfold planeWrites atcPlaneToWire
  simp only [runWrites_fill, runWrites_copy, runWrites_nil, sndInt]

theorem runWrites_airportWrites (airport : AtcAirport) (w : Writer) :
    runWrites (airportWrites airport) w.wire w.ptr =
      ((atcAirportToWire airport w).wire, (atcAirportToWire airport w).ptr) := by
  unfold airportWrites atcAirportToWire
  simp only [runWrites_copy, runWrites_nil, sndInt]

theorem runWrites_reqWrites (req : AtcReq) (wire : Bytes) :
    runWrites (reqWrites req) wire 0 =
      ((atcReqToWire req wire).wire, (atcReqToWire req wire).ptr) := by
  unfold reqWrites atcReqToWire
  rw [runWrites_copy { wire := wire, ptr := 0 }]
  dsimp only
  split
  next => exact runWrites_planeWrites req.plane (sndInt { wire := wire, ptr := 0 } req.type)
  next =>
    have hptr : (sndInt { wire := wire, ptr := 0 } req.type).ptr = (int32BE req.type).length :=
      Nat.zero_add _
    rw [runWrites_fill, ← hptr]
    exact runWrites_nil _

theorem runWrites_headerWrites (res : AtcRes) (wire : Bytes) :
    (runWrites (headerWrites res) wire 0).1 = (atcResToHeader res wire).2 := by
  unfold headerWrites atcResToHeader
  rw [runWrites_copy { wire := wire, ptr := 0 }]
  dsimp only
  split
  next =>
    rw [runWrites_copy, runWrites_nil]
    rfl
  next =>
    split
    next =>
      rw [runWrites_copy, runWrites_nil]
      rfl
    next =>
      rw [runWrites_nil]
      rfl

/-! ## How far they reach -/

theorem reach_planeWrites (plane : AtcPlane) (ptr : Nat) :
    reach (planeWrites plane) ptr = ptr + atcpMsgLen := by
  simp only [planeWrites, reach, WriteOp.data, WriteOp.advance, length_zeros, length_int32BE,
    List.Vector.toList_length, atcpMsgLen]
  omega

theorem reach_airportWrites (airport : AtcAirport) : reach (airportWrites airport) 0 = 11 := by
  simp [airportWrites, reach, WriteOp.data, WriteOp.advance]

theorem reach_headerWrites_le (res : AtcRes) : reach (headerWrites res) 0 ≤ atcpHeaderLen := by
  unfold headerWrites
  split
  next => simp [reach, WriteOp.data, WriteOp.advance, atcpHeaderLen]
  next =>
    split
    next => simp [reach, WriteOp.data, WriteOp.advance, atcpHeaderLen]
    next => simp [reach, WriteOp.data, atcpHeaderLen]

/-- A plane behind the type reaches behind the message. -/
theorem reach_reqWrites (req : AtcReq) :
    reach (reqWrites req) 0 = if carriesPlane req.type then atcpMsgLen + 4 else atcpMsgLen := by
  unfold reqWrites
  split
  next =>
    rw [reach, reach_planeWrites]
    simp [WriteOp.data, WriteOp.advance, atcpMsgLen]
  next => simp [reach, WriteOp.data, WriteOp.advance, atcpMsgLen]

/-! ## Staying inside -/

/-- With every write checked against a buffer of this size, none falls outside. -/
def StaysInside (writes : List WriteOp) (size : Nat) : Prop :=
  ∀ buffer : Bytes, buffer.length = size → (runChecked writes buffer 0).isSome = true

theorem staysInside_iff (writes : List WriteOp) (size : Nat) :
    StaysInside writes size ↔ reach writes 0 ≤ size := by
  constructor
  · intro inside
    have hsome := inside (zeros size) (length_zeros size)
    rw [runChecked_isSome_iff, length_zeros] at hsome
    exact hsome
  · rintro hreach buffer rfl
    exact (runChecked_isSome_iff writes buffer 0).mpr hreach

/-- The encoders write only to the buffers that their callers declare. -/
structure EncodersStayInside (req : AtcReq) (plane : AtcPlane) (airport : AtcAirport)
    (res : AtcRes) : Prop where
  request : StaysInside (reqWrites req) atcpMsgLen
  plane : StaysInside (planeWrites plane) atcpMsgLen
  airport : StaysInside (airportWrites airport) atcpMsgLen
  header : StaysInside (headerWrites res) atcpHeaderLen

theorem request_staysInside_iff (req : AtcReq) :
    StaysInside (reqWrites req) atcpMsgLen ↔ carriesPlane req.type = false := by
  rw [staysInside_iff, reach_reqWrites]
  cases carriesPlane req.type with
  | true => exact iff_of_false (by decide) (by decide)
  | false => exact iff_of_true (Nat.le_refl _) rfl

/-- **When the encoders stay inside their buffers.**  If the request carries no
plane. -/
theorem encoders_stay_inside_iff (req : AtcReq) (plane : AtcPlane) (airport : AtcAirport)
    (res : AtcRes) :
    EncodersStayInside req plane airport res ↔ carriesPlane req.type = false := by
  constructor
  · intro inside
    exact (request_staysInside_iff req).mp inside.request
  · intro hplane
    refine ⟨(request_staysInside_iff req).mpr hplane, ?_, ?_, ?_⟩
    · rw [staysInside_iff, reach_planeWrites]
      exact Nat.le_of_eq (Nat.zero_add _)
    · rw [staysInside_iff, reach_airportWrites]
      decide
    · rw [staysInside_iff]
      exact reach_headerWrites_le res

/-- A plane is asked to speed up. -/
theorem speed_up_leaves_buffer :
    ¬ ∀ (req : AtcReq) (plane : AtcPlane) (airport : AtcAirport) (res : AtcRes),
      EncodersStayInside req plane airport res := by
  intro hinside
  have hrequest := (hinside { type := AtcReqType.speedUp.code, plane := zeroPlane } zeroPlane
    (airportAt [] 0) { type := atcAck, len := 0, msg := [] }).request
  rw [request_staysInside_iff] at hrequest
  exact absurd hrequest (by decide)

/-- A buffer of a message, as a request with a plane leaves it: four bytes too
long. -/
theorem length_atcReqToWire_of_plane {req : AtcReq} (hplane : carriesPlane req.type = true)
    {buffer : Bytes} (hbuffer : buffer.length = atcpMsgLen) :
    (atcReqToWire req buffer).wire.length = atcpMsgLen + 4 := by
  have hlength := length_runWrites (reqWrites req) buffer 0
  rw [runWrites_reqWrites, reach_reqWrites, if_pos hplane, hbuffer] at hlength
  exact hlength.trans (Nat.max_eq_right (Nat.le_add_right _ _))

end AirTraffic.Protocol
