/-
  Protocol/Serialize.lean --- `serialize.c`: records as messages.

  WHAT THIS FILE IS FOR.  The encoders write a record into a buffer through a
  pointer that each of them moves on, the decoders read one back.  A plane takes
  38 bytes: its id and eight integers in network order, of which the time is the
  low half of a `time_t`.  What comes back is therefore the plane with no padding
  and with the time cut to 32 bits (`overWire`), and it is the plane itself when
  there was nothing to lose (`overWire_eq`).

  A buffer is as long as it was declared; a write behind its end makes the
  region longer, and whoever sends the buffer sends its declared length.
-/
import AirTraffic.Atcd.Motion

set_option autoImplicit false

namespace AirTraffic.Protocol

open AirTraffic.Foundation AirTraffic.Atcd

/-- `ATCP_MSG_LEN` -/
def atcpMsgLen : Nat := 64
/-- `ATCP_HEADER_LEN` -/
def atcpHeaderLen : Nat := 8

/-! ## Requests and responses -/

/-- `enum atc_req_type` -/
inductive AtcReqType where
  | speedUp
  | speedDown
  | turnLeft
  | turnRight
  | ascend
  | descend
  | getPlanes
  | getAirports
  | join
  | leave
  | getLanded
  | getCrashed
  | createPlane
  deriving DecidableEq, Repr

namespace AtcReqType

/-- The number of a request type: `'1'` and the following, then `'L'` and the
following. -/
def code : AtcReqType → Int32
  | speedUp => 49
  | speedDown => 50
  | turnLeft => 51
  | turnRight => 52
  | ascend => 53
  | descend => 54
  | getPlanes => 55
  | getAirports => 56
  | join => 57
  | leave => 76
  | getLanded => 77
  | getCrashed => 78
  | createPlane => 79

/-- The command a request type stands for, if it stands for one. -/
def command : AtcReqType → Option AtcCommand
  | speedUp => some .speedUp
  | speedDown => some .speedDown
  | turnLeft => some .turnLeft
  | turnRight => some .turnRight
  | ascend => some .climb
  | descend => some .descend
  | _ => none

/-- The request type for a command, as the client's `set` chooses it. -/
def ofCommand : AtcCommand → AtcReqType
  | .speedUp => speedUp
  | .speedDown => speedDown
  | .climb => ascend
  | .descend => descend
  | .turnRight => turnRight
  | .turnLeft => turnLeft

@[simp] theorem command_ofCommand (cmd : AtcCommand) : (ofCommand cmd).command = some cmd := by
  cases cmd <;> rfl

/-- The request type with a number, if there is one. -/
def ofCode (code : Int32) : Option AtcReqType :=
  [speedUp, speedDown, turnLeft, turnRight, ascend, descend, getPlanes, getAirports, join,
    leave, getLanded, getCrashed, createPlane].find? (·.code = code)

@[simp] theorem ofCode_code (type : AtcReqType) : ofCode type.code = some type := by
  cases type <;> rfl

theorem code_of_ofCode {code : Int32} {type : AtcReqType} (h : ofCode code = some type) :
    type.code = code := by
  have := List.find?_some h
  simpa using this

end AtcReqType

/-- The request types that carry a plane. -/
def carriesPlane (type : Int32) : Bool :=
  ((AtcReqType.ofCode type).bind AtcReqType.command).isSome

/-- `struct atc_req`; any number may come over the wire as its type. -/
structure AtcReq where
  type : Int32
  plane : AtcPlane
  deriving DecidableEq

/-- `atc_ack` -/
def atcAck : Int32 := 97
/-- `atc_planes` -/
def atcPlanes : Int32 := 112
/-- `atc_airports` -/
def atcAirports : Int32 := 99

/-- `sizeof(struct atc_airport)` -/
def sizeofAirport : Nat := 12

/-- The size of the union `msg`, which is that of its array of planes. -/
def sizeofMsg : Nat := maxPlanes * sizeofPlane

/-- `struct atc_res`: the union `len` has members of one type, the union `msg` is
the memory its members share. -/
structure AtcRes where
  type : Int32
  len : UInt32
  msg : Bytes
  deriving DecidableEq

/-- `msg.return_code` -/
def AtcRes.returnCode (res : AtcRes) : Int32 := int32OfLE (readAt res.msg 0 4)

/-- `msg.return_code = code` -/
def AtcRes.setReturnCode (res : AtcRes) (code : Int32) : AtcRes :=
  { res with msg := writeAt res.msg 0 (int32LE code) }

/-- `msg.planes[idx]` -/
def planeAt (msg : Bytes) (idx : Nat) : AtcPlane :=
  AtcPlane.ofBytes (readAt msg (idx * sizeofPlane) sizeofPlane)

/-- The memory of an airport, without the byte of padding at its end. -/
def airportBytes (airport : AtcAirport) : Bytes :=
  int32LE airport.x ++ int32LE airport.y ++ airport.id.toList

/-- `msg.airports[idx]` -/
def airportAt (msg : Bytes) (idx : Nat) : AtcAirport where
  x := int32OfLE (readAt msg (idx * sizeofAirport) 4)
  y := int32OfLE (readAt msg (idx * sizeofAirport + 4) 4)
  id := vectorAt msg (idx * sizeofAirport + 8) 3

/-! ## Encoding -/

/-- A buffer with the pointer into it. -/
structure Writer where
  wire : Bytes
  ptr : Nat

/-- `_snd_strn` -/
def sndStrn (w : Writer) (str : Bytes) : Writer :=
  { wire := writeAt w.wire w.ptr str, ptr := w.ptr + str.length }

/-- `_snd_int` -/
def sndInt (w : Writer) (x : Int32) : Writer := sndStrn w (int32BE x)

/-- `memset(ptr, 0, n)`, which moves no pointer. -/
def clear (w : Writer) (n : Nat) : Writer :=
  { w with wire := writeAt w.wire w.ptr (zeros n) }

/-- `atc_plane_to_wire` -/
def atcPlaneToWire (plane : AtcPlane) (w : Writer) : Writer :=
  let w := clear w atcpMsgLen
  let w := sndStrn w plane.id.toList
  let w := sndInt w plane.x
  let w := sndInt w plane.y
  let w := sndInt w plane.z
  let w := sndInt w plane.time.toInt32
  let w := sndInt w plane.heading
  let w := sndInt w plane.elevation
  let w := sndInt w plane.speed
  sndInt w plane.status

/-- `atc_airport_to_wire`, which clears nothing. -/
def atcAirportToWire (airport : AtcAirport) (w : Writer) : Writer :=
  let w := sndInt w airport.x
  let w := sndInt w airport.y
  sndStrn w airport.id.toList

/-- `atc_req_to_wire`, from the start of the buffer. -/
def atcReqToWire (req : AtcReq) (wire : Bytes) : Writer :=
  let w := sndInt { wire := wire, ptr := 0 } req.type
  if carriesPlane req.type then atcPlaneToWire req.plane w
  else clear w (atcpMsgLen - w.ptr)

/-- `atc_res_to_header`: the length written, or -1. -/
def atcResToHeader (res : AtcRes) (wire : Bytes) : Int32 × Bytes :=
  let w := sndInt { wire := wire, ptr := 0 } res.type
  if res.type = atcAck then
    let w := sndInt w res.returnCode
    (Int32.ofNat w.ptr, w.wire)
  else if res.type = atcPlanes ∨ res.type = atcAirports then
    let w := sndInt w res.len.toInt32
    (Int32.ofNat w.ptr, w.wire)
  else (-1, w.wire)

/-! ## Decoding -/

/-- `_get_int` -/
def getInt (wire : Bytes) (ptr : Nat) : Int32 × Nat := (int32OfBE (readAt wire ptr 4), ptr + 4)

/-- `_get_int` into a zeroed `time_t`, of which it fills the low half. -/
def getTime (wire : Bytes) (ptr : Nat) : Int64 × Nat :=
  let (low, ptr) := getInt wire ptr
  (int64OfLE (int32LE low ++ zeros 4), ptr)

/-- `atc_wire_to_plane` -/
def atcWireToPlane (wire : Bytes) (ptr : Nat) : AtcPlane × Nat :=
  let id := vectorAt wire ptr atcdIdLength
  let (x, ptr) := getInt wire (ptr + atcdIdLength)
  let (y, ptr) := getInt wire ptr
  let (z, ptr) := getInt wire ptr
  let (time, ptr) := getTime wire ptr
  let (heading, ptr) := getInt wire ptr
  let (elevation, ptr) := getInt wire ptr
  let (speed, ptr) := getInt wire ptr
  let (status, ptr) := getInt wire ptr
  ({ id, pad := List.Vector.replicate 2 0, x, y, z, time, heading, elevation, speed, status },
    ptr)

/-- `atc_wire_to_airport` -/
def atcWireToAirport (wire : Bytes) (ptr : Nat) : AtcAirport × Nat :=
  let (x, ptr) := getInt wire ptr
  let (y, ptr) := getInt wire ptr
  ({ x, y, id := vectorAt wire ptr 3 }, ptr + 3)

/-- A plane of zero bytes. -/
def zeroPlane : AtcPlane := AtcPlane.ofBytes (zeros sizeofPlane)

/-- `atc_wire_to_req`, from the start of the buffer. -/
def atcWireToReq (wire : Bytes) : AtcReq × Nat :=
  let (type, ptr) := getInt wire 0
  if carriesPlane type then
    let (plane, ptr) := atcWireToPlane wire ptr
    ({ type, plane }, ptr)
  else ({ type, plane := zeroPlane }, ptr)

/-- `atc_header_to_res`: the length read, or -1. -/
def atcHeaderToRes (res : AtcRes) (wire : Bytes) : Int32 × AtcRes :=
  let (headerType, ptr) := getInt wire 0
  let (headerPayload, ptr) := getInt wire ptr
  let res := { res with type := headerType }
  if headerType = atcAck then
    (Int32.ofNat ptr, { res with len := 0 }.setReturnCode headerPayload)
  else if headerType = atcPlanes ∨ headerType = atcAirports then
    (Int32.ofNat ptr, { res with len := headerPayload.toUInt32 })
  else (-1, res)

end AirTraffic.Protocol
