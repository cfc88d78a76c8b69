/-
  Atcd/Plane.lean --- `struct atc_plane` and its layout in memory.

  WHAT THIS FILE IS FOR.  A plane is stored, compared and sent as the bytes of
  its struct, and the key under which the store files it is the memory that
  starts at its `id`.  So the layout matters: on an LP64 host `id` is at 0 and
  is not terminated, two bytes of padding follow it, `x` is at 8, `y` at 12, `z`
  at 16, `time` at 24, and the four enumerations and the speed end the 48 bytes.
  The padding behind `id` is part of the record here; the padding behind `z`,
  which nothing reads, is zero.
-/
import Mathlib.Data.Vector.Defs
import AirTraffic.Foundation.Endian

set_option autoImplicit false

namespace AirTraffic.Atcd

open AirTraffic.Foundation

/-- `LANDING_TOLERANCE` -/
def landingTolerance : Int32 := 500
/-- `MAX_LEN` -/
def maxLen : Int32 := 4000
/-- `MAX_HEIGHT` -/
def maxHeight : Int32 := 4000
/-- `MAX_AIRPORTS` -/
def maxAirports : Nat := 2
/-- `MAX_PLANES` -/
def maxPlanes : Nat := 50
/-- `ATCD_ID_LENGTH` -/
def atcdIdLength : Nat := 6

/-! ## The enumerations

C gives an enumeration the range of `int`, and a record that comes over the wire
holds whatever number was sent, so the fields are `Int32` and these are names
for numbers. -/

/-- `enum atc_status` -/
def landed : Int32 := 0
/-- `enum atc_status` -/
def crashed : Int32 := 1
/-- `enum atc_status` -/
def flying : Int32 := 2

/-- `enum atc_commands` -/
inductive AtcCommand where
  | speedUp
  | speedDown
  | climb
  | descend
  | turnRight
  | turnLeft
  deriving DecidableEq, Repr

/-- The number of a command. -/
def AtcCommand.code : AtcCommand → Int32
  | .speedUp => 0
  | .speedDown => 1
  | .climb => 2
  | .descend => 3
  | .turnRight => 4
  | .turnLeft => 5

/-- The command with a number, if there is one. -/
def AtcCommand.ofCode (code : Int32) : Option AtcCommand :=
  [speedUp, speedDown, climb, descend, turnRight, turnLeft].find? (·.code = code)

theorem AtcCommand.code_of_ofCode {code : Int32} {cmd : AtcCommand}
    (h : ofCode code = some cmd) : cmd.code = code := by
  have := List.find?_some h
  simpa using this

/-! ## The record -/

/-- `struct atc_plane`, with the padding behind `id`. -/
structure AtcPlane where
  id : List.Vector UInt8 6
  pad : List.Vector UInt8 2
  x : Int32
  y : Int32
  z : Int32
  time : Int64
  heading : Int32
  elevation : Int32
  speed : Int32
  status : Int32
  deriving DecidableEq

/-- `sizeof(struct atc_plane)` -/
def sizeofPlane : Nat := 48

/-- `n` bytes of a region from an offset, zeros where it has none. -/
def vectorAt (bytes : Bytes) (off n : Nat) : List.Vector UInt8 n :=
  ⟨(readAt bytes off n ++ zeros n).take n, by
    rw [List.length_take, List.length_append, length_zeros]
    exact Nat.min_eq_left (Nat.le_add_left n _)⟩

theorem vectorAt_eq {n : Nat} {bytes : Bytes} {off : Nat} {v : List.Vector UInt8 n}
    (h : readAt bytes off n = v.toList) : vectorAt bytes off n = v := by
  apply List.Vector.eq
  show (readAt bytes off n ++ zeros n).take n = v.toList
  rw [h, List.take_left' (List.Vector.toList_length v)]

namespace AtcPlane

/-- The bytes of the struct. -/
def bytes (plane : AtcPlane) : Bytes :=
  plane.id.toList ++ plane.pad.toList ++ int32LE plane.x ++ int32LE plane.y ++
    int32LE plane.z ++ zeros 4 ++ int64LE plane.time ++ int32LE plane.heading ++
    int32LE plane.elevation ++ int32LE plane.speed ++ int32LE plane.status

/-- The struct that occupies the bytes. -/
def ofBytes (memory : Bytes) : AtcPlane where
  id := vectorAt memory 0 6
  pad := vectorAt memory 6 2
  x := int32OfLE (readAt memory 8 4)
  y := int32OfLE (readAt memory 12 4)
  z := int32OfLE (readAt memory 16 4)
  time := int64OfLE (readAt memory 24 8)
  heading := int32OfLE (readAt memory 32 4)
  elevation := int32OfLE (readAt memory 36 4)
  speed := int32OfLE (readAt memory 40 4)
  status := int32OfLE (readAt memory 44 4)

@[simp] theorem length_bytes (plane : AtcPlane) : plane.bytes.length = sizeofPlane := by
  simp [bytes, sizeofPlane]

/-- A struct is read back from its bytes. -/
@[simp] theorem ofBytes_bytes (plane : AtcPlane) : ofBytes plane.bytes = plane := by
  obtain ⟨id, pad, x, y, z, time, heading, elevation, speed, status⟩ := plane
  rw [ofBytes, AtcPlane.mk.injEq]
  refine ⟨vectorAt_eq ?_, vectorAt_eq ?_, ?_, ?_, ?_, ?_, ?_, ?_, ?_, ?_⟩ <;>
    simp [bytes, readAt, List.drop_append, List.drop_of_length_le, List.take_of_length_le]

end AtcPlane

end AirTraffic.Atcd
