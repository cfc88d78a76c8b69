/-
  Atcd/Motion.lean --- how a plane moves and how it meets the ground.

  WHAT THIS FILE IS FOR.  `calculate_position` brings a plane to a new time.  If
  the altitude there is not negative it moves the plane (`advance`); otherwise
  it works out when and where the plane came down, decides whether it landed or
  crashed (`settle`), and stores the result.  The two outcomes are pure functions
  of the plane and the time, and the file says what they leave alone.

  THE TABLES.  `_sin` and `_cos` are tables of decimal constants.  They are named
  for the compass: `cos` of a heading moves `x` and `sin` moves `y`, with `0`
  answering as north.

  FLOATS.  `_cos` returns a `float` and `_sin` a `double`, so the altitude and `x`
  are summed in `float` and `y` in `double`.  Each operation rounds, and an `int`
  that goes into one is converted first, which rounds it too if it is too long for
  a `float`.
-/
import AirTraffic.Foundation.CInt
import AirTraffic.Storage.Sto
import AirTraffic.Atcd.Plane

set_option autoImplicit false

namespace AirTraffic.Atcd

open AirTraffic.Foundation AirTraffic.Storage

/-! ## Tables -/

/-- The cases of `_sin`. -/
def sinTable : List (Int32 × ℚ) :=
  [(0, 1), (45, 7071 / 10000), (90, 0), (135, -7071 / 10000), (180, -1),
    (225, -7071 / 10000), (270, 0), (315, 7071 / 10000)]

/-- The cases of `_cos`. -/
def cosTable : List (Int32 × ℚ) :=
  [(-30, -1 / 2), (-20, -3420 / 10000), (-10, -1736 / 10000), (0, 0),
    (10, 1736 / 10000), (20, 3420 / 10000), (30, 1 / 2), (45, 7071 / 10000), (90, 1),
    (135, 7071 / 10000), (180, 0), (225, -7071 / 10000), (270, -1), (315, -7071 / 10000)]

section Tables

variable [Platform]

/-- `_sin` -/
def sin (angle : Int32) : ℚ := Platform.double.round ((sinTable.lookup angle).getD 0)

/-- `_cos`: its constants are doubles, and it returns a `float`. -/
def cos (angle : Int32) : ℚ :=
  Platform.single.round (Platform.double.round ((cosTable.lookup angle).getD 0))

end Tables

/-! ## Airports -/

/-- `struct atc_airport` -/
structure AtcAirport where
  x : Int32
  y : Int32
  id : List.Vector UInt8 3
  deriving DecidableEq

/-- `get_airports`: the airports it writes to the buffer.  It returns their
number. -/
def airports : List AtcAirport :=
  [{ x := 1000, y := 1000, id := List.Vector.replicate 3 0 },
    { x := 2000, y := 2000, id := List.Vector.replicate 3 0 }]

/-- `get_airports` -/
def getAirports : Int32 × List AtcAirport := (2, airports)

/-- Within the landing tolerance of an airport, the test of `_in_da_zone`. -/
def nearAirport (plane : AtcPlane) (airport : AtcAirport) : Bool :=
  airport.x - landingTolerance < plane.x && plane.x < airport.x + landingTolerance &&
    airport.y - landingTolerance < plane.y && plane.y < airport.y + landingTolerance

/-- `_in_da_zone`: 0 inside, -1 outside. -/
def inDaZone (plane : AtcPlane) : Int32 :=
  if getAirports.2.any (nearAirport plane) then 0 else -1

/-! ## Moving -/

section Motion

variable [Platform]

/-- `c * speed * time_dif`, in a format. -/
def flown {bits : Nat} (R : Rounding bits) (c : ℚ) (speed timeDif : Int32) : ℚ :=
  R.round (R.round (c * R.round speed.toInt) * R.round timeDif.toInt)

/-- `_set_plane_x_y` -/
def setPlaneXY (plane : AtcPlane) (timeDif : Int32) : AtcPlane :=
  let east := flown Platform.single (cos plane.heading) plane.speed timeDif
  let north := flown Platform.double (sin plane.heading) plane.speed timeDif
  { plane with
    x := remFix (castInt (Platform.single.sum east plane.x.toInt)) maxLen
    y := remFix (castInt (Platform.double.sum north plane.y.toInt)) maxHeight }

/-- The `time_dif` of `calculate_position`, cut to an `int`. -/
def elapsed (plane : AtcPlane) (newTime : Int64) : Int32 :=
  (newTime - plane.time).toInt32

/-- The altitude that `calculate_position` sums up, before it is cast. -/
def altitudeSum (plane : AtcPlane) (newTime : Int64) : ℚ :=
  Platform.single.sum
    (flown Platform.single (cos plane.elevation) plane.speed (elapsed plane newTime))
    plane.z.toInt

/-- The altitude `calculate_position` finds at a time. -/
def altitudeAt (plane : AtcPlane) (newTime : Int64) : Int32 :=
  castInt (altitudeSum plane newTime)

/-- The divisor in the formula of `time_of_crash`. -/
def crashDivisor (plane : AtcPlane) : ℚ :=
  Platform.double.round (sin plane.elevation * (plane.speed.toInt : ℚ))

/-- The `time_of_crash` of `calculate_position`.  A `double` holds every `int`. -/
def timeOfCrash (plane : AtcPlane) (newTime : Int64) : Int32 :=
  let double := Platform.double.round
  let below := altitudeAt plane newTime * (-1)
  -- dividing by zero gives an infinity, and that is what is cast
  if crashDivisor plane = 0 then Platform.indefinite
  else
    castInt (double (double (newTime - plane.time).toInt -
      double ((below.toInt : ℚ) / crashDivisor plane)))

/-- The status `_crashed_or_landed` gives a plane. -/
def groundStatus (plane : AtcPlane) : Int32 :=
  if plane.elevation ≠ -10 ∨ plane.speed > 56 ∨ inDaZone plane = 0 then crashed else landed

/-- The planes database, as `atc_init` makes it. -/
def planesDb : StoDatabase := { rowSize := 64, dataSize := sizeofPlane }

/-- Storing a plane.  The key is the memory that starts at its `id`. -/
def storePlane (plane : AtcPlane) (disk : Disk) : Int32 × Disk :=
  stoSet planesDb plane.bytes plane.bytes disk

/-- `_crashed_or_landed` -/
def crashedOrLanded (plane : AtcPlane) (disk : Disk) : AtcPlane × Disk :=
  let plane := { plane with status := groundStatus plane }
  (plane, (storePlane plane disk).2)

/-- `calculate_position` -/
def calculatePosition (plane : AtcPlane) (newTime : Int64) (disk : Disk) :
    Int32 × AtcPlane × Disk :=
  let aux := altitudeAt plane newTime
  if aux < 0 then
    let crash := timeOfCrash plane newTime
    (0, crashedOrLanded (setPlaneXY { plane with time := crash.toInt64 } crash) disk)
  else
    (1, setPlaneXY { plane with z := aux } (elapsed plane newTime), disk)

/-! ## The two outcomes -/

/-- The plane that stays in the air. -/
def advance (plane : AtcPlane) (newTime : Int64) : AtcPlane :=
  setPlaneXY { plane with z := altitudeAt plane newTime } (elapsed plane newTime)

/-- The plane as it came down. -/
def settle (plane : AtcPlane) (newTime : Int64) : AtcPlane :=
  let crash := timeOfCrash plane newTime
  let down := setPlaneXY { plane with time := crash.toInt64 } crash
  { down with status := groundStatus down }

omit [Platform] in
theorem stoInit_planes : stoInit sizeofPlane = some planesDb := by decide

theorem calculatePosition_down {plane : AtcPlane} {newTime : Int64}
    (h : altitudeAt plane newTime < 0) (disk : Disk) :
    calculatePosition plane newTime disk =
      (0, settle plane newTime, (storePlane (settle plane newTime) disk).2) :=
  if_pos h

theorem calculatePosition_up {plane : AtcPlane} {newTime : Int64}
    (h : ¬ altitudeAt plane newTime < 0) (disk : Disk) :
    calculatePosition plane newTime disk = (1, advance plane newTime, disk) :=
  if_neg h

omit [Platform] in
theorem groundStatus_cases (plane : AtcPlane) :
    groundStatus plane = landed ∨ groundStatus plane = crashed := by
  unfold groundStatus
  split
  · exact Or.inr rfl
  · exact Or.inl rfl

/-- A plane that has come down. -/
def AtcPlane.Down (plane : AtcPlane) : Prop := plane.status = landed ∨ plane.status = crashed

omit [Platform] in
theorem AtcPlane.Down.not_flying {plane : AtcPlane} (down : plane.Down) :
    plane.status ≠ flying := by
  rcases down with h | h <;> rw [h] <;> decide

theorem down_settle (plane : AtcPlane) (newTime : Int64) : (settle plane newTime).Down :=
  groundStatus_cases _

@[simp] theorem settle_id (plane : AtcPlane) (newTime : Int64) :
    (settle plane newTime).id = plane.id := rfl

@[simp] theorem advance_id (plane : AtcPlane) (newTime : Int64) :
    (advance plane newTime).id = plane.id := rfl

/-- The coordinates `_set_plane_x_y` leaves are in range. -/
theorem setPlaneXY_range (plane : AtcPlane) (timeDif : Int32) :
    (0 ≤ (setPlaneXY plane timeDif).x.toInt ∧
        (setPlaneXY plane timeDif).x.toInt < maxLen.toInt) ∧
      0 ≤ (setPlaneXY plane timeDif).y.toInt ∧
        (setPlaneXY plane timeDif).y.toInt < maxHeight.toInt :=
  ⟨remFix_range (by decide), remFix_range (by decide)⟩

/-! ## When no time passes -/

omit [Platform] in
theorem flown_zero {bits : Nat} (R : Rounding bits) (c : ℚ) (speed : Int32) :
    flown R c speed 0 = 0 := by
  rw [flown, Int32.toInt_zero, Int.cast_zero, R.round_zero, mul_zero, R.round_zero]

omit [Platform] in
theorem elapsed_self (plane : AtcPlane) : elapsed plane plane.time = 0 := by
  rw [elapsed, Int64.sub_self]
  rfl

/-- An altitude as a `float`, and back. -/
def floatAltitude (z : Int32) : Int32 := castInt (Platform.single.round z.toInt)

/-- No time has passed: an altitude is what a `float` holds of it. -/
theorem altitudeAt_self (plane : AtcPlane) :
    altitudeAt plane plane.time = floatAltitude plane.z := by
  rw [altitudeAt, altitudeSum, elapsed_self, flown_zero, Platform.single.sum_zero, floatAltitude]

/-- A `float` holds the altitude of the plane. -/
def AtcPlane.Steady (plane : AtcPlane) : Prop :=
  Platform.single.round plane.z.toInt = plane.z.toInt

theorem AtcPlane.Steady.altitude {plane : AtcPlane} (steady : plane.Steady) :
    floatAltitude plane.z = plane.z := by
  rw [floatAltitude, show Platform.single.round plane.z.toInt = _ from steady, castInt_toInt]

theorem floatAltitude_floatAltitude (z : Int32) :
    floatAltitude (floatAltitude z) = floatAltitude z := by
  have hheld : Platform.single.round (floatAltitude z).toInt = (floatAltitude z).toInt :=
    single_castInt _
  rw [floatAltitude, hheld, castInt_toInt]

/-- What was calculated is held. -/
theorem steady_advance (plane : AtcPlane) (newTime : Int64) : (advance plane newTime).Steady :=
  single_castInt _

/-- Coordinates on the map stay when no time passes. -/
theorem setPlaneXY_zero {plane : AtcPlane}
    (hx : 0 ≤ plane.x.toInt ∧ plane.x.toInt < maxLen.toInt)
    (hy : 0 ≤ plane.y.toInt ∧ plane.y.toInt < maxHeight.toInt) :
    setPlaneXY plane 0 = plane := by
  have hlen : maxLen.toInt = 4000 := by decide
  have hheight : maxHeight.toInt = 4000 := by decide
  have hsingle : Platform.single.round plane.x.toInt = plane.x.toInt :=
    Platform.single.round_intCast (abs_le.mpr ⟨by omega, by omega⟩)
  have hdouble : Platform.double.round plane.y.toInt = plane.y.toInt :=
    Platform.double.round_intCast (abs_le.mpr ⟨by omega, by omega⟩)
  simp only [setPlaneXY, flown_zero, Rounding.sum_zero, hsingle, hdouble, castInt_toInt]
  rw [remFix_of_range (by decide) hx.1 hx.2, remFix_of_range (by decide) hy.1 hy.2]

theorem advance_self {plane : AtcPlane} (steady : plane.Steady)
    (hx : 0 ≤ plane.x.toInt ∧ plane.x.toInt < maxLen.toInt)
    (hy : 0 ≤ plane.y.toInt ∧ plane.y.toInt < maxHeight.toInt) :
    advance plane plane.time = plane := by
  rw [advance, altitudeAt_self, steady.altitude, elapsed_self]
  exact setPlaneXY_zero hx hy

end Motion

end AirTraffic.Atcd
