/-
  Atcd/Landing.lean --- what happens on the ground.

  WHAT THIS FILE IS FOR.  A plane that comes down at the right angle and slowly,
  near an airport, has landed.  `_in_da_zone` answers 0 inside the zone of an
  airport and -1 outside, and `_crashed_or_landed` reads the answer as a truth
  value, so for planes that come down well the verdict is the opposite of the
  rule (`follows_rule_iff`).  When and where a plane came down is computed with
  the sine of its elevation, and the table of sines has none of the elevations:
  the division is by zero at every impact (`impact_divides_by_zero`).
-/
import AirTraffic.Atcd.Motion
import Mathlib.Algebra.Order.Group.Unbundled.Abs

set_option autoImplicit false

namespace AirTraffic.Atcd

open AirTraffic.Foundation AirTraffic.Storage

/-! ## The landing zones -/

/-- Strictly within `LANDING_TOLERANCE` of an airport, in both coordinates. -/
def AtcPlane.IsNear (plane : AtcPlane) (airport : AtcAirport) : Prop :=
  |plane.x.toInt - airport.x.toInt| < landingTolerance.toInt ∧
    |plane.y.toInt - airport.y.toInt| < landingTolerance.toInt

/-- The test of `_in_da_zone` computes without overflow. -/
theorem nearAirport_iff {plane : AtcPlane} {airport : AtcAirport} (h : airport ∈ airports) :
    nearAirport plane airport = true ↔ plane.IsNear airport := by
  simp only [nearAirport, Bool.and_eq_true, decide_eq_true_eq, AtcPlane.IsNear, abs_lt,
    Int32.lt_iff_toInt_lt]
  simp only [airports, List.mem_cons, List.not_mem_nil, or_false] at h
  rcases h with rfl | rfl
  · have hlow : ((1000 : Int32) - landingTolerance).toInt = 500 := by decide
    have hhigh : ((1000 : Int32) + landingTolerance).toInt = 1500 := by decide
    have hat : (1000 : Int32).toInt = 1000 := by decide
    have htolerance : landingTolerance.toInt = 500 := by decide
    simp only [hlow, hhigh, hat, htolerance]
    omega
  · have hlow : ((2000 : Int32) - landingTolerance).toInt = 1500 := by decide
    have hhigh : ((2000 : Int32) + landingTolerance).toInt = 2500 := by decide
    have hat : (2000 : Int32).toInt = 2000 := by decide
    have htolerance : landingTolerance.toInt = 500 := by decide
    simp only [hlow, hhigh, hat, htolerance]
    omega

/-- `_in_da_zone` answers 0 exactly near an airport. -/
theorem inDaZone_eq_zero_iff (plane : AtcPlane) :
    inDaZone plane = 0 ↔ ∃ airport ∈ getAirports.2, plane.IsNear airport := by
  have hany : getAirports.2.any (nearAirport plane) = true ↔
      ∃ airport ∈ getAirports.2, plane.IsNear airport := by
    rw [List.any_eq_true]
    exact exists_congr fun airport => and_congr_right fun h => nearAirport_iff h
  unfold inDaZone
  split
  next h => exact iff_of_true rfl (hany.mp h)
  next h => exact iff_of_false (by decide) (fun hnear => h (hany.mpr hnear))

/-! ## The verdict -/

/-- It lands: at the right angle, slowly, and near an airport. -/
def AtcPlane.Lands (plane : AtcPlane) : Prop :=
  plane.elevation = -10 ∧ plane.speed ≤ 56 ∧ ∃ airport ∈ getAirports.2, plane.IsNear airport

/-- What `_crashed_or_landed` sets and stores is landed for a plane that lands and
crashed for any other. -/
structure FollowsRule (plane : AtcPlane) (disk : Disk) : Prop where
  landed : (crashedOrLanded plane disk).1.status = landed ↔ plane.Lands
  crashed : ¬ plane.Lands → (crashedOrLanded plane disk).1.status = crashed
  stored : (crashedOrLanded plane disk).2 =
    (storePlane { plane with status := (crashedOrLanded plane disk).1.status } disk).2

/-- A plane that comes down well is `landed` away from the airports. -/
theorem groundStatus_of_level {plane : AtcPlane} (elevation : plane.elevation = -10)
    (speed : ¬ plane.speed > 56) :
    groundStatus plane = landed ↔ ¬ ∃ airport ∈ getAirports.2, plane.IsNear airport := by
  rw [← inDaZone_eq_zero_iff]
  unfold groundStatus
  split
  next h =>
    rcases h with hsteep | hfast | hzone
    · exact absurd elevation hsteep
    · exact absurd hfast speed
    · exact iff_of_false (by decide) (fun hout => hout hzone)
  next h => exact iff_of_true rfl fun hzone => h (.inr (.inr hzone))

/-- **When the landing rule holds.**  For the planes that crash wherever they come
down. -/
theorem follows_rule_iff (plane : AtcPlane) (disk : Disk) :
    FollowsRule plane disk ↔ plane.elevation ≠ -10 ∨ plane.speed > 56 := by
  have hstatus : (crashedOrLanded plane disk).1.status = groundStatus plane := rfl
  constructor
  · intro rule
    by_contra hwell
    obtain ⟨helevation, hspeed⟩ := not_or.mp hwell
    have hlevel := Decidable.not_not.mp helevation
    have hverdict := groundStatus_of_level hlevel hspeed
    have hrule := rule.landed
    rw [hstatus, hverdict] at hrule
    by_cases hnear : ∃ airport ∈ getAirports.2, plane.IsNear airport
    · exact hrule.mpr ⟨hlevel, Int32.not_lt.mp hspeed, hnear⟩ hnear
    · exact hnear (hrule.mp hnear).2.2
  · intro hbadly
    have hcrash : groundStatus plane = crashed := if_pos (hbadly.imp_right .inl)
    have hnot : ¬ plane.Lands := by
      rintro ⟨helevation, hspeed, _⟩
      rcases hbadly with hsteep | hfast
      · exact hsteep helevation
      · exact Int32.not_lt.mpr hspeed hfast
    refine ⟨iff_of_false ?_ hnot, fun _ => hcrash, rfl⟩
    rw [hstatus, hcrash]
    decide

/-- It comes down at the right angle and slowly, far from the airports. -/
def farPlane : AtcPlane where
  id := List.Vector.replicate 6 65
  pad := List.Vector.replicate 2 0
  x := 352
  y := 1000
  z := 100
  time := 0
  heading := 90
  elevation := -10
  speed := 42
  status := flying

theorem far_plane_lands : ¬ ∀ (plane : AtcPlane) (disk : Disk), FollowsRule plane disk := by
  intro hrule
  have hfar : ¬ ∃ airport ∈ getAirports.2, farPlane.IsNear airport := by
    rw [← inDaZone_eq_zero_iff]
    decide
  have hlanded : (crashedOrLanded farPlane (Disk.sound [])).1.status = landed :=
    (groundStatus_of_level rfl (by decide)).mpr hfar
  exact hfar ((hrule farPlane (Disk.sound [])).landed.mp hlanded).2.2

/-! ## The impact -/

section Impact

variable [Platform]

/-- A flying plane that a poll finds below the ground. -/
structure Falls (plane : AtcPlane) (newTime : Int64) : Prop where
  status : plane.status = flying
  altitude : 0 ≤ plane.z
  speed : 42 ≤ plane.speed ∧ plane.speed ≤ 280
  elevation : plane.elevation = -30 ∨ plane.elevation = -20 ∨ plane.elevation = -10
  later : plane.time ≤ newTime
  below : altitudeAt plane newTime < 0

/-- The impact is computed without a division by zero, lies between the two times,
and is recorded where and when it was. -/
structure ImpactRight (plane : AtcPlane) (newTime : Int64) (disk : Disk) : Prop where
  divisor : crashDivisor plane ≠ 0
  delay : 0 ≤ (timeOfCrash plane newTime).toInt ∧
    (timeOfCrash plane newTime).toInt ≤ newTime.toInt - plane.time.toInt
  position :
    (calculatePosition plane newTime disk).2.1.x =
        (setPlaneXY plane (timeOfCrash plane newTime)).x ∧
      (calculatePosition plane newTime disk).2.1.y =
        (setPlaneXY plane (timeOfCrash plane newTime)).y
  time : (calculatePosition plane newTime disk).2.1.time.toInt =
    plane.time.toInt + (timeOfCrash plane newTime).toInt

/-- The sine of an angle that is not in the table. -/
theorem sin_of_lookup {angle : Int32} (h : sinTable.lookup angle = none) : sin angle = 0 := by
  rw [sin, h]
  exact Platform.double.round_zero

theorem crashDivisor_of_sin {plane : AtcPlane} (h : sin plane.elevation = 0) :
    crashDivisor plane = 0 := by
  rw [crashDivisor, h, zero_mul, Platform.double.round_zero]

/-- No elevation below the horizon is in the table of `_sin`. -/
theorem crashDivisor_eq_zero {plane : AtcPlane}
    (h : plane.elevation = -30 ∨ plane.elevation = -20 ∨ plane.elevation = -10) :
    crashDivisor plane = 0 := by
  apply crashDivisor_of_sin
  rcases h with h | h | h <;> rw [h] <;> exact sin_of_lookup rfl

theorem timeOfCrash_of_divisor_eq_zero {plane : AtcPlane} (h : crashDivisor plane = 0)
    (newTime : Int64) : timeOfCrash plane newTime = Platform.indefinite := if_pos h

/-- **No impact is computed.**  Whenever a plane falls the divisor is zero, and the
delay is what the platform makes of an infinity. -/
theorem impact_divides_by_zero {plane : AtcPlane} {newTime : Int64} (falls : Falls plane newTime)
    (disk : Disk) :
    crashDivisor plane = 0 ∧ timeOfCrash plane newTime = Platform.indefinite ∧
      ¬ ImpactRight plane newTime disk := by
  have hzero := crashDivisor_eq_zero falls.elevation
  exact ⟨hzero, timeOfCrash_of_divisor_eq_zero hzero newTime, fun right => right.divisor hzero⟩

end Impact

theorem farPlane_falls : @Falls x86 farPlane 100 := by
  let _ : Platform := x86
  exact ⟨rfl, by decide, by decide, .inr (.inr rfl), by decide, by decide +kernel⟩

theorem far_plane_divides_by_zero :
    @crashDivisor x86 farPlane = 0 ∧ @timeOfCrash x86 farPlane 100 = -2147483648 ∧
      ¬ @ImpactRight x86 farPlane 100 (Disk.sound []) := by
  let _ : Platform := x86
  exact impact_divides_by_zero farPlane_falls (Disk.sound [])

/-- Not even where nothing is rounded. -/
theorem impact_is_not_right :
    ¬ ∀ [Platform] (plane : AtcPlane) (newTime : Int64) (disk : Disk), Platform.IsExact →
      Falls plane newTime → ImpactRight plane newTime disk := by
  let _ : Platform := exactX86
  intro hright
  have hzero : crashDivisor farPlane = 0 := crashDivisor_eq_zero (.inr (.inr rfl))
  have falls : Falls farPlane 100 :=
    ⟨rfl, by decide, by decide, .inr (.inr rfl), by decide, by decide +kernel⟩
  exact (hright farPlane 100 (Disk.sound []) isExact_exactX86 falls).divisor hzero

end AirTraffic.Atcd
