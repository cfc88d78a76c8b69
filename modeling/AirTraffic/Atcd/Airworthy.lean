/-
  Atcd/Airworthy.lean --- what a plane in the air looks like.

  WHAT THIS FILE IS FOR.  A flying plane has its coordinates on the map, an
  altitude that is not negative, one of the eight headings, one of the seven
  elevations and a speed that is a multiple of 14 between the two limits.  Every
  operation keeps this: `create_plane` makes such a plane, moving one leaves its
  attributes alone, and each command moves one attribute to the next value.  The
  altitude is also one that a `float` holds, so a command leaves it where it is.
-/
import Mathlib.Tactic.IntervalCases
import AirTraffic.Atcd.Game

set_option autoImplicit false

namespace AirTraffic.Atcd

open AirTraffic.Foundation

/-- Heading, elevation and speed in range and on their steps. -/
structure InTrim (plane : AtcPlane) : Prop where
  heading : (0 ≤ plane.heading.toInt ∧ plane.heading.toInt ≤ 315) ∧ 45 ∣ plane.heading.toInt
  elevation :
    (-30 ≤ plane.elevation.toInt ∧ plane.elevation.toInt ≤ 30) ∧ 10 ∣ plane.elevation.toInt
  speed : (42 ≤ plane.speed.toInt ∧ plane.speed.toInt ≤ 280) ∧ 14 ∣ plane.speed.toInt

/-- A plane as it flies. -/
structure Airworthy [Platform] (plane : AtcPlane) : Prop extends InTrim plane where
  x : 0 ≤ plane.x.toInt ∧ plane.x.toInt < maxLen.toInt
  y : 0 ≤ plane.y.toInt ∧ plane.y.toInt < maxHeight.toInt
  z : 0 ≤ plane.z.toInt
  steady : plane.Steady

/-- Trim is a matter of three attributes. -/
theorem InTrim.congr {plane other : AtcPlane} (trim : InTrim plane)
    (hheading : other.heading = plane.heading) (helevation : other.elevation = plane.elevation)
    (hspeed : other.speed = plane.speed) : InTrim other where
  heading := hheading ▸ trim.heading
  elevation := helevation ▸ trim.elevation
  speed := hspeed ▸ trim.speed

theorem Airworthy.congr [Platform] {plane other : AtcPlane} (worthy : Airworthy plane)
    (trim : InTrim other) (hx : other.x = plane.x) (hy : other.y = plane.y)
    (hz : other.z = plane.z) : Airworthy other where
  toInTrim := trim
  x := hx ▸ worthy.x
  y := hy ▸ worthy.y
  z := hz ▸ worthy.z
  steady := by
    unfold AtcPlane.Steady
    rw [hz]
    exact worthy.steady

/-! ## Creation -/

theorem airworthy_newPlane [Platform] (chance : Chance) (now : Int64) :
    Airworthy (newPlane chance now) := by
  have hof : ∀ n : Nat, n < 2 ^ 31 → (Int32.ofNat n).toInt = n :=
    fun _ => Int32.toInt_ofNat_of_lt
  have hx := hof (chance.rand 6 % 4000) (by omega)
  have hy := hof (chance.rand 7 % 4000) (by omega)
  have hz := hof (chance.rand 8 % 9000 + 1000) (by omega)
  have hheading := hof (chance.rand 9 % 7 * 45) (by omega)
  have hspeed := hof (chance.rand 10 % 15 * 14 + 42) (by omega)
  have hmaxLen : maxLen.toInt = 4000 := by decide
  have hmaxHeight : maxHeight.toInt = 4000 := by decide
  have helevation : (0 : Int32).toInt = 0 := by decide
  exact
    { heading := by rw [newPlane, hheading]; omega
      elevation := by rw [newPlane, helevation]; omega
      speed := by rw [newPlane, hspeed]; omega
      x := by rw [newPlane, hx, hmaxLen]; omega
      y := by rw [newPlane, hy, hmaxHeight]; omega
      z := by rw [newPlane, hz]; omega
      steady := by
        unfold AtcPlane.Steady
        rw [newPlane, hz]
        exact Platform.single.round_intCast (abs_le.mpr ⟨by omega, by omega⟩) }

/-! ## Motion -/

/-- A plane in trim that is found in the air is airworthy there. -/
theorem airworthy_advance [Platform] {plane : AtcPlane} {now : Int64} (trim : InTrim plane)
    (hup : ¬ altitudeAt plane now < 0) : Airworthy (advance plane now) := by
  have hrange := setPlaneXY_range { plane with z := altitudeAt plane now }
    (elapsed plane now)
  exact
    { toInTrim := trim.congr rfl rfl rfl
      x := hrange.1
      y := hrange.2
      z := Int32.le_iff_toInt_le.mp (Int32.not_lt.mp hup)
      steady := steady_advance plane now }

/-! ## Commands -/

/-- The eight headings. -/
theorem InTrim.heading_cases {plane : AtcPlane} (trim : InTrim plane) :
    plane.heading ∈ ([0, 45, 90, 135, 180, 225, 270, 315] : List Int32) := by
  obtain ⟨⟨hlow, hhigh⟩, k, hk⟩ := trim.heading
  have hof : plane.heading = Int32.ofInt (45 * k) := by
    rw [← hk, Int32.ofInt_toInt]
  have hklow : 0 ≤ k := by omega
  have hkhigh : k ≤ 7 := by omega
  rw [hof]
  interval_cases k <;> decide

/-- One of the eight headings, as a range. -/
def IsHeading (heading : Int32) : Prop :=
  (0 ≤ heading.toInt ∧ heading.toInt ≤ 315) ∧ 45 ∣ heading.toInt

instance (heading : Int32) : Decidable (IsHeading heading) :=
  inferInstanceAs (Decidable (_ ∧ _))

theorem isHeading_turn {heading : Int32}
    (h : heading ∈ ([0, 45, 90, 135, 180, 225, 270, 315] : List Int32)) :
    IsHeading ((if heading = 0 then 360 else heading) - 45) ∧
      IsHeading ((heading + 45).toUInt32 % 360).toInt32 := by
  simp only [List.mem_cons, List.not_mem_nil, or_false] at h
  rcases h with rfl | rfl | rfl | rfl | rfl | rfl | rfl | rfl <;> decide

/-- A value on a grid moves by one step. -/
theorem toInt_step (value step : Int32) (hlow : -1000 ≤ value.toInt)
    (hhigh : value.toInt ≤ 1000) (hstep : 0 ≤ step.toInt ∧ step.toInt ≤ 1000) :
    (value + step).toInt = value.toInt + step.toInt ∧
      (value - step).toInt = value.toInt - step.toInt :=
  ⟨Int32.toInt_add_of_range (by omega) (by omega),
    Int32.toInt_sub_of_range (by omega) (by omega)⟩

namespace InTrim

variable {plane : AtcPlane}

theorem speedUp (trim : InTrim plane) (hlimit : ¬ plane.speed ≥ 280) :
    InTrim { plane with speed := plane.speed + 14 } := by
  obtain ⟨⟨hlow, hhigh⟩, hdvd⟩ := trim.speed
  have hstep : (14 : Int32).toInt = 14 := by decide
  have hmax : (280 : Int32).toInt = 280 := by decide
  have hlt := Int32.lt_iff_toInt_lt.mp (Int32.not_le.mp hlimit)
  have hspeed := (toInt_step plane.speed 14 (by omega) (by omega) (by omega)).1
  exact { trim with speed := by dsimp only; omega }

theorem speedDown (trim : InTrim plane) (hlimit : ¬ plane.speed ≤ 42) :
    InTrim { plane with speed := plane.speed - 14 } := by
  obtain ⟨⟨hlow, hhigh⟩, hdvd⟩ := trim.speed
  have hstep : (14 : Int32).toInt = 14 := by decide
  have hmin : (42 : Int32).toInt = 42 := by decide
  have hlt := Int32.lt_iff_toInt_lt.mp (Int32.not_le.mp hlimit)
  have hspeed := (toInt_step plane.speed 14 (by omega) (by omega) (by omega)).2
  exact { trim with speed := by dsimp only; omega }

/-- The limit is tested for equality: the steps of 10 do not jump over it. -/
theorem climb (trim : InTrim plane) (hlimit : plane.elevation ≠ 30) :
    InTrim { plane with elevation := plane.elevation + 10 } := by
  obtain ⟨⟨hlow, hhigh⟩, hdvd⟩ := trim.elevation
  have hstep : (10 : Int32).toInt = 10 := by decide
  have hmax : (30 : Int32).toInt = 30 := by decide
  have hne : plane.elevation.toInt ≠ (30 : Int32).toInt :=
    fun heq => hlimit (Int32.toInt_inj.mp heq)
  have helevation := (toInt_step plane.elevation 10 (by omega) (by omega) (by omega)).1
  exact { trim with elevation := by dsimp only; omega }

theorem descend (trim : InTrim plane) (hlimit : plane.elevation ≠ -30) :
    InTrim { plane with elevation := plane.elevation - 10 } := by
  obtain ⟨⟨hlow, hhigh⟩, hdvd⟩ := trim.elevation
  have hstep : (10 : Int32).toInt = 10 := by decide
  have hmin : (-30 : Int32).toInt = -30 := by decide
  have hne : plane.elevation.toInt ≠ (-30 : Int32).toInt :=
    fun heq => hlimit (Int32.toInt_inj.mp heq)
  have helevation := (toInt_step plane.elevation 10 (by omega) (by omega) (by omega)).2
  exact { trim with elevation := by dsimp only; omega }

end InTrim

/-- A command keeps a plane in trim. -/
theorem inTrim_applyCommand {cmd : Int32} (plane : AtcPlane) {changed : AtcPlane}
    (trim : InTrim plane)
    (h : applyCommand cmd plane = some changed) : InTrim changed := by
  obtain ⟨hright, hleft⟩ := isHeading_turn trim.heading_cases
  unfold applyCommand at h
  split at h
  · split at h
    · exact absurd h (by simp)
    · rename_i hlimit
      obtain rfl := Option.some.inj h
      exact trim.speedUp hlimit
  · split at h
    · exact absurd h (by simp)
    · rename_i hlimit
      obtain rfl := Option.some.inj h
      exact trim.speedDown hlimit
  · split at h
    · exact absurd h (by simp)
    · rename_i hlimit
      obtain rfl := Option.some.inj h
      exact trim.climb hlimit
  · split at h
    · exact absurd h (by simp)
    · rename_i hlimit
      obtain rfl := Option.some.inj h
      exact trim.descend hlimit
  · obtain rfl := Option.some.inj h
    -- north is 360 before the turn
    by_cases hnorth : plane.heading = 0
    · rw [if_pos hnorth] at hright ⊢
      exact { trim with heading := hright }
    · rw [if_neg hnorth] at hright ⊢
      exact { trim with heading := hright }
  · obtain rfl := Option.some.inj h
    exact { trim with heading := hleft }
  · exact absurd h (by simp)

/-! ## Attributes -/

/-- The attributes that commands change. -/
structure Trim where
  heading : Int32
  elevation : Int32
  speed : Int32
  deriving DecidableEq

/-- The attributes of a plane. -/
def AtcPlane.trim (plane : AtcPlane) : Trim where
  heading := plane.heading
  elevation := plane.elevation
  speed := plane.speed

/-- Whether a command applies, and what it does, depends on the attributes. -/
theorem applyCommand_trim (plane other : AtcPlane) (h : other.trim = plane.trim)
    (cmd : Int32) :
    (applyCommand cmd other).map AtcPlane.trim =
      (applyCommand cmd plane).map AtcPlane.trim := by
  obtain ⟨hheading, helevation, hspeed⟩ := Trim.mk.inj h
  unfold applyCommand
  cases AtcCommand.ofCode cmd with
  | none => rfl
  | some command =>
      cases command with
      | speedUp =>
          simp only [hspeed]
          split <;> simp [AtcPlane.trim, hheading, helevation]
      | speedDown =>
          simp only [hspeed]
          split <;> simp [AtcPlane.trim, hheading, helevation]
      | climb =>
          simp only [helevation]
          split <;> simp [AtcPlane.trim, hheading, hspeed]
      | descend =>
          simp only [helevation]
          split <;> simp [AtcPlane.trim, hheading, hspeed]
      | turnRight =>
          simp only [hheading]
          split <;> simp [AtcPlane.trim, hheading, helevation, hspeed]
      | turnLeft => simp [AtcPlane.trim, hheading, helevation, hspeed]

end AirTraffic.Atcd
