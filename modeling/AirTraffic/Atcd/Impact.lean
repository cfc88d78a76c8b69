/-
  Atcd/Impact.lean --- when a plane comes down, and as what.

  WHAT THIS FILE IS FOR.  Here is what `calculate_position` makes of a plane in trim.
  It is down once the altitude that it sums up in `float`s is a metre below the
  ground, or past the largest `int` (`altitudeAt_neg_iff`).  Every impact is put where
  an x86 puts it after the smallest `int` of seconds: on the line 352 of the map, away
  from all airports.  So every plane that glides slowly enough has landed, wherever it
  flew (`grounded_settle`).

  ROUNDING.  None of this depends on how floats are rounded.  The way of the smallest
  `int` of seconds is so far out of range that no rounding brings it back.
-/
import AirTraffic.Atcd.Observation

set_option autoImplicit false

namespace AirTraffic.Atcd

open AirTraffic.Foundation AirTraffic.Storage

variable {plane : AtcPlane}

section Impact

variable [Platform] {now : Int64}

/-! ## When -/

/-- A metre below the ground, or beyond the largest `int`. -/
def AtcPlane.OutOfSky (plane : AtcPlane) (now : Int64) : Prop :=
  altitudeSum plane now ≤ -1 ∨ 2 ^ 31 ≤ altitudeSum plane now

instance (plane : AtcPlane) (now : Int64) : Decidable (plane.OutOfSky now) :=
  inferInstanceAs (Decidable (_ ∨ _))

/-- **When a plane is down.** -/
theorem altitudeAt_neg_iff (hcast : Platform.indefinite < 0) (plane : AtcPlane) (now : Int64) :
    altitudeAt plane now < 0 ↔ plane.OutOfSky now := by
  rw [altitudeAt, castInt_neg_iff hcast, trunc_neg_iff, le_trunc_iff (by decide),
    AtcPlane.OutOfSky]
  push_cast
  exact Iff.rfl

/-! ## Where -/

omit [Platform] in
theorem half_le_abs_round {bits : Nat} (R : Rounding bits) {c : ℚ} (h : 1 / 2 ≤ |c|) :
    1 / 2 ≤ |R.round c| := by
  have hone : |(1 : Int)| ≤ 2 ^ bits := by
    rw [abs_one]
    exact one_le_pow₀ (by norm_num)
  have hround := @Rounding.le_abs_round _ R 1 (-1) hone c (by norm_num at h ⊢; exact h)
  norm_num at hround ⊢
  exact hround

/-- Along one of the axes a heading leads a long way. -/
theorem InTrim.course (trim : InTrim plane) :
    1 / 2 ≤ |cos plane.heading| ∨ 1 / 2 ≤ |sin plane.heading| := by
  have htable : 1 / 2 ≤ |(cosTable.lookup plane.heading).getD 0| ∨
      1 / 2 ≤ |(sinTable.lookup plane.heading).getD 0| := by
    have hheading := trim.heading_cases
    simp only [List.mem_cons, List.not_mem_nil, or_false] at hheading
    rcases hheading with h | h | h | h | h | h | h | h <;> rw [h] <;> decide +kernel
  exact htable.imp
    (fun h => half_le_abs_round Platform.single (half_le_abs_round Platform.double h))
    (half_le_abs_round Platform.double)

omit [Platform] in
/-- In the smallest `int` of seconds a plane flies at least 21 m for each of them. -/
theorem flown_far {bits : Nat} (R : Rounding bits) (hbits : (4000 : Int) ≤ 2 ^ bits) {c : ℚ}
    (hc : 1 / 2 ≤ |c|) {speed : Int32} (hspeed : 42 ≤ speed.toInt) :
    (21 : ℚ) * 2 ^ 31 ≤ |flown R c speed (-2147483648)| := by
  have hfew : |(21 : Int)| ≤ 2 ^ bits := le_trans (by norm_num) hbits
  have htime : R.round ((-2147483648 : Int32).toInt : ℚ) = -2 ^ 31 := by
    have hmin : (-2147483648 : Int32).toInt = -2147483648 := by decide
    have hfixed := R.fixed (-1) 31 (le_trans (by norm_num) hbits)
    rw [hmin]
    norm_num at hfixed ⊢
    exact hfixed
  have hfast : (42 : ℚ) ≤ |R.round (speed.toInt : ℚ)| := by
    have hspeed' : (42 : ℚ) ≤ (speed.toInt : ℚ) := by exact_mod_cast hspeed
    have hround := @Rounding.le_abs_round _ R 42 0 (le_trans (by norm_num) hbits) speed.toInt
      (le_abs.mpr (.inl (by norm_num; exact hspeed')))
    norm_num at hround
    exact hround
  have hpace : (21 : ℚ) ≤ |R.round (c * R.round (speed.toInt : ℚ))| := by
    have hround := @Rounding.le_abs_round _ R 21 0 hfew (c * R.round (speed.toInt : ℚ)) (by
      rw [abs_mul, zpow_zero, mul_one]
      calc ((21 : Int) : ℚ) = 1 / 2 * 42 := by norm_num
        _ ≤ |c| * |R.round (speed.toInt : ℚ)| :=
          mul_le_mul hc hfast (by norm_num) (abs_nonneg c))
    norm_num at hround
    exact hround
  have hway := @Rounding.le_abs_round _ R 21 31 hfew
    (R.round (c * R.round (speed.toInt : ℚ)) * -2 ^ 31) (by
      rw [abs_mul, abs_neg, abs_of_pos (show (0 : ℚ) < 2 ^ 31 by norm_num)]
      exact mul_le_mul_of_nonneg_right hpace (by norm_num))
  rw [flown, htime]
  exact hway

/-- That is out of range. -/
theorem castInt_far (hcast : Platform.indefinite = -2147483648) {bits : Nat} (R : Rounding bits)
    (hbits : (4000 : Int) ≤ 2 ^ bits) {c : ℚ} (hc : 1 / 2 ≤ |c|) {speed : Int32}
    (hspeed : 42 ≤ speed.toInt) {x : Int} (hx : 0 ≤ x ∧ x < 4000) :
    castInt (R.sum (flown R c speed (-2147483648)) x) = -2147483648 := by
  have hfar := flown_far R hbits hc hspeed
  have hstart : R.round (x : ℚ) = x := R.round_intCast (abs_le.mpr ⟨by omega, by omega⟩)
  have hshort : |(x : ℚ)| ≤ 4000 := by
    rw [abs_of_nonneg (by exact_mod_cast hx.1)]
    exact_mod_cast Int.le_of_lt hx.2
  have hsum : (20 : ℚ) * 2 ^ 31 ≤ |R.sum (flown R c speed (-2147483648)) x| := by
    refine @Rounding.le_abs_round _ R 20 31 (le_trans (by norm_num) hbits) _ ?_
    rw [hstart]
    have htriangle := abs_sub_abs_le_abs_sub (flown R c speed (-2147483648)) (-(x : ℚ))
    rw [abs_neg, sub_neg_eq_add] at htriangle
    norm_num at hfar ⊢
    linarith
  have hnot : ¬ FitsInt (trunc (R.sum (flown R c speed (-2147483648)) x)) := by
    intro hfits
    have hin := abs_lt_of_fits hfits
    linarith
  rw [castInt, if_neg hnot, hcast]

/-- A plane that has come down, as it is stored. -/
structure Grounded (plane : AtcPlane) : Prop where
  trim : InTrim plane
  down : plane.Down
  verdict : plane.status = landed ↔ plane.elevation = -10 ∧ plane.speed ≤ 56
  place : plane.x = 352 ∨ plane.y = 352
  outside : ∀ airport ∈ getAirports.2, ¬ plane.IsNear airport
  time : plane.time = -2147483648

omit [Platform] in
/-- The line 352 is outside all landing zones. -/
theorem not_near_of_place (h : plane.x = 352 ∨ plane.y = 352) {airport : AtcAirport}
    (hmem : airport ∈ getAirports.2) : ¬ plane.IsNear airport := by
  have hline : (352 : Int32).toInt = 352 := by decide
  have htolerance : landingTolerance.toInt = 500 := by decide
  have hat : airport.x.toInt = airport.y.toInt ∧ 1000 ≤ airport.x.toInt := by
    simp only [getAirports, airports, List.mem_cons, List.not_mem_nil, or_false] at hmem
    rcases hmem with rfl | rfl <;> decide
  rw [AtcPlane.IsNear, htolerance, abs_lt, abs_lt]
  rcases h with h | h
  · rw [h, hline]
    omega
  · rw [h, hline]
    omega

/-- **Every impact is alike.** -/
theorem grounded_settle (hcast : Platform.indefinite = -2147483648) (worthy : Airworthy plane)
    (hdown : altitudeAt plane now < 0) : Grounded (settle plane now) := by
  have hcrash : timeOfCrash plane now = -2147483648 := by
    rw [timeOfCrash_of_divisor_eq_zero (crashDivisor_of_down worthy hdown), hcast]
  have hline : remFix (-2147483648) maxLen = 352 ∧ remFix (-2147483648) maxHeight = 352 := by
    decide
  have hplace : (settle plane now).x = 352 ∨ (settle plane now).y = 352 := by
    simp only [settle, setPlaneXY, hcrash]
    rcases worthy.toInTrim.course with hcos | hsin
    · refine Or.inl ?_
      rw [castInt_far hcast Platform.single (by norm_num) hcos worthy.speed.1.1 worthy.x]
      exact hline.1
    · refine Or.inr ?_
      rw [castInt_far hcast Platform.double (by norm_num) hsin worthy.speed.1.1 worthy.y]
      exact hline.2
  have houtside : ∀ airport ∈ getAirports.2, ¬ (settle plane now).IsNear airport :=
    fun _ => not_near_of_place hplace
  refine
    { trim := worthy.toInTrim.congr rfl rfl rfl
      down := down_settle plane now
      verdict := ?_
      place := hplace
      outside := houtside
      time := by rw [settle, hcrash]; rfl }
  by_cases hglides : plane.elevation = -10 ∧ ¬ plane.speed > 56
  · refine iff_of_true ?_ ⟨hglides.1, Int32.not_lt.mp hglides.2⟩
    have hlevel : (settle plane now).elevation = -10 := hglides.1
    have hslow : ¬ (settle plane now).speed > 56 := hglides.2
    refine (groundStatus_of_level hlevel hslow).mpr ?_
    rintro ⟨airport, hmem, hnear⟩
    exact houtside airport hmem hnear
  · have hcrashes : (settle plane now).status = crashed := by
      refine if_pos ?_
      rw [Classical.not_and_iff_not_or_not, not_not] at hglides
      exact hglides.imp_right Or.inl
    refine iff_of_false ?_ fun hslow => hglides ⟨hslow.1, Int32.not_lt.mpr hslow.2⟩
    rw [hcrashes]
    decide

/-! ## The verdict -/

/-- What becomes of a plane that was stored in the air. -/
def AtcPlane.verdict (plane : AtcPlane) (now : Int64) : Int32 :=
  if plane.OutOfSky now then
    if plane.elevation = -10 ∧ plane.speed ≤ 56 then landed else crashed
  else flying

/-- A poll finds this. -/
theorem status_polled (hcast : Platform.indefinite = -2147483648) {plane : AtcPlane}
    (now : Int64) (hflying : plane.status = flying) (worthy : Airworthy plane) :
    (polled now plane).status = plane.verdict now := by
  have hneg : Platform.indefinite < 0 := by rw [hcast]; decide
  have hdown := altitudeAt_neg_iff hneg plane now
  unfold polled AtcPlane.verdict
  by_cases hout : plane.OutOfSky now
  · have hcomes : ComesDown now plane := ⟨hflying, hdown.mpr hout⟩
    have grounded := grounded_settle hcast worthy hcomes.2
    rw [if_pos hcomes, if_pos hout]
    have hverdict : (settle plane now).status = landed ↔
        plane.elevation = -10 ∧ plane.speed ≤ 56 := grounded.verdict
    split
    · rename_i hglides
      exact hverdict.mpr hglides
    · rename_i hother
      exact grounded.down.resolve_left (mt hverdict.mp hother)
  · have hstays : ¬ ComesDown now plane := fun hcomes => hout (hdown.mp hcomes.2)
    rw [if_neg hstays, if_neg hout, hflying]

end Impact

end AirTraffic.Atcd
