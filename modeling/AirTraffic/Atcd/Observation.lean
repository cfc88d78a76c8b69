/-
  Atcd/Observation.lean --- a poll finds what a later poll finds.

  WHAT THIS FILE IS FOR.  A poll stores the planes that came down, so it changes
  the file.  It does not change the game: a plane that is below the ground at one
  time is below it at any later time (`comesDown_later`), and it is put where it
  would be put then, since every impact is the same cast of an infinity
  (`settle_eq`).  So what a poll makes of a plane is the same whether or not there
  was a poll before (`polled_polled`), and so is what it shows
  (`aloft_eq_of_polled`).
-/
import AirTraffic.Atcd.Airworthy
import AirTraffic.Atcd.Fleet
import AirTraffic.Atcd.Landing

set_option autoImplicit false

namespace AirTraffic.Atcd

open AirTraffic.Foundation AirTraffic.Storage

/-! ## Time -/

/-- The time between two moments fits the `int` of `calculate_position`. -/
structure InTime (earlier later : Int64) : Prop where
  le : earlier ≤ later
  lt : later.toInt - earlier.toInt < 2 ^ 31

/-- A moment between two others. -/
theorem InTime.within {start time later last : Int64} (h : InTime start last)
    (hstart : start ≤ time) (hlater : time ≤ later) (hlast : later ≤ last) :
    InTime time later where
  le := hlater
  lt := by
    have hlt := h.lt
    have hs := Int64.le_iff_toInt_le.mp hstart
    have hl := Int64.le_iff_toInt_le.mp hlast
    omega

/-- The seven elevations. -/
theorem InTrim.elevation_cases {plane : AtcPlane} (trim : InTrim plane) :
    plane.elevation ∈ ([-30, -20, -10, 0, 10, 20, 30] : List Int32) := by
  obtain ⟨⟨hlow, hhigh⟩, k, hk⟩ := trim.elevation
  have hof : plane.elevation = Int32.ofInt (10 * k) := by
    rw [← hk, Int32.ofInt_toInt]
  have hklow : -3 ≤ k := by omega
  have hkhigh : k ≤ 3 := by omega
  rw [hof]
  interval_cases k <;> decide

section Observation

variable [Platform] {plane : AtcPlane} {t₁ t₂ : Int64}

omit [Platform] in
theorem toInt_elapsed (h : InTime plane.time t₁) :
    (elapsed plane t₁).toInt = t₁.toInt - plane.time.toInt := by
  have hle := Int64.le_iff_toInt_le.mp h.le
  have hlt := h.lt
  have hlow := Int64.le_toInt plane.time
  have hhigh := Int64.toInt_lt t₁
  rw [elapsed, Int64.toInt_toInt32, Int64.toInt_sub]
  have hwide : (t₁.toInt - plane.time.toInt).bmod (2 ^ 64) = t₁.toInt - plane.time.toInt :=
    Int.bmod_eq_of_le (by omega) (by omega)
  rw [hwide]
  exact Int.bmod_eq_of_le (by omega) (by omega)

/-! ## Down once, down for good -/

omit [Platform] in
/-- A plane that does not sink is higher up the more time has passed. -/
theorem flown_mono {bits : Nat} (R : Rounding bits) {c : ℚ} {speed dt₁ dt₂ : Int32}
    (hup : 0 ≤ R.round (c * R.round speed.toInt)) (hle : dt₁.toInt ≤ dt₂.toInt) :
    flown R c speed dt₁ ≤ flown R c speed dt₂ :=
  R.mono (mul_le_mul_of_nonneg_left (R.mono (by exact_mod_cast hle)) hup)

omit [Platform] in
theorem flown_anti {bits : Nat} (R : Rounding bits) {c : ℚ} {speed dt₁ dt₂ : Int32}
    (hsink : R.round (c * R.round speed.toInt) ≤ 0) (hle : dt₁.toInt ≤ dt₂.toInt) :
    flown R c speed dt₂ ≤ flown R c speed dt₁ :=
  R.mono (mul_le_mul_of_nonpos_left (R.mono (by exact_mod_cast hle)) hsink)

/-- A plane that is below the ground, or beyond all numbers, does not come back. -/
theorem altitudeAt_neg_later (hcast : Platform.indefinite < 0) (worthy : Airworthy plane)
    (h₁ : InTime plane.time t₁) (h₂ : InTime plane.time t₂) (hle : t₁ ≤ t₂)
    (hdown : altitudeAt plane t₁ < 0) : altitudeAt plane t₂ < 0 := by
  have hlater : (elapsed plane t₁).toInt ≤ (elapsed plane t₂).toInt := by
    rw [toInt_elapsed h₁, toInt_elapsed h₂]
    have := Int64.le_iff_toInt_le.mp hle
    omega
  have hstart : (0 : Int32).toInt ≤ (elapsed plane t₁).toInt := by
    rw [toInt_elapsed h₁, Int32.toInt_zero]
    have := Int64.le_iff_toInt_le.mp h₁.le
    omega
  have hmax := (Int32.toInt_range plane.z).2
  have hz := worthy.z
  -- the sum of a plane that has not moved is its altitude
  have hstill : Platform.single.sum
      (flown Platform.single (cos plane.elevation) plane.speed 0) plane.z.toInt =
        plane.z.toInt := by
    rw [flown_zero, Platform.single.sum_zero]
    exact worthy.steady
  unfold altitudeAt at hdown ⊢
  rw [castInt_neg_iff hcast] at hdown ⊢
  unfold altitudeSum at hdown ⊢
  rcases le_total 0 (Platform.single.round
    (cos plane.elevation * Platform.single.round plane.speed.toInt)) with hup | hsink
  · -- a plane that does not sink was beyond all numbers
    have habove := trunc_le_trunc
      (Platform.single.sum_mono (flown_mono Platform.single hup hstart) plane.z.toInt)
    have hmore := trunc_le_trunc
      (Platform.single.sum_mono (flown_mono Platform.single hup hlater) plane.z.toInt)
    rw [hstill, trunc_intCast] at habove
    omega
  · have hbelow := trunc_le_trunc
      (Platform.single.sum_mono (flown_anti Platform.single hsink hstart) plane.z.toInt)
    have hless := trunc_le_trunc
      (Platform.single.sum_mono (flown_anti Platform.single hsink hlater) plane.z.toInt)
    rw [hstill, trunc_intCast] at hbelow
    omega

theorem comesDown_later (hcast : Platform.indefinite < 0) (worthy : Airworthy plane)
    (h₁ : InTime plane.time t₁) (h₂ : InTime plane.time t₂) (hle : t₁ ≤ t₂)
    (hdown : ComesDown t₁ plane) : ComesDown t₂ plane :=
  ⟨hdown.1, altitudeAt_neg_later hcast worthy h₁ h₂ hle hdown.2⟩

/-! ## Where it comes down -/

/-- A level plane stays at its altitude. -/
theorem altitudeAt_level (helevation : plane.elevation = 0) (time : Int64) :
    altitudeAt plane time = floatAltitude plane.z := by
  have hcos : cos plane.elevation = 0 := by
    have hentry : (cosTable.lookup 0).getD 0 = 0 := rfl
    rw [helevation, cos, hentry, Platform.double.round_zero, Platform.single.round_zero]
  have hflown : flown Platform.single (cos plane.elevation) plane.speed (elapsed plane time) =
      0 := by
    rw [flown, hcos, zero_mul, Platform.single.round_zero, zero_mul, Platform.single.round_zero]
  rw [altitudeAt, altitudeSum, hflown, Platform.single.sum_zero, floatAltitude]

/-- A plane that comes down has an elevation that `_sin` does not know. -/
theorem crashDivisor_of_down (worthy : Airworthy plane) (hdown : altitudeAt plane t₁ < 0) :
    crashDivisor plane = 0 := by
  have helevation := worthy.toInTrim.elevation_cases
  by_cases hlevel : plane.elevation = 0
  · rw [altitudeAt_level hlevel, worthy.steady.altitude] at hdown
    exact absurd (Int32.lt_iff_toInt_lt.mp hdown) (Int.not_lt.mpr worthy.z)
  · apply crashDivisor_of_sin
    simp only [List.mem_cons, List.not_mem_nil, or_false] at helevation
    rcases helevation with h | h | h | h | h | h | h <;>
      first | exact absurd h hlevel | (rw [h]; exact sin_of_lookup rfl)

/-- It does not matter when it is found. -/
theorem settle_eq (worthy : Airworthy plane) (hdown : altitudeAt plane t₁ < 0) :
    settle plane t₁ = settle plane t₂ := by
  have hzero := crashDivisor_of_down worthy hdown
  rw [settle, settle, timeOfCrash_of_divisor_eq_zero hzero, timeOfCrash_of_divisor_eq_zero hzero]

/-! ## Polls -/

theorem polled_of_down (h : plane.Down) (time : Int64) : polled time plane = plane :=
  if_neg fun hdown => h.not_flying hdown.1

/-- **A poll finds what a later poll finds.** -/
theorem polled_polled (hcast : Platform.indefinite < 0) (worthy : Airworthy plane)
    (h₁ : InTime plane.time t₁) (h₂ : InTime plane.time t₂) (hle : t₁ ≤ t₂) :
    polled t₂ (polled t₁ plane) = polled t₂ plane := by
  by_cases hdown : ComesDown t₁ plane
  · have hlater := comesDown_later hcast worthy h₁ h₂ hle hdown
    have hfirst : polled t₁ plane = settle plane t₁ := if_pos hdown
    have hsecond : polled t₂ plane = settle plane t₂ := if_pos hlater
    rw [hfirst, hsecond, polled_of_down (down_settle plane t₁)]
    exact settle_eq worthy hdown.2
  · have hfirst : polled t₁ plane = plane := if_neg hdown
    rw [hfirst]

/-- What is shown is what is still flying when the poll is over. -/
theorem aloft_eq_filter (now : Int64) (fleet : List AtcPlane) :
    aloft now fleet =
      ((fleet.map (polled now)).filter fun plane => plane.status = flying).map
        fun plane => advance plane now := by
  induction fleet with
  | nil => rfl
  | cons plane rest ih =>
      have hcons : aloft now (plane :: rest) = aloft now [plane] ++ aloft now rest :=
        aloft_append now [plane] rest
      rw [hcons, ih, List.map_cons, List.filter_cons]
      by_cases hup : StaysUp now plane
      · have hkept : polled now plane = plane := if_neg fun hdown => hup.2 hdown.2
        rw [hkept, if_pos (decide_eq_true hup.1)]
        simp [aloft, hup]
      · have hnot : ¬ (polled now plane).status = flying := by
          unfold polled
          split
          · exact (down_settle plane now).not_flying
          · rename_i hdown
            exact fun hflying => hup ⟨hflying, fun hneg => hdown ⟨hflying, hneg⟩⟩
        rw [if_neg (by simpa using hnot)]
        simp [aloft, hup]

theorem aloft_eq_of_polled {now : Int64} {fleet fleet' : List AtcPlane}
    (h : fleet.map (polled now) = fleet'.map (polled now)) :
    aloft now fleet = aloft now fleet' := by
  rw [aloft_eq_filter, aloft_eq_filter, h]

/-- Polling the stored planes is the same before and after one of them is replaced. -/
theorem map_polled_put (now : Int64) (plane : AtcPlane) (fleet : List AtcPlane) :
    (put AtcPlane.id plane fleet).map (polled now) =
      put AtcPlane.id (polled now plane) (fleet.map (polled now)) := by
  refine map_upsert ?_ ?_
  · intro row _
    rw [polled_id, polled_id]
  · intro row _
    rfl

end Observation

end AirTraffic.Atcd
