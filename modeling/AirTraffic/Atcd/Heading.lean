/-
  Atcd/Heading.lean --- which way a heading leads.

  WHAT THIS FILE IS FOR.  `enum atc_heading` counts from east to the north, so a
  plane should move along the cosine of its heading in `x` and along the sine in
  `y`.  The tables `_cos` and `_sin` are those of each other, and `_set_plane_x_y`
  mirrors every course at the diagonal.  `follows_heading_iff` says for which planes
  and times that makes no difference, in exact arithmetic.

  A course that is mirrored still ends where it should if it makes whole turns of the
  map, and the two diagonals that are not mirrored into themselves differ by twice
  the way.
-/
import AirTraffic.Atcd.Airworthy

set_option autoImplicit false

namespace AirTraffic.Atcd

open AirTraffic.Foundation

/-! ## Courses -/

/-- The values of `enum atc_heading`. -/
def headings : List Int32 := [0, 45, 90, 135, 180, 225, 270, 315]

/-- The cosine of a heading, to four places. -/
def courseX (heading : Int32) : ℚ :=
  (([(0, 1), (45, 7071 / 10000), (90, 0), (135, -7071 / 10000), (180, -1),
    (225, -7071 / 10000), (270, 0), (315, 7071 / 10000)] : List (Int32 × ℚ)).lookup
      heading).getD 0

/-- The sine of a heading, to four places. -/
def courseY (heading : Int32) : ℚ :=
  (([(0, 0), (45, 7071 / 10000), (90, 1), (135, 7071 / 10000), (180, 0),
    (225, -7071 / 10000), (270, -1), (315, -7071 / 10000)] : List (Int32 × ℚ)).lookup
      heading).getD 0

/-- Where a way of `k` in a direction leads from `x`, before it is brought onto the
map. -/
def along (c : ℚ) (k x : Int) : Int := trunc (c * k + x)

theorem along_zero (k x : Int) : along 0 k x = x := by
  rw [along, zero_mul, zero_add, trunc_intCast]

theorem along_one (k x : Int) : along 1 k x = k + x := by
  rw [along, one_mul, ← Int.cast_add, trunc_intCast]

theorem along_neg_one (k x : Int) : along (-1) k x = x - k := by
  have hsum : (-1 * (k : ℚ) + x) = ((x - k : Int) : ℚ) := by
    push_cast
    ring
  rw [along, hsum, trunc_intCast]

theorem along_forward {k x : Int} (hk : 0 ≤ k) (hx : 0 ≤ x) :
    along (7071 / 10000) k x = x + 7071 * k / 10000 := by
  have hsum : (7071 / 10000 * (k : ℚ) + x) =
      ((7071 * k + 10000 * x : Int) : ℚ) / (10000 : Int) := by
    push_cast
    ring
  rw [along, hsum, trunc_div _ (by decide), Int.tdiv_eq_ediv_of_nonneg (by omega)]
  omega

/-- Backwards the rounding depends on whether the map is left. -/
theorem along_back {k x : Int} :
    along (-7071 / 10000) k x =
      if 10000 * x < 7071 * k then x - 7071 * k / 10000
      else x - 7071 * k / 10000 - if 10000 ∣ 7071 * k then 0 else 1 := by
  have hsum : (-7071 / 10000 * (k : ℚ) + x) =
      ((-(7071 * k - 10000 * x) : Int) : ℚ) / (10000 : Int) := by
    push_cast
    ring
  rw [along, hsum, trunc_div _ (by decide)]
  generalize 7071 * k = length
  split
  · rw [Int.neg_tdiv, Int.tdiv_eq_ediv_of_nonneg (by omega)]
    omega
  · rw [Int.tdiv_eq_ediv_of_nonneg (by omega)]
    split
    · omega
    · omega

/-! ## Ways that lead to the same place -/

/-- No whole number of meters on a diagonal is half a turn. -/
theorem eq_zero_of_half_turn {k f : Int} (h : 7071 * k = 10000 * f) (hf : 0 ≤ f ∧ f < 4000)
    (hturn : 2 * f % 4000 = 0) : k = 0 := by
  have hcases : f = 0 ∨ f = 2000 := by
    clear h
    omega
  rcases hcases with rfl | rfl
  · rw [Int.mul_zero] at h
    exact (Int.mul_eq_zero.mp h).resolve_left (by decide)
  · have hdvd : (7071 : Int) ∣ 10000 * 2000 := ⟨k, h.symm⟩
    exact absurd hdvd (by decide)

/-- Forwards and backwards along a diagonal lead to one place if the way is none, or
leaves the map and is rounded to half turns. -/
theorem turned_iff {k x : Int} (hk : 0 ≤ k) (hx : 0 ≤ x ∧ x < 4000) :
    along (7071 / 10000) k x % 4000 = along (-7071 / 10000) k x % 4000 ↔
      k = 0 ∨ 10000 * x < 7071 * k ∧ 2000 ∣ 7071 * k / 10000 := by
  rw [along_forward hk hx.1, along_back, Int.emod_eq_emod_iff_emod_sub_eq_zero]
  generalize hf : 7071 * k / 10000 = f
  split
  · rename_i hleaves
    have hpos : k ≠ 0 := by omega
    have htwice : x + f - (x - f) = 2 * f := by omega
    simp only [hpos, hleaves, true_and, false_or, htwice]
    omega
  · rename_i hstays
    have hrange : 0 ≤ f ∧ f < 4000 := by omega
    simp only [hstays, false_and, or_false]
    split
    · rename_i hdvd
      have htwice : x + f - (x - f - 0) = 2 * f := by omega
      have hexact : 7071 * k = 10000 * f := by rw [← hf, Int.mul_ediv_cancel' hdvd]
      rw [htwice]
      refine ⟨eq_zero_of_half_turn hexact hrange, ?_⟩
      rintro rfl
      obtain rfl : f = 0 := by omega
      rfl
    · rename_i hdvd
      have hodd : x + f - (x - f - 1) = 2 * f + 1 := by omega
      rw [hodd]
      constructor
      · intro hturn
        omega
      · rintro rfl
        omega

/-- Staying and moving along an axis lead to one place after whole turns. -/
theorem whole_turns_iff (k x : Int) : (k + x) % 4000 = x % 4000 ↔ 4000 ∣ k := by
  rw [Int.emod_eq_emod_iff_emod_sub_eq_zero, Int.add_sub_cancel, Int.dvd_iff_emod_eq_zero]

theorem whole_turns_back_iff (k x : Int) : (x - k) % 4000 = x % 4000 ↔ 4000 ∣ k := by
  rw [Int.emod_eq_emod_iff_emod_sub_eq_zero, Int.dvd_iff_emod_eq_zero]
  omega

/-! ## The mirror -/

section Heading

variable {plane : AtcPlane} {dt : Int32}

/-- The way of a plane: its speed times the time. -/
def way (plane : AtcPlane) (dt : Int32) : Int := plane.speed.toInt * dt.toInt

/-- The way makes no difference between the heading and its mirror image. -/
inductive MirrorSafe (plane : AtcPlane) (dt : Int32) : Prop
  /-- North-east and south-west are their own mirror images. -/
  | diagonal (heading : plane.heading = 45 ∨ plane.heading = 225)
  /-- Along an axis: whole turns of the map. -/
  | turns (heading : plane.heading ∈ ([0, 90, 180, 270] : List Int32))
      (whole : 4000 ∣ way plane dt)
  /-- Along the other diagonal: no way at all. -/
  | still (heading : plane.heading = 135 ∨ plane.heading = 315) (none : way plane dt = 0)
  /-- Or off the map on both axes, by half turns. -/
  | half (heading : plane.heading = 135 ∨ plane.heading = 315)
      (leavesX : 10000 * plane.x.toInt < 7071 * way plane dt)
      (leavesY : 10000 * plane.y.toInt < 7071 * way plane dt)
      (turns : 2000 ∣ 7071 * way plane dt / 10000)

/-- Along an axis the mirror image is safe after whole turns. -/
theorem mirrorSafe_axis (h : plane.heading ∈ ([0, 90, 180, 270] : List Int32)) :
    MirrorSafe plane dt ↔ 4000 ∣ way plane dt := by
  have hother : ∀ heading : Int32, heading ∉ ([0, 90, 180, 270] : List Int32) →
      plane.heading ≠ heading := fun heading hout hat => hout (hat ▸ h)
  constructor
  · intro safe
    cases safe with
    | turns _ hwhole => exact hwhole
    | diagonal hat =>
      rcases hat with hat | hat
      · exact absurd hat (hother 45 (by decide))
      · exact absurd hat (hother 225 (by decide))
    | still hat hnone => rw [hnone]; exact Int.dvd_zero 4000
    | half hat =>
      rcases hat with hat | hat
      · exact absurd hat (hother 135 (by decide))
      · exact absurd hat (hother 315 (by decide))
  · exact .turns h

/-- Along the diagonal that is turned round, if there is no way or half turns. -/
theorem mirrorSafe_turned (h : plane.heading = 135 ∨ plane.heading = 315) :
    MirrorSafe plane dt ↔
      (way plane dt = 0 ∨ 10000 * plane.x.toInt < 7071 * way plane dt ∧
          2000 ∣ 7071 * way plane dt / 10000) ∧
        (way plane dt = 0 ∨ 10000 * plane.y.toInt < 7071 * way plane dt ∧
          2000 ∣ 7071 * way plane dt / 10000) := by
  constructor
  · intro safe
    cases safe with
    | diagonal hat =>
      rcases h with h | h
      · rw [h] at hat
        exact absurd hat (by decide)
      · rw [h] at hat
        exact absurd hat (by decide)
    | turns hat =>
      rcases h with h | h
      · rw [h] at hat
        exact absurd hat (by decide)
      · rw [h] at hat
        exact absurd hat (by decide)
    | still _ hnone => exact ⟨Or.inl hnone, Or.inl hnone⟩
    | half _ hleavesX hleavesY hturns =>
      exact ⟨Or.inr ⟨hleavesX, hturns⟩, Or.inr ⟨hleavesY, hturns⟩⟩
  · rintro ⟨hnone | ⟨hleavesX, hturns⟩, hyaxis⟩
    · exact .still h hnone
    · rcases hyaxis with hnone | ⟨hleavesY, _⟩
      · exact .still h hnone
      · exact .half h hleavesX hleavesY hturns

/-- Which planes end where they should although their course is mirrored. -/
theorem mirrorSafe_iff (hheading : plane.heading ∈ headings)
    (hx : 0 ≤ plane.x.toInt ∧ plane.x.toInt < 4000)
    (hy : 0 ≤ plane.y.toInt ∧ plane.y.toInt < 4000) (hway : 0 ≤ way plane dt) :
    MirrorSafe plane dt ↔
      along (courseY plane.heading) (way plane dt) plane.x.toInt % 4000 =
          along (courseX plane.heading) (way plane dt) plane.x.toInt % 4000 ∧
        along (courseX plane.heading) (way plane dt) plane.y.toInt % 4000 =
          along (courseY plane.heading) (way plane dt) plane.y.toInt % 4000 := by
  have forth : ∀ x, along 1 (way plane dt) x % 4000 = along 0 (way plane dt) x % 4000 ↔
      4000 ∣ way plane dt := fun x => by rw [along_one, along_zero, whole_turns_iff]
  have back : ∀ x, along (-1) (way plane dt) x % 4000 = along 0 (way plane dt) x % 4000 ↔
      4000 ∣ way plane dt := fun x => by rw [along_neg_one, along_zero, whole_turns_back_iff]
  have forth' := fun x => eq_comm.trans (forth x)
  have back' := fun x => eq_comm.trans (back x)
  have turnX := turned_iff hway hx
  have turnY := turned_iff hway hy
  simp only [headings, List.mem_cons, List.not_mem_nil, or_false] at hheading
  rcases hheading with h | h | h | h | h | h | h | h
  · have hX : courseX 0 = 1 := rfl
    have hY : courseY 0 = 0 := rfl
    rw [mirrorSafe_axis (by rw [h]; decide), h, hX, hY, forth', forth, and_self_iff]
  · have hsame : courseX 45 = courseY 45 := rfl
    rw [h, hsame]
    exact iff_of_true (.diagonal (by rw [h]; decide)) ⟨rfl, rfl⟩
  · have hX : courseX 90 = 0 := rfl
    have hY : courseY 90 = 1 := rfl
    rw [mirrorSafe_axis (by rw [h]; decide), h, hX, hY, forth, forth', and_self_iff]
  · have hX : courseX 135 = -7071 / 10000 := rfl
    have hY : courseY 135 = 7071 / 10000 := rfl
    rw [mirrorSafe_turned (by rw [h]; decide), h, hX, hY, turnX, eq_comm.trans turnY]
  · have hX : courseX 180 = -1 := rfl
    have hY : courseY 180 = 0 := rfl
    rw [mirrorSafe_axis (by rw [h]; decide), h, hX, hY, back', back, and_self_iff]
  · have hsame : courseX 225 = courseY 225 := rfl
    rw [h, hsame]
    exact iff_of_true (.diagonal (by rw [h]; decide)) ⟨rfl, rfl⟩
  · have hX : courseX 270 = 0 := rfl
    have hY : courseY 270 = -1 := rfl
    rw [mirrorSafe_axis (by rw [h]; decide), h, hX, hY, back, back', and_self_iff]
  · have hX : courseX 315 = 7071 / 10000 := rfl
    have hY : courseY 315 = -7071 / 10000 := rfl
    rw [mirrorSafe_turned (by rw [h]; decide), h, hX, hY, eq_comm.trans turnX, turnY]

/-! ## Moving -/

variable [Platform]

/-- No `int` overflows in `_set_plane_x_y`. -/
structure MoveFits (plane : AtcPlane) (dt : Int32) : Prop where
  x : FitsInt (along (cos plane.heading) (way plane dt) plane.x.toInt)
  y : FitsInt (along (sin plane.heading) (way plane dt) plane.y.toInt)

/-- `_set_plane_x_y` moves the plane along its heading. -/
structure FollowsHeading (plane : AtcPlane) (dt : Int32) : Prop where
  x : (setPlaneXY plane dt).x.toInt =
    along (courseX plane.heading) (way plane dt) plane.x.toInt % 4000
  y : (setPlaneXY plane dt).y.toInt =
    along (courseY plane.heading) (way plane dt) plane.y.toInt % 4000

/-- Without rounding the two tables of `atcd.c` are those of each other. -/
theorem tables_mirrored (exact : Platform.IsExact) {heading : Int32} (h : heading ∈ headings) :
    cos heading = courseY heading ∧ sin heading = courseX heading := by
  rw [cos, sin, exact.single, exact.double, exact.double]
  simp only [headings, List.mem_cons, List.not_mem_nil, or_false] at h
  rcases h with rfl | rfl | rfl | rfl | rfl | rfl | rfl | rfl
  · exact ⟨rfl, rfl⟩
  · exact ⟨rfl, rfl⟩
  · exact ⟨rfl, rfl⟩
  · exact ⟨rfl, rfl⟩
  · exact ⟨rfl, rfl⟩
  · exact ⟨rfl, rfl⟩
  · exact ⟨rfl, rfl⟩
  · exact ⟨rfl, rfl⟩

omit [Platform] in
/-- Without rounding a sum is the way and where it starts. -/
theorem trunc_sum_of_exact {bits : Nat} {R : Rounding bits} (exact : ∀ q, R.round q = q) (c : ℚ)
    (plane : AtcPlane) (dt : Int32) (x : Int) :
    trunc (R.sum (flown R c plane.speed dt) x) = along c (way plane dt) x := by
  rw [Rounding.sum, flown, along, way, Int.cast_mul, ← mul_assoc]
  simp only [exact]

theorem toInt_setPlaneXY (exact : Platform.IsExact) (fits : MoveFits plane dt) :
    (setPlaneXY plane dt).x.toInt =
        along (cos plane.heading) (way plane dt) plane.x.toInt % 4000 ∧
      (setPlaneXY plane dt).y.toInt =
        along (sin plane.heading) (way plane dt) plane.y.toInt % 4000 := by
  have hlen : maxLen.toInt = 4000 := rfl
  have hheight : maxHeight.toInt = 4000 := rfl
  have hx := trunc_sum_of_exact exact.single (cos plane.heading) plane dt plane.x.toInt
  have hy := trunc_sum_of_exact exact.double (sin plane.heading) plane dt plane.y.toInt
  constructor
  · rw [setPlaneXY, toInt_remFix (by decide), toInt_castInt_of_fits (hx ▸ fits.x), hx, hlen]
  · rw [setPlaneXY, toInt_remFix (by decide), toInt_castInt_of_fits (hy ▸ fits.y), hy, hheight]

theorem followsHeading_iff_tables (exact : Platform.IsExact) (fits : MoveFits plane dt) :
    FollowsHeading plane dt ↔
      along (cos plane.heading) (way plane dt) plane.x.toInt % 4000 =
          along (courseX plane.heading) (way plane dt) plane.x.toInt % 4000 ∧
        along (sin plane.heading) (way plane dt) plane.y.toInt % 4000 =
          along (courseY plane.heading) (way plane dt) plane.y.toInt % 4000 := by
  obtain ⟨hx, hy⟩ := toInt_setPlaneXY exact fits
  constructor
  · intro follows
    exact ⟨hx.symm.trans follows.x, hy.symm.trans follows.y⟩
  · rintro ⟨hsameX, hsameY⟩
    exact ⟨hx.trans hsameX, hy.trans hsameY⟩

/-- **When a plane follows its heading.**  Exactly if the way makes no difference
between the heading and its mirror image. -/
theorem follows_heading_iff (exact : Platform.IsExact) (hheading : plane.heading ∈ headings)
    (hx : 0 ≤ plane.x.toInt ∧ plane.x.toInt < maxLen.toInt)
    (hy : 0 ≤ plane.y.toInt ∧ plane.y.toInt < maxHeight.toInt)
    (hspeed : 0 ≤ plane.speed.toInt) (hdt : 0 ≤ dt.toInt) (fits : MoveFits plane dt) :
    FollowsHeading plane dt ↔ MirrorSafe plane dt := by
  obtain ⟨hcos, hsin⟩ := tables_mirrored exact hheading
  rw [followsHeading_iff_tables exact fits, hcos, hsin]
  exact (mirrorSafe_iff hheading hx hy (Int.mul_nonneg hspeed hdt)).symm

end Heading

/-! ## East -/

/-- A plane on its way to the east, which keeps its altitude. -/
def cruising : AtcPlane where
  id := ⟨[65, 65, 48, 48, 48, 65], rfl⟩
  pad := List.Vector.replicate 2 0
  x := 100
  y := 100
  z := 1000
  time := 0
  heading := 0
  elevation := 0
  speed := 42
  status := flying

theorem moveFits_cruising : @MoveFits exactX86 cruising 1 :=
  @MoveFits.mk exactX86 _ _ (by decide +kernel) (by decide +kernel)

theorem follows_heading_iff_cruising :
    @FollowsHeading exactX86 cruising 1 ↔ MirrorSafe cruising 1 :=
  @follows_heading_iff cruising 1 exactX86 isExact_exactX86 (by decide) (by decide) (by decide)
    (by decide) (by decide) moveFits_cruising

/-- After a second the plane is 42 m to the north. -/
theorem eastbound_moves_north :
    ¬ ∀ (platform : Platform) (plane : AtcPlane) (dt : Int32), @Platform.IsExact platform →
      plane.heading ∈ headings → 0 ≤ plane.x.toInt ∧ plane.x.toInt < maxLen.toInt →
        0 ≤ plane.y.toInt ∧ plane.y.toInt < maxHeight.toInt → 0 ≤ plane.speed.toInt →
          0 ≤ dt.toInt → @MoveFits platform plane dt → @FollowsHeading platform plane dt := by
  intro follows
  have heast := @FollowsHeading.x exactX86 _ _ (follows exactX86 cruising 1 isExact_exactX86
    (by decide) (by decide) (by decide) (by decide) (by decide) moveFits_cruising)
  revert heast
  decide +kernel

end AirTraffic.Atcd
