/-
  Atcd/Contract.lean --- what `set` answers.

  WHAT THIS FILE IS FOR.  The comment of `set` promises 0 for a command that was
  applied and -1 for one that could not be.  A command that is applied ends in
  `return sto_set(..)`, and that returns the size of a plane; a plane below the
  ground is settled and stored, and the answer is 0.  So the promise is kept
  exactly where a command is turned down in the air (`contract_iff`).  What is
  stored is right all the same, as long as planes are filed under their ids and a
  `float` holds the altitude (`set_stores`).

  IN THE AIR.  `set` asks `calculate_position`, which sums altitudes up in `float`s.
  The largest 64 of them become 2^31 there, which casts to the smallest `int` of an
  x86: these planes are below the ground too (`floatAltitude_x86_neg_iff`).
-/
import AirTraffic.Atcd.Scan

set_option autoImplicit false

namespace AirTraffic.Atcd

open AirTraffic.Foundation AirTraffic.Storage

/-- Whether a command is turned down depends on the speed and the elevation. -/
theorem applyCommand_none_congr {plane other : AtcPlane} (hspeed : other.speed = plane.speed)
    (helevation : other.elevation = plane.elevation) (cmd : Int32) :
    applyCommand cmd other = none ↔ applyCommand cmd plane = none := by
  unfold applyCommand
  rw [hspeed, helevation]
  split
  · split <;> simp
  · split <;> simp
  · split <;> simp
  · split <;> simp
  · simp
  · simp
  · simp

/-- On a file of whole rows `sto_set` writes a plane. -/
theorem storePlane_whole {file : Bytes} (whole : Whole planesDb file) (plane : AtcPlane) :
    ∃ file', storePlane plane (Disk.sound file) =
      (Int32.ofNat sizeofPlane, Disk.sound file') := by
  have hrow : plane.bytes.length = planesDb.dataSize := AtcPlane.length_bytes plane
  by_cases shifts : Shifts planesDb file plane.bytes
  · exact ⟨_, stoSet_shifted fits_planes whole hrow shifts⟩
  · obtain ⟨file', hset, _⟩ := stoSet_plain fits_planes whole hrow shifts
    exact ⟨file', hset⟩

section Contract

variable [Platform]

/-- The command is one, the plane is not found below the ground and not at the limit of
the attribute. -/
def Possible (cmd : Int32) (plane : AtcPlane) : Prop :=
  ¬ floatAltitude plane.z < 0 ∧ applyCommand cmd plane ≠ none

instance (cmd : Int32) (plane : AtcPlane) : Decidable (Possible cmd plane) :=
  inferInstanceAs (Decidable (_ ∧ _))

/-- `set` does what its comment says. -/
structure KeepsContract (cmd : Int32) (plane : AtcPlane) (now : Int64) (file : Bytes) :
    Prop where
  obeyed : Possible cmd plane →
    (set cmd plane now (Disk.sound file)).1 = 0 ∧
      ((planesOf (set cmd plane now (Disk.sound file)).2.2.file).find?
        fun other => other.id = plane.id) = applyCommand cmd { plane with time := now }
  refused : ¬ Possible cmd plane →
    (set cmd plane now (Disk.sound file)).1 = -1 ∧
      (set cmd plane now (Disk.sound file)).2.2 = Disk.sound file

theorem commanded_eq_none {cmd : Int32} {plane : AtcPlane} {now : Int64} :
    commanded cmd plane now = none ↔
      ¬ floatAltitude plane.z < 0 ∧ applyCommand cmd plane = none := by
  unfold commanded
  split
  · rename_i hz
    simp only [reduceCtorEq, false_iff, not_and]
    exact fun hup => absurd hz hup
  · rename_i hz
    have hsame : applyCommand cmd (advance { plane with time := now } now) = none ↔
        applyCommand cmd plane = none :=
      @applyCommand_none_congr plane (advance { plane with time := now } now) rfl rfl cmd
    rw [hsame]
    exact ⟨fun hnone => ⟨hz, hnone⟩, fun hnone => hnone.2⟩

/-- The three answers of `set`. -/
theorem set_answer {file : Bytes} (whole : Whole planesDb file) (cmd : Int32)
    (plane : AtcPlane) (now : Int64) :
    (set cmd plane now (Disk.sound file)).1 =
      if floatAltitude plane.z < 0 then 0
      else if applyCommand cmd plane = none then -1
      else Int32.ofNat sizeofPlane := by
  rw [set_eq]
  cases hcommanded : commanded cmd plane now with
  | none =>
    obtain ⟨hz, hnone⟩ := commanded_eq_none.mp hcommanded
    rw [if_neg hz, if_pos hnone]
  | some stored =>
    obtain ⟨file', hstore⟩ := storePlane_whole whole stored
    dsimp only
    rw [hstore]
    split
    · rfl
    · rename_i hz
      have hsome : ¬ applyCommand cmd plane = none := by
        intro hnone
        rw [commanded_eq_none.mpr ⟨hz, hnone⟩] at hcommanded
        exact absurd hcommanded (by simp)
      rw [if_neg hsome]

/-- A command that is obeyed is answered with the size of a plane. -/
theorem not_possible_of_contract {file : Bytes} (whole : Whole planesDb file) {cmd : Int32}
    {plane : AtcPlane} {now : Int64} (contract : KeepsContract cmd plane now file) :
    ¬ Possible cmd plane := by
  intro possible
  have hzero := (contract.obeyed possible).1
  rw [set_answer whole, if_neg possible.1, if_neg possible.2] at hzero
  exact absurd hzero (by decide)

/-- **When `set` keeps its contract.**  Only where it turns a command down for a plane
that it finds in the air. -/
theorem contract_iff {file : Bytes} (whole : Whole planesDb file) (cmd : Int32)
    (plane : AtcPlane) (now : Int64) :
    KeepsContract cmd plane now file ↔
      ¬ floatAltitude plane.z < 0 ∧ applyCommand cmd plane = none := by
  constructor
  · intro contract
    have hnot := not_possible_of_contract whole contract
    have hminus := (contract.refused hnot).1
    rw [set_answer whole] at hminus
    have hz : ¬ floatAltitude plane.z < 0 := by
      intro hbelow
      rw [if_pos hbelow] at hminus
      exact absurd hminus (by decide)
    exact ⟨hz, by_contra fun hsome => hnot ⟨hz, hsome⟩⟩
  · rintro ⟨hz, hnone⟩
    refine ⟨fun possible => absurd hnone possible.2, fun _ => ?_⟩
    rw [set_eq, commanded_eq_none.mpr ⟨hz, hnone⟩]
    exact ⟨rfl, rfl⟩

omit [Platform] in
/-- On an x86 the altitudes that are not found in the air are those below zero and the
64 largest. -/
theorem floatAltitude_x86_neg_iff (z : Int32) :
    @floatAltitude x86 z < 0 ↔ z < 0 ∨ 2147483584 ≤ z.toInt := by
  let _ : Platform := x86
  have hrange := Int32.toInt_range z
  have hneg : Platform.indefinite < 0 := by decide
  have hzero : (0 : Int32).toInt = 0 := rfl
  rw [floatAltitude, castInt_neg_iff hneg, Int32.lt_iff_toInt_lt, hzero]
  have below : ∀ n : Int, z.toInt ≤ n →
      trunc (Platform.single.round z.toInt) ≤ trunc (Platform.single.round n) :=
    fun n h => trunc_le_trunc (Platform.single.mono (by exact_mod_cast h))
  have above : ∀ n : Int, n ≤ z.toInt →
      trunc (Platform.single.round n) ≤ trunc (Platform.single.round z.toInt) :=
    fun n h => trunc_le_trunc (Platform.single.mono (by exact_mod_cast h))
  have hminus : trunc (Platform.single.round ((-1 : Int) : ℚ)) = -1 := by decide +kernel
  have hnone : trunc (Platform.single.round ((0 : Int) : ℚ)) = 0 := by decide +kernel
  have hin : trunc (Platform.single.round ((2147483583 : Int) : ℚ)) = 2147483520 := by
    decide +kernel
  have hout : trunc (Platform.single.round ((2147483584 : Int) : ℚ)) = 2147483648 := by
    decide +kernel
  rcases Int.lt_or_le z.toInt 0 with hlow | hlow
  · have hbelow := below (-1) (by omega)
    omega
  · have hup := above 0 hlow
    rcases Int.lt_or_le z.toInt 2147483584 with hhigh | hhigh
    · have hbelow := below 2147483583 (by omega)
      omega
    · have habove := above 2147483584 hhigh
      omega

omit [Platform] in
theorem contract_iff_twoPlanes :
    @KeepsContract x86 0 cruising 5 twoPlanes ↔
      ¬ @floatAltitude x86 cruising.z < 0 ∧ applyCommand 0 cruising = none :=
  @contract_iff x86 _ whole_twoPlanes 0 cruising 5

omit [Platform] in
/-- The plane speeds up, and the answer is 48. -/
theorem speed_up_answers_48 :
    ¬ ∀ (platform : Platform) (file : Bytes), Whole planesDb file →
      ∀ (cmd : Int32) (plane : AtcPlane) (now : Int64),
        0 ≤ plane.x ∧ plane.x < maxLen → 0 ≤ plane.y ∧ plane.y < maxHeight →
          @KeepsContract platform cmd plane now file := by
  intro contract
  have hkeeps := contract x86 _ whole_twoPlanes 0 cruising 5 (by decide) (by decide)
  exact @not_possible_of_contract x86 _ whole_twoPlanes 0 cruising 5 hkeeps (by decide +kernel)

/-- The row of a plane that is filed under its id is the plane as commanded. -/
theorem set_stores {file : Bytes} {fleet : List AtcPlane} {plane changed : AtcPlane}
    (holds : Holds file fleet) (named : plane.Named) (hz : 0 ≤ plane.z) (steady : plane.Steady)
    (hx : 0 ≤ plane.x.toInt ∧ plane.x.toInt < maxLen.toInt)
    (hy : 0 ≤ plane.y.toInt ∧ plane.y.toInt < maxHeight.toInt) {cmd : Int32} {now : Int64}
    (happly : applyCommand cmd { plane with time := now } = some changed) :
    ∃ file', (set cmd plane now (Disk.sound file)).2.2 = Disk.sound file' ∧
      Holds file' (put AtcPlane.id changed fleet) := by
  have hself : advance { plane with time := now } now = { plane with time := now } :=
    @advance_self _ { plane with time := now } steady hx hy
  obtain ⟨file', hset, holds'⟩ := set_holds holds named cmd now
  rw [commandedFleet, commanded, steady.altitude, if_neg (Int32.not_lt.mpr hz), hself,
    happly] at holds'
  exact ⟨file', hset, holds'⟩

end Contract

end AirTraffic.Atcd
