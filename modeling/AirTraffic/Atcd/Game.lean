/-
  Atcd/Game.lean --- `atcd.c`: creating planes, commanding them, polling them.

  WHAT THIS FILE IS FOR.  The translation of the three operations on the planes
  store.  `create_plane` stores a random plane, `set` applies a command to the
  plane it is given and stores the whole of it, and `get_airplanes` scans the
  store, brings every flying plane to the present, stores those that came down
  and returns the others.  The counters are the static variables of the process.

  The scan may append to the file it reads, so its loop is given rounds; a poll
  that used them up would be `none`.
-/
import AirTraffic.Atcd.Motion

set_option autoImplicit false

namespace AirTraffic.Atcd

open AirTraffic.Foundation AirTraffic.Storage

/-- The static variables of `atcd.c`. -/
structure Counters where
  planesCount : Int32 := 0
  crashedCount : Int32 := 0
  landedCount : Int32 := 0
  deriving DecidableEq

/-- `get_crashed` -/
def getCrashed (counters : Counters) : Int32 := counters.crashedCount

/-- `get_landed` -/
def getLanded (counters : Counters) : Int32 := counters.landedCount

/-! ## `create_plane` -/

/-- What `create_plane` does not decide: the results of its calls of `rand()`,
in order, and the padding of its local, which it leaves uninitialised. -/
structure Chance where
  rand : Nat → Nat
  pad : List.Vector UInt8 2

/-- Every draw is zero, and so is the padding. -/
def Chance.zero : Chance where
  rand := fun _ => 0
  pad := List.Vector.replicate 2 0

/-- `_rand_capital_letter` -/
def randCapitalLetter (draw : Nat) : UInt8 := UInt8.ofNat (draw % 26 + 65)

/-- `_rand_number` -/
def randNumber (draw : Nat) : UInt8 := UInt8.ofNat (draw % 10 + 48)

/-- The plane `create_plane` makes. -/
def newPlane (chance : Chance) (now : Int64) : AtcPlane where
  id :=
    ⟨[randCapitalLetter (chance.rand 0), randCapitalLetter (chance.rand 1),
      randNumber (chance.rand 2), randNumber (chance.rand 3),
      randNumber (chance.rand 4), randCapitalLetter (chance.rand 5)], rfl⟩
  pad := chance.pad
  x := Int32.ofNat (chance.rand 6 % 4000)
  y := Int32.ofNat (chance.rand 7 % 4000)
  z := Int32.ofNat (chance.rand 8 % 9000 + 1000)
  time := now
  heading := Int32.ofNat (chance.rand 9 % 7 * 45)
  elevation := 0
  speed := Int32.ofNat (chance.rand 10 % 15 * 14 + 42)
  status := flying

/-- `create_plane` -/
def createPlane (chance : Chance) (now : Int64) (counters : Counters) (disk : Disk) : Disk :=
  if counters.planesCount = Int32.ofNat maxPlanes then disk
  else (storePlane (newPlane chance now) disk).2

/-! ## `set` -/

/-- The `switch` of `set`: the plane with the command applied, `none` where the
answer is -1. -/
def applyCommand (cmd : Int32) (plane : AtcPlane) : Option AtcPlane :=
  match AtcCommand.ofCode cmd with
  | some .speedUp =>
      if plane.speed ≥ 280 then none else some { plane with speed := plane.speed + 14 }
  | some .speedDown =>
      if plane.speed ≤ 42 then none else some { plane with speed := plane.speed - 14 }
  | some .climb =>
      if plane.elevation = 30 then none
      else some { plane with elevation := plane.elevation + 10 }
  | some .descend =>
      if plane.elevation = -30 then none
      else some { plane with elevation := plane.elevation - 10 }
  | some .turnRight =>
      let plane := if plane.heading = 0 then { plane with heading := 360 } else plane
      some { plane with heading := plane.heading - 45 }
  | some .turnLeft =>
      -- no heading is negative, so the enumeration is unsigned and so is `%`
      some { plane with heading := ((plane.heading + 45).toUInt32 % 360).toInt32 }
  | none => none

section Game

variable [Platform]

/-- `set`: what it returns, the caller's plane as it leaves it, and the disk. -/
def set (cmd : Int32) (plane : AtcPlane) (now : Int64) (disk : Disk) :
    Int32 × AtcPlane × Disk :=
  let plane := { plane with time := now }
  let (inTheAir, plane, disk) := calculatePosition plane plane.time disk
  if inTheAir ≠ 0 then
    match applyCommand cmd plane with
    | none => (-1, plane, disk)
    | some plane =>
        let (written, disk) := storePlane plane disk
        (written, plane, disk)
  else (0, plane, disk)

/-! ## `get_airplanes` -/

/-- The locals of `get_airplanes`: the query with the plane it reads into, the
caller's buffer up to `count`, and the counters of the process. -/
structure Poll where
  query : Scan
  buffer : List AtcPlane
  counters : Counters

/-- The body of the loop, without the `sto_get` that ends it. -/
def pollRow (now : Int64) (poll : Poll) : Poll :=
  let plane := AtcPlane.ofBytes poll.query.row
  if plane.status = flying then
    let (inTheAir, plane, disk) := calculatePosition plane now poll.query.disk
    { poll with
      query := { poll.query with disk := disk, row := plane.bytes }
      buffer :=
        if inTheAir ≠ 0 ∧ poll.buffer.length < maxPlanes then poll.buffer ++ [plane]
        else poll.buffer }
  else if plane.status = crashed then
    { poll with
      counters := { poll.counters with crashedCount := poll.counters.crashedCount + 1 } }
  else if plane.status = landed then
    { poll with
      counters := { poll.counters with landedCount := poll.counters.landedCount + 1 } }
  else poll

/-- The loop, from the result of a `sto_get`. -/
def pollLoop (now : Int64) : Nat → Int32 → Poll → Option (Int32 × Poll)
  | 0, _, _ => none
  | fuel + 1, newPlaneFlag, poll =>
      if newPlaneFlag > 0 then
        let poll := pollRow now poll
        let (newPlaneFlag, query) := stoGet planesDb noopCmp poll.query
        pollLoop now fuel newPlaneFlag { poll with query := query }
      else some (newPlaneFlag, poll)

/-- Rounds for a poll: a row for each byte, and one appended for each of them. -/
def pollFuel (disk : Disk) : Nat := 2 * disk.file.length + disk.faults.length + 2

/-- What `get_airplanes` leaves when it returns. -/
structure PollResult where
  result : Int32
  buffer : List AtcPlane
  counters : Counters
  disk : Disk

/-- The counters of a poll that failed. -/
def Counters.failed (counters : Counters) : Counters :=
  { counters with crashedCount := -1, landedCount := -1 }

/-- `get_airplanes` -/
def getAirplanes (now : Int64) (counters : Counters) (disk : Disk) : Option PollResult :=
  match stoQuery disk (zeros stoKeySize) (zeros sizeofPlane) with
  | (none, disk) =>
      some { result := -1, buffer := [], counters := counters.failed, disk := disk }
  | (some query, _) =>
      let counters := { counters with crashedCount := 0, landedCount := 0 }
      let (newPlaneFlag, query) := stoGet planesDb noopCmp query
      (pollLoop now (pollFuel disk) newPlaneFlag
          { query := query, buffer := [], counters := counters }).map
        fun (newPlaneFlag, poll) =>
          if newPlaneFlag = -1 then
            { result := -1
              buffer := poll.buffer
              counters := poll.counters.failed
              disk := poll.query.disk }
          else
            { result := Int32.ofNat poll.buffer.length
              buffer := poll.buffer
              counters :=
                { poll.counters with planesCount := Int32.ofNat poll.buffer.length }
              disk := poll.query.disk }

end Game

/-! ## Commands -/

/-- A command changes the attribute it is for and nothing else. -/
theorem applyCommand_eq {cmd : Int32} {plane changed : AtcPlane}
    (h : applyCommand cmd plane = some changed) :
    changed =
      { plane with
        heading := changed.heading
        elevation := changed.elevation
        speed := changed.speed } := by
  unfold applyCommand at h
  split at h
  · split at h
    · exact absurd h (by simp)
    · rw [← Option.some.inj h]
  · split at h
    · exact absurd h (by simp)
    · rw [← Option.some.inj h]
  · split at h
    · exact absurd h (by simp)
    · rw [← Option.some.inj h]
  · split at h
    · exact absurd h (by simp)
    · rw [← Option.some.inj h]
  · rw [← Option.some.inj h]
    dsimp only
    split <;> rfl
  · rw [← Option.some.inj h]
  · exact absurd h (by simp)

end AirTraffic.Atcd
