/-
  Foundation/Writes.lean --- writing through a pointer, with and without a check.

  WHAT THIS FILE IS FOR.  An encoder makes a sequence of writes at a pointer: a
  copy moves it on, a fill leaves it.  `runWrites` makes them all, and one behind
  the end makes the region longer; `runChecked` gives up at the first one that
  does not lie inside.  Which of the two happens is a matter of how far the
  writes reach (`runChecked_isSome_iff`, `length_runWrites`), and where the check
  finds nothing it changes nothing (`runChecked_eq_some`).
-/
import AirTraffic.Foundation.Region

set_option autoImplicit false

namespace AirTraffic.Foundation

/-- One write at the pointer. -/
inductive WriteOp where
  /-- These bytes; the pointer moves behind them. -/
  | copy (data : Bytes)
  /-- So many zeros; the pointer stays. -/
  | fill (n : Nat)
  deriving DecidableEq, Repr

namespace WriteOp

/-- The bytes written. -/
def data : WriteOp → Bytes
  | copy data => data
  | fill n => zeros n

/-- By how much the pointer moves. -/
def advance : WriteOp → Nat
  | copy data => data.length
  | fill _ => 0

end WriteOp

/-- All writes, from the pointer on: the region and the pointer behind them. -/
def runWrites : List WriteOp → Bytes → Nat → Bytes × Nat
  | [], region, ptr => (region, ptr)
  | op :: rest, region, ptr =>
      runWrites rest (writeAt region ptr op.data) (ptr + op.advance)

/-- The same, but `none` at the first write that does not lie inside the region. -/
def runChecked : List WriteOp → Bytes → Nat → Option (Bytes × Nat)
  | [], region, ptr => some (region, ptr)
  | op :: rest, region, ptr =>
      if ptr + op.data.length ≤ region.length then
        runChecked rest (writeAt region ptr op.data) (ptr + op.advance)
      else none

/-- The farthest end of a write. -/
def reach : List WriteOp → Nat → Nat
  | [], _ => 0
  | op :: rest, ptr => max (ptr + op.data.length) (reach rest (ptr + op.advance))

/-- Writes grow the region to where they reach. -/
theorem length_runWrites (writes : List WriteOp) (region : Bytes) (ptr : Nat) :
    (runWrites writes region ptr).1.length = max region.length (reach writes ptr) := by
  induction writes generalizing region ptr with
  | nil =>
      rw [runWrites, reach]
      exact (Nat.max_zero _).symm
  | cons op rest ih => rw [runWrites, reach, ih, length_writeAt, Nat.max_assoc]

/-- Where the writes reach no farther than the region, the check finds nothing. -/
theorem runChecked_eq_some {writes : List WriteOp} {region : Bytes} {ptr : Nat}
    (h : reach writes ptr ≤ region.length) :
    runChecked writes region ptr = some (runWrites writes region ptr) := by
  induction writes generalizing region ptr with
  | nil => rfl
  | cons op rest ih =>
      rw [reach, Nat.max_le] at h
      rw [runChecked, runWrites, if_pos h.1]
      apply ih
      rw [length_writeAt]
      omega

theorem runChecked_isSome_iff (writes : List WriteOp) (region : Bytes) (ptr : Nat) :
    (runChecked writes region ptr).isSome = true ↔ reach writes ptr ≤ region.length := by
  constructor
  · intro hsome
    induction writes generalizing region ptr with
    | nil => exact Nat.zero_le _
    | cons op rest ih =>
        unfold runChecked at hsome
        split at hsome
        next hinside =>
          have hrest := ih _ _ hsome
          rw [length_writeAt, Nat.max_eq_left hinside] at hrest
          rw [reach]
          exact Nat.max_le.mpr ⟨hinside, hrest⟩
        next => exact absurd hsome (by simp)
  · intro h
    rw [runChecked_eq_some h]
    rfl

end AirTraffic.Foundation
