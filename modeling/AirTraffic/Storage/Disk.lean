/-
  Storage/Disk.lean --- the planes file and the system calls made on it.

  WHAT THIS FILE IS FOR.  `storage.c` reaches the file through `open`, `lseek`,
  `read` and `write`.  A disk is the bytes of the file together with the
  outcomes that the coming calls will have: a call either fails with -1 and
  changes nothing, or does all of its work (a read is short only at the end of
  the file).  A disk with no failures ahead is `Disk.sound`; one whose next calls
  succeed is `Disk.Clean` for that many.
-/
import AirTraffic.Foundation.Region

set_option autoImplicit false

namespace AirTraffic.Storage

open AirTraffic.Foundation

/-- The file and the outcomes of the coming system calls: `true` is a call that
fails.  Past the end of the list every call succeeds. -/
structure Disk where
  file : Bytes
  faults : List Bool := []
  deriving DecidableEq, Repr

namespace Disk

/-- A disk on which every call succeeds. -/
abbrev sound (file : Bytes) : Disk := ⟨file, []⟩

/-- The next call fails. -/
def fails (disk : Disk) : Bool := disk.faults.headD false

/-- The outcome of one call is used up. -/
def tick (disk : Disk) : Disk := { disk with faults := disk.faults.tail }

/-- `read`: the bytes read, or `none` for -1. -/
def read (disk : Disk) (pos n : Nat) : Option Bytes × Disk :=
  (if disk.fails then none else some (readAt disk.file pos n), disk.tick)

/-- `write`: the number of bytes written, or -1. -/
def write (disk : Disk) (pos : Nat) (data : Bytes) : Int32 × Disk :=
  if disk.fails then (-1, disk.tick)
  else
    (Int32.ofNat data.length,
      { disk.tick with file := writeAt disk.file pos data })

theorem eq_sound {disk : Disk} (h : disk.faults = []) : disk = sound disk.file := by
  obtain ⟨file, faults⟩ := disk
  cases h
  rfl

@[simp] theorem fails_sound (file : Bytes) : (sound file).fails = false := rfl

@[simp] theorem tick_sound (file : Bytes) : (sound file).tick = sound file := rfl

@[simp] theorem read_sound (file : Bytes) (pos n : Nat) :
    (sound file).read pos n = (some (readAt file pos n), sound file) := rfl

@[simp] theorem write_sound (file : Bytes) (pos : Nat) (data : Bytes) :
    (sound file).write pos data =
      (Int32.ofNat data.length, sound (writeAt file pos data)) := rfl

@[simp] theorem file_tick (disk : Disk) : disk.tick.file = disk.file := rfl

@[simp] theorem file_read (disk : Disk) (pos n : Nat) :
    (disk.read pos n).2.file = disk.file := rfl

/-! ## Single writes -/

theorem write_of_fails {disk : Disk} (h : disk.fails = true) (pos : Nat) (data : Bytes) :
    disk.write pos data = (-1, disk.tick) := if_pos h

/-- The disk behind a write that succeeds. -/
def wrote (disk : Disk) (pos : Nat) (data : Bytes) : Disk :=
  { disk.tick with file := writeAt disk.file pos data }

@[simp] theorem file_wrote (disk : Disk) (pos : Nat) (data : Bytes) :
    (disk.wrote pos data).file = writeAt disk.file pos data := rfl

@[simp] theorem fails_wrote (disk : Disk) (pos : Nat) (data : Bytes) :
    (disk.wrote pos data).fails = disk.tick.fails := rfl

theorem write_of_not_fails {disk : Disk} (h : disk.fails = false) (pos : Nat)
    (data : Bytes) :
    disk.write pos data = (Int32.ofNat data.length, disk.wrote pos data) :=
  if_neg (by rw [h]; exact Bool.false_ne_true)

/-! ## The coming calls -/

/-- The next `n` calls succeed. -/
def Clean (disk : Disk) (n : Nat) : Prop := ∀ fault ∈ disk.faults.take n, fault = false

instance (disk : Disk) (n : Nat) : Decidable (disk.Clean n) :=
  inferInstanceAs (Decidable (∀ fault ∈ disk.faults.take n, fault = false))

/-- The outcomes of `n` calls are used up. -/
def skip (disk : Disk) (n : Nat) : Disk := { disk with faults := disk.faults.drop n }

@[simp] theorem file_skip (disk : Disk) (n : Nat) : (disk.skip n).file = disk.file := rfl

theorem skip_add (disk : Disk) (m n : Nat) : (disk.skip m).skip n = disk.skip (m + n) := by
  simp [skip, List.drop_drop]

theorem tick_eq_skip (disk : Disk) : disk.tick = disk.skip 1 := by
  rw [tick, skip, List.drop_one]

theorem clean_one (disk : Disk) : disk.Clean 1 ↔ disk.fails = false := by
  obtain ⟨file, faults⟩ := disk
  cases faults <;> simp [Clean, fails]

theorem clean_add (disk : Disk) (m n : Nat) :
    disk.Clean (m + n) ↔ disk.Clean m ∧ (disk.skip m).Clean n := by
  simp only [Clean, skip, List.take_add, List.mem_append]
  constructor
  · intro h
    exact ⟨fun fault hmem => h fault (.inl hmem), fun fault hmem => h fault (.inr hmem)⟩
  · rintro ⟨hfirst, hrest⟩ fault (hmem | hmem)
    · exact hfirst fault hmem
    · exact hrest fault hmem

/-- The call after `n` that succeed. -/
theorem clean_succ (disk : Disk) (n : Nat) :
    disk.Clean (n + 1) ↔ disk.Clean n ∧ (disk.skip n).fails = false := by
  rw [clean_add, clean_one]

end Disk

end AirTraffic.Storage
