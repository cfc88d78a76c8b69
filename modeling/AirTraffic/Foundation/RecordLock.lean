/-
  Foundation/RecordLock.lean --- POSIX record locks on a whole file.

  WHAT THIS FILE IS FOR.  A process holds a shared lock on the file, or an
  exclusive one, or none; a lock belongs to the process, not to a descriptor.  A
  request is blocked by every other process whose lock conflicts with it.  It
  fails when waiting for it would close a cycle of processes that wait for each
  other (`WouldDeadlock`).  The rules of the table of locks: it stays sound
  (`sound_update_some`, `Sound.update_none`), and who takes part in a cycle both
  holds a lock and waits (`WouldDeadlock.holds`, `WouldDeadlock.waiter`).
-/
import Mathlib.Logic.Relation
import Mathlib.Logic.Function.Basic

set_option autoImplicit false

namespace AirTraffic.Foundation

/-- The two kinds of lock. -/
inductive LockMode where
  | shared
  | exclusive
  deriving DecidableEq, Repr

/-- Locks that two processes cannot hold at once. -/
def LockMode.Conflicts : LockMode → LockMode → Prop
  | .shared, .shared => False
  | _, _ => True

theorem LockMode.exclusive_conflicts (mode : LockMode) : LockMode.exclusive.Conflicts mode := by
  cases mode <;> trivial

theorem LockMode.conflicts_exclusive (mode : LockMode) : mode.Conflicts .exclusive := by
  cases mode <;> trivial

variable {Pid : Type}

/-- The lock of a process stands in the way of a request. -/
def Blocks (held : Pid → Option LockMode) (p : Pid) (mode : LockMode) (q : Pid) : Prop :=
  q ≠ p ∧ ∃ other, held q = some other ∧ mode.Conflicts other

/-- Nothing stands in the way of a request. -/
def Free (held : Pid → Option LockMode) (p : Pid) (mode : LockMode) : Prop :=
  ∀ q, ¬ Blocks held p mode q

/-- A process waits for another one to give up its lock. -/
def Waits (held request : Pid → Option LockMode) (p q : Pid) : Prop :=
  ∃ mode, request p = some mode ∧ Blocks held p mode q

/-- Waiting for the lock would close a cycle. -/
def WouldDeadlock (held request : Pid → Option LockMode) (p : Pid) (mode : LockMode) : Prop :=
  ∃ q, Blocks held p mode q ∧ Relation.ReflTransGen (Waits held request) q p

/-- An exclusive lock is the only one. -/
def Sound (held : Pid → Option LockMode) : Prop :=
  ∀ p q, p ≠ q → held p = some .exclusive → held q = none

variable {held request : Pid → Option LockMode} {p q : Pid} {mode : LockMode}

theorem Free.none_of_exclusive (h : Free held p .exclusive) (hne : q ≠ p) : held q = none := by
  by_contra hsome
  obtain ⟨other, hother⟩ := Option.ne_none_iff_exists'.mp hsome
  exact h q ⟨hne, other, hother, other.exclusive_conflicts⟩

theorem Free.not_exclusive (h : Free held p mode) (hne : q ≠ p) :
    held q ≠ some .exclusive := fun hheld =>
  h q ⟨hne, .exclusive, hheld, mode.conflicts_exclusive⟩

theorem free_of_none (h : ∀ q, q ≠ p → held q = none) : Free held p mode := by
  rintro q ⟨hne, other, hother, _⟩
  exact absurd ((h q hne).symm.trans hother) (by simp)

/-- The process that would wait last in the cycle waits for a lock that the
first one holds. -/
theorem WouldDeadlock.holds (h : WouldDeadlock held request p mode) :
    ∃ own, held p = some own := by
  obtain ⟨q, ⟨hne, _⟩, hpath⟩ := h
  rcases Relation.ReflTransGen.cases_tail hpath with heq | ⟨_, _, _, _, _, own, hown, _⟩
  · exact absurd heq.symm hne
  · exact ⟨own, hown⟩

theorem not_wouldDeadlock_of_none (h : held p = none) : ¬ WouldDeadlock held request p mode := by
  intro hdead
  obtain ⟨own, hown⟩ := hdead.holds
  exact absurd (h.symm.trans hown) (by simp)

/-- The process that stands in the way waits itself. -/
theorem WouldDeadlock.waiter (h : WouldDeadlock held request p mode) :
    ∃ q, Blocks held p mode q ∧ ∃ wanted, request q = some wanted := by
  obtain ⟨q, hblocks, hpath⟩ := h
  rcases Relation.ReflTransGen.cases_head hpath with heq | ⟨_, ⟨wanted, hwanted, _⟩, _⟩
  · exact absurd heq hblocks.1
  · exact ⟨q, hblocks, wanted, hwanted⟩

/-- Two processes that stand in each other's way. -/
theorem wouldDeadlock_of_mutual {wanted : LockMode} (hblocks : Blocks held p mode q)
    (hrequest : request q = some wanted) (hback : Blocks held q wanted p) :
    WouldDeadlock held request p mode :=
  ⟨q, hblocks, .single ⟨wanted, hrequest, hback⟩⟩

section Update

variable [DecidableEq Pid]

/-- Granting a request that nothing stands in the way of. -/
theorem sound_update_some (hfree : Free held p mode) :
    Sound (Function.update held p (some mode)) := by
  intro r s hne hheld
  by_cases hr : r = p
  · subst hr
    rw [Function.update_self, Option.some.injEq] at hheld
    subst hheld
    rw [Function.update_of_ne hne.symm]
    exact hfree.none_of_exclusive hne.symm
  · rw [Function.update_of_ne hr] at hheld
    exact absurd hheld (hfree.not_exclusive hr)

/-- Giving up a lock. -/
theorem Sound.update_none (h : Sound held) : Sound (Function.update held p none) := by
  intro r s hne hheld
  by_cases hs : s = p
  · rw [hs, Function.update_self]
  · by_cases hr : r = p
    · rw [hr, Function.update_self] at hheld
      exact absurd hheld (by simp)
    · rw [Function.update_of_ne hr] at hheld
      rw [Function.update_of_ne hs]
      exact h r s hne hheld

end Update

end AirTraffic.Foundation
