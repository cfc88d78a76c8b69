/-
  Foundation/BoundedBuffer.lean --- a bounded buffer between two semaphores.

  WHAT THIS FILE IS FOR.  One writer and one reader share a ring of slots and two
  counting semaphores.  The writer takes a free slot, stores an item, advances
  its index and posts the item as available; the reader does the same the other
  way round, and all of these steps interleave.  `BufferInv` relates the
  semaphores, the indices and the steps under way to the items written and read;
  from it come the order of the items, the bound on the semaphores and that the
  two sides do not block each other.
-/
import AirTraffic.Foundation.Transition
import Mathlib.Logic.Function.Basic
import Mathlib.Data.Nat.ModEq

set_option autoImplicit false

namespace AirTraffic.Foundation

variable {α : Type}

/-- How far a side is with an item. -/
inductive Phase where
  | resting
  /-- It has taken its semaphore. -/
  | holding
  /-- It has copied the item. -/
  | copied
  /-- It has advanced its index, and has to post the other semaphore. -/
  | advanced
  deriving DecidableEq, Repr

namespace Phase

/-- What the side has taken and not used. -/
def taken : Phase → Nat
  | holding => 1
  | _ => 0

/-- What the side has copied and not posted. -/
def owed : Phase → Nat
  | copied => 1
  | advanced => 1
  | _ => 0

/-- How far the index is behind the items. -/
def behind : Phase → Nat
  | copied => 1
  | _ => 0

@[simp] theorem taken_resting : resting.taken = 0 := rfl
@[simp] theorem taken_holding : holding.taken = 1 := rfl
@[simp] theorem taken_copied : copied.taken = 0 := rfl
@[simp] theorem taken_advanced : advanced.taken = 0 := rfl
@[simp] theorem owed_resting : resting.owed = 0 := rfl
@[simp] theorem owed_holding : holding.owed = 0 := rfl
@[simp] theorem owed_copied : copied.owed = 1 := rfl
@[simp] theorem owed_advanced : advanced.owed = 1 := rfl
@[simp] theorem behind_resting : resting.behind = 0 := rfl
@[simp] theorem behind_holding : holding.behind = 0 := rfl
@[simp] theorem behind_copied : copied.behind = 1 := rfl
@[simp] theorem behind_advanced : advanced.behind = 0 := rfl

theorem eq_resting_iff (phase : Phase) : phase = resting ↔ phase.taken + phase.owed = 0 := by
  cases phase <;> simp [taken, owed]

end Phase

/-- The shared memory, where the sides are, and the items that went through. -/
structure Buffer (α : Type) where
  free : Nat
  available : Nat
  slots : Nat → α
  wr : Nat
  rd : Nat
  writer : Phase
  reader : Phase
  written : List α
  read : List α

/-- An empty buffer, on slots that hold anything. -/
def Buffer.empty (capacity : Nat) (slots : Nat → α) : Buffer α where
  free := capacity
  available := 0
  slots := slots
  wr := 0
  rd := 0
  writer := .resting
  reader := .resting
  written := []
  read := []

inductive BufferEvent (α : Type) where
  | takeFree
  | store (item : α)
  | advanceWr
  | postAvailable
  | takeAvailable
  | load
  | advanceRd
  | postFree

/-- One step of one side. -/
inductive BufferStep (capacity : Nat) : Buffer α → BufferEvent α → Buffer α → Prop
  | takeFree {b : Buffer α} {left : Nat} (phase : b.writer = .resting)
      (free : b.free = left + 1) :
      BufferStep capacity b .takeFree { b with free := left, writer := .holding }
  | store {b : Buffer α} (item : α) (phase : b.writer = .holding) :
      BufferStep capacity b (.store item)
        { b with
          slots := Function.update b.slots b.wr item
          written := b.written ++ [item]
          writer := .copied }
  | advanceWr {b : Buffer α} (phase : b.writer = .copied) :
      BufferStep capacity b .advanceWr
        { b with wr := (b.wr + 1) % capacity, writer := .advanced }
  | postAvailable {b : Buffer α} (phase : b.writer = .advanced) :
      BufferStep capacity b .postAvailable
        { b with available := b.available + 1, writer := .resting }
  | takeAvailable {b : Buffer α} {left : Nat} (phase : b.reader = .resting)
      (available : b.available = left + 1) :
      BufferStep capacity b .takeAvailable { b with available := left, reader := .holding }
  | load {b : Buffer α} (phase : b.reader = .holding) :
      BufferStep capacity b .load
        { b with read := b.read ++ [b.slots b.rd], reader := .copied }
  | advanceRd {b : Buffer α} (phase : b.reader = .copied) :
      BufferStep capacity b .advanceRd
        { b with rd := (b.rd + 1) % capacity, reader := .advanced }
  | postFree {b : Buffer α} (phase : b.reader = .advanced) :
      BufferStep capacity b .postFree { b with free := b.free + 1, reader := .resting }

/-- What relates the semaphores and the indices to the items. -/
structure BufferInv (capacity : Nat) (b : Buffer α) : Prop where
  /-- An unread item is available, owed by the writer or taken by the reader. -/
  items : b.available + b.writer.owed + b.reader.taken + b.read.length = b.written.length
  /-- A slot is free, taken by the writer, owed by the reader or holds an unread item. -/
  room : b.free + b.writer.taken + b.reader.owed + b.written.length = capacity + b.read.length
  behindWr : b.writer.behind ≤ b.written.length
  behindRd : b.reader.behind ≤ b.read.length
  wr : b.wr = (b.written.length - b.writer.behind) % capacity
  rd : b.rd = (b.read.length - b.reader.behind) % capacity
  /-- Unread items lie in their slots. -/
  slots : ∀ k, b.read.length ≤ k → k < b.written.length →
    b.written[k]? = some (b.slots (k % capacity))
  order : b.read <+: b.written

namespace BufferInv

variable {capacity : Nat} {b c : Buffer α} {e : BufferEvent α}

theorem empty (capacity : Nat) (slots : Nat → α) :
    BufferInv capacity (Buffer.empty capacity slots) where
  items := rfl
  room := rfl
  behindWr := Nat.le_refl 0
  behindRd := Nat.le_refl 0
  wr := (Nat.zero_mod capacity).symm
  rd := (Nat.zero_mod capacity).symm
  slots := fun k _ h => absurd h (Nat.not_lt_zero k)
  order := List.prefix_refl []

/-- Positions less than the capacity apart have different slots. -/
theorem slot_ne {k n : Nat} (hlt : k < n) (hnear : n < k + capacity) :
    k % capacity ≠ n % capacity := by
  intro heq
  have hdvd : capacity ∣ n - k := (Nat.modEq_iff_dvd' (Nat.le_of_lt hlt)).mp heq
  have := Nat.le_of_dvd (by omega) hdvd
  omega

/-- The slot that the writer is about to store to holds no unread item. -/
theorem wr_ne_unread (inv : BufferInv capacity b) (phase : b.writer = .holding) {k : Nat}
    (hread : b.read.length ≤ k) (hwritten : k < b.written.length) : k % capacity ≠ b.wr := by
  have hroom := inv.room
  rw [phase, Phase.taken_holding] at hroom
  rw [inv.wr, phase, Phase.behind_holding, Nat.sub_zero]
  exact slot_ne hwritten (by omega)

/-- The reader takes the next item. -/
theorem getElem?_load (inv : BufferInv capacity b) (phase : b.reader = .holding) :
    b.written[b.read.length]? = some (b.slots b.rd) := by
  have hitems := inv.items
  rw [phase, Phase.taken_holding] at hitems
  rw [inv.slots b.read.length (Nat.le_refl _) (by omega), inv.rd, phase, Phase.behind_holding,
    Nat.sub_zero]

/-- Every step keeps it. -/
theorem step (inv : BufferInv capacity b) (step : BufferStep capacity b e c) :
    BufferInv capacity c := by
  have hitems := inv.items
  have hroom := inv.room
  have hwr := inv.wr
  have hrd := inv.rd
  cases step with
  | takeFree phase free =>
      simp only [phase, free, Phase.owed_resting, Phase.taken_resting,
        Phase.behind_resting] at hitems hroom hwr
      exact { inv with
        items := by simp only [Phase.owed_holding]; omega
        room := by simp only [Phase.taken_holding]; omega
        behindWr := Nat.zero_le _
        wr := hwr }
  | store item phase =>
      simp only [phase, Phase.owed_holding, Phase.taken_holding,
        Phase.behind_holding] at hitems hroom hwr
      exact { inv with
        items := by simp only [Phase.owed_copied, List.length_append, List.length_singleton]; omega
        room := by simp only [Phase.taken_copied, List.length_append, List.length_singleton]; omega
        behindWr := by simp
        wr := by simpa using hwr
        slots := by
          intro k hread hwritten
          rw [List.length_append, List.length_singleton] at hwritten
          by_cases hlast : k = b.written.length
          · subst hlast
            rw [Nat.sub_zero] at hwr
            simp only [List.getElem?_concat_length, ← hwr, Function.update_self]
          · have hbefore : k < b.written.length := by omega
            simp only [List.getElem?_append_left hbefore, inv.slots k hread hbefore,
              Function.update_of_ne (inv.wr_ne_unread phase hread hbefore)]
        order := inv.order.trans (List.prefix_append _ _) }
  | advanceWr phase =>
      have hbehind := inv.behindWr
      simp only [phase, Phase.owed_copied, Phase.taken_copied,
        Phase.behind_copied] at hitems hroom hwr hbehind
      exact { inv with
        items := hitems
        room := hroom
        behindWr := Nat.zero_le _
        wr := by
          simp only [Phase.behind_advanced, Nat.sub_zero]
          rw [hwr, Nat.mod_add_mod, Nat.sub_add_cancel hbehind] }
  | postAvailable phase =>
      simp only [phase, Phase.owed_advanced, Phase.taken_advanced,
        Phase.behind_advanced] at hitems hroom hwr
      exact { inv with
        items := by simp only [Phase.owed_resting]; omega
        room := hroom
        behindWr := Nat.zero_le _
        wr := hwr }
  | takeAvailable phase available =>
      simp only [phase, available, Phase.owed_resting, Phase.taken_resting,
        Phase.behind_resting] at hitems hroom hrd
      exact { inv with
        items := by simp only [Phase.taken_holding]; omega
        room := by simp only [Phase.owed_holding]; omega
        behindRd := Nat.zero_le _
        rd := hrd }
  | load phase =>
      have hnext := inv.getElem?_load phase
      simp only [phase, Phase.owed_holding, Phase.taken_holding,
        Phase.behind_holding] at hitems hroom hrd
      exact { inv with
        items := by simp only [Phase.taken_copied, List.length_append, List.length_singleton]; omega
        room := by simp only [Phase.owed_copied, List.length_append, List.length_singleton]; omega
        behindRd := by simp
        rd := by simpa using hrd
        slots := by
          intro k hread hwritten
          rw [List.length_append, List.length_singleton] at hread
          exact inv.slots k (by omega) hwritten
        order := by
          obtain ⟨hlt, hget⟩ := List.getElem?_eq_some_iff.mp hnext
          have htake : b.read = b.written.take b.read.length :=
            List.prefix_iff_eq_take.mp inv.order
          have hsucc := List.take_succ_eq_append_getElem hlt
          rw [hget, ← htake] at hsucc
          dsimp only
          rw [← hsucc]
          exact List.take_prefix _ _ }
  | advanceRd phase =>
      have hbehind := inv.behindRd
      simp only [phase, Phase.owed_copied, Phase.taken_copied,
        Phase.behind_copied] at hitems hroom hrd hbehind
      exact { inv with
        items := hitems
        room := hroom
        behindRd := Nat.zero_le _
        rd := by
          simp only [Phase.behind_advanced, Nat.sub_zero]
          rw [hrd, Nat.mod_add_mod, Nat.sub_add_cancel hbehind] }
  | postFree phase =>
      simp only [phase, Phase.owed_advanced, Phase.taken_advanced,
        Phase.behind_advanced] at hitems hroom hrd
      exact { inv with
        items := hitems
        room := by simp only [Phase.owed_resting]; omega
        behindRd := Nat.zero_le _
        rd := hrd }

/-- The semaphores together stay within the capacity. -/
theorem free_add_available_le (inv : BufferInv capacity b) :
    b.free + b.available ≤ capacity := by
  have hitems := inv.items
  have hroom := inv.room
  omega

/-- When both sides rest, one of them finds its semaphore open. -/
theorem exists_open (inv : BufferInv capacity b) (hcapacity : 0 < capacity)
    (hwriter : b.writer = .resting) (hreader : b.reader = .resting) :
    0 < b.free ∨ 0 < b.available := by
  have hitems := inv.items
  have hroom := inv.room
  simp only [hwriter, hreader, Phase.owed_resting, Phase.taken_resting] at hitems hroom
  omega

/-- The semaphores are as in an empty buffer exactly if every item was read and
both sides rest. -/
theorem open_iff_settled (inv : BufferInv capacity b) :
    b.free = capacity ∧ b.available = 0 ↔
      b.read = b.written ∧ b.writer = .resting ∧ b.reader = .resting := by
  have hitems := inv.items
  have hroom := inv.room
  rw [Phase.eq_resting_iff, Phase.eq_resting_iff]
  constructor
  · rintro ⟨hfree, havailable⟩
    refine ⟨inv.order.eq_of_length (by omega), by omega, by omega⟩
  · rintro ⟨hread, hwriter, hreader⟩
    rw [hread] at hitems hroom
    omega

end BufferInv

end AirTraffic.Foundation
