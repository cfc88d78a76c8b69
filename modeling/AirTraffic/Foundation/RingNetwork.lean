/-
  Foundation/RingNetwork.lean --- two sequential parties and a ring to each.

  WHAT THIS FILE IS FOR.  The queues of a `Network` are bounded buffers in shared
  memory: a send is four steps on the ring to the other party and a receive four
  steps on its own, and all of these interleave.  The item of a send goes over
  when it is stored, that of a receive when it is loaded; the other steps change
  nothing that the parties see (`RingNetworkStep.toNetwork`).  So two parties that
  can meet get through over rings too, and leave them drained
  (`Meets.ring_completed`).
-/
import AirTraffic.Foundation.BoundedBuffer
import AirTraffic.Foundation.Network

set_option autoImplicit false

namespace AirTraffic.Foundation

/-! ## One ring -/

section Buffer

variable {α : Type} {capacity : Nat} {b c : Buffer α}

/-- The items that were written and not read. -/
def Buffer.unread (b : Buffer α) : List α := b.written.drop b.read.length

/-- How many steps a phase is away from the one before it takes a semaphore, with
four for each item. -/
def Phase.weight : Phase → Nat
  | .holding => 0
  | .resting => 1
  | .advanced => 2
  | .copied => 3

@[simp] theorem Phase.weight_holding : Phase.holding.weight = 0 := rfl
@[simp] theorem Phase.weight_resting : Phase.resting.weight = 1 := rfl
@[simp] theorem Phase.weight_advanced : Phase.advanced.weight = 2 := rfl
@[simp] theorem Phase.weight_copied : Phase.copied.weight = 3 := rfl

/-- What both sides of a ring are away from rest. -/
def Buffer.weight (b : Buffer α) : Nat := b.writer.weight + b.reader.weight

/-- The steps that take a semaphore. -/
def BufferEvent.Takes : BufferEvent α → Prop
  | .takeFree => True
  | .takeAvailable => True
  | _ => False

/-- The steps that end an item: the index and the other semaphore. -/
def BufferEvent.Ends : BufferEvent α → Prop
  | .advanceWr => True
  | .postAvailable => True
  | .advanceRd => True
  | .postFree => True
  | _ => False

/-- A step that moves no item moves nothing that is unread, and is one step. -/
theorem BufferStep.quiet {event : BufferEvent α} (quiet : event.Takes ∨ event.Ends)
    (step : BufferStep capacity b event c) : c.unread = b.unread ∧ c.weight + 1 = b.weight := by
  cases step with
  | takeFree phase free => exact ⟨rfl, by simp [Buffer.weight, phase]; omega⟩
  | store item phase => exact absurd quiet (by simp [BufferEvent.Takes, BufferEvent.Ends])
  | advanceWr phase => exact ⟨rfl, by simp [Buffer.weight, phase]; omega⟩
  | postAvailable phase => exact ⟨rfl, by simp [Buffer.weight, phase]; omega⟩
  | takeAvailable phase available => exact ⟨rfl, by simp [Buffer.weight, phase]⟩
  | load phase => exact absurd quiet (by simp [BufferEvent.Takes, BufferEvent.Ends])
  | advanceRd phase => exact ⟨rfl, by simp [Buffer.weight, phase]⟩
  | postFree phase => exact ⟨rfl, by simp [Buffer.weight, phase]⟩

/-- A step that ends an item takes no semaphore. -/
theorem BufferStep.holding_of_ends {event : BufferEvent α} (ends : event.Ends)
    (step : BufferStep capacity b event c) :
    (c.writer = .holding → b.writer = .holding) ∧
      (c.reader = .holding → b.reader = .holding) := by
  cases step with
  | takeFree phase free => exact absurd ends id
  | store item phase => exact absurd ends id
  | advanceWr phase => exact ⟨fun h => absurd h Phase.noConfusion, id⟩
  | postAvailable phase => exact ⟨fun h => absurd h Phase.noConfusion, id⟩
  | takeAvailable phase available => exact absurd ends id
  | load phase => exact absurd ends id
  | advanceRd phase => exact ⟨id, fun h => absurd h Phase.noConfusion⟩
  | postFree phase => exact ⟨id, fun h => absurd h Phase.noConfusion⟩

/-- What was stored is unread, behind the rest. -/
theorem BufferStep.unread_store {item : α} (inv : BufferInv capacity b)
    (step : BufferStep capacity b (.store item) c) :
    c.unread = b.unread ++ [item] ∧ c.weight = b.weight + 3 := by
  cases step with
  | store item phase =>
      refine ⟨?_, by simp [Buffer.weight, phase]; omega⟩
      exact List.drop_append_of_le_length inv.order.length_le

/-- What is loaded is the first item that was unread. -/
theorem BufferStep.unread_load (inv : BufferInv capacity b)
    (step : BufferStep capacity b .load c) :
    b.unread = b.slots b.rd :: c.unread ∧ c.weight = b.weight + 3 := by
  cases step with
  | load phase =>
      refine ⟨?_, by simp [Buffer.weight, phase]⟩
      obtain ⟨hlt, hget⟩ := List.getElem?_eq_some_iff.mp (inv.getElem?_load phase)
      simp only [Buffer.unread, List.length_append, List.length_singleton]
      rw [List.drop_eq_getElem_cons hlt, hget]

/-- There are as many items unread as there is no room for. -/
theorem BufferInv.length_unread (inv : BufferInv capacity b) :
    b.unread.length + b.free + b.writer.taken + b.reader.owed = capacity := by
  have hroom := inv.room
  have hle := inv.order.length_le
  rw [Buffer.unread, List.length_drop]
  omega

theorem BufferInv.available_unread (inv : BufferInv capacity b) :
    b.available + b.writer.owed + b.reader.taken = b.unread.length := by
  have hitems := inv.items
  rw [Buffer.unread, List.length_drop]
  omega

end Buffer

/-! ## Two rings -/

/-- The two parties, and the ring to each. -/
structure RingNetwork (α β : Type) (ρ : Side → Type) where
  party : (side : Side) → Party α β (ρ side)
  ring : Side → Buffer α

section RingNetwork

variable {α β : Type} {ρ : Side → Type}

namespace RingNetwork

/-- Empty rings, on slots that hold anything. -/
def start (capacity : Nat) (slots : Side → Nat → α) (left : Party α β (ρ .left))
    (right : Party α β (ρ .right)) : RingNetwork α β ρ where
  party
    | .left => left
    | .right => right
  ring side := Buffer.empty capacity (slots side)

def setRing (s : RingNetwork α β ρ) (side : Side) (next : Buffer α) : RingNetwork α β ρ :=
  { s with ring := Function.update s.ring side next }

def setParty (s : RingNetwork α β ρ) (side : Side) (rest : Party α β (ρ side)) :
    RingNetwork α β ρ :=
  { s with party := Function.update s.party side rest }

/-- What the parties see: what is left to do, and the items that are unread. -/
def toNetwork (s : RingNetwork α β ρ) : Network α β ρ where
  party := s.party
  inbox side := (s.ring side).unread

/-- What all sides are away from rest. -/
def weight (s : RingNetwork α β ρ) : Nat := (s.ring .left).weight + (s.ring .right).weight

variable (s : RingNetwork α β ρ) {side side' : Side} (next : Buffer α)
  (rest : Party α β (ρ side))

@[simp] theorem party_setRing : (s.setRing side next).party = s.party := rfl

@[simp] theorem ring_setParty : (s.setParty side rest).ring = s.ring := rfl

@[simp] theorem ring_setRing : (s.setRing side next).ring side = next := by
  simp [setRing]

@[simp] theorem ring_setRing_of_ne (h : side' ≠ side) :
    (s.setRing side next).ring side' = s.ring side' := by
  simp [setRing, h]

@[simp] theorem party_setParty : (s.setParty side rest).party side = rest := by
  simp [setParty]

@[simp] theorem party_setParty_of_ne (h : side' ≠ side) :
    (s.setParty side rest).party side' = s.party side' := by
  simp [setParty, h]

theorem weight_eq (side : Side) :
    s.weight = (s.ring side).weight + (s.ring side.other).weight := by
  cases side with
  | left => rfl
  | right => exact Nat.add_comm _ _

end RingNetwork

/-- One step of one party on one ring.  It takes a semaphore only when it is
through with the item before. -/
inductive RingNetworkStep (capacity : Nat) :
    RingNetwork α β ρ → Side × BufferEvent α → RingNetwork α β ρ → Prop
  | takeFree {s : RingNetwork α β ρ} {side : Side} {item : α} {rest : Party α β (ρ side)}
      {next : Buffer α} (party : s.party side = .send item rest)
      (idle : (s.ring side).reader = .resting)
      (step : BufferStep capacity (s.ring side.other) .takeFree next) :
      RingNetworkStep capacity s (side.other, .takeFree) (s.setRing side.other next)
  | store {s : RingNetwork α β ρ} {side : Side} {item : α} {rest : Party α β (ρ side)}
      {next : Buffer α} (party : s.party side = .send item rest)
      (step : BufferStep capacity (s.ring side.other) (.store item) next) :
      RingNetworkStep capacity s (side.other, .store item)
        ((s.setRing side.other next).setParty side rest)
  | takeAvailable {s : RingNetwork α β ρ} {side : Side} {slot : β}
      {rest : α → Party α β (ρ side)} {next : Buffer α}
      (party : s.party side = .recv slot rest)
      (idle : (s.ring side.other).writer = .resting)
      (step : BufferStep capacity (s.ring side) .takeAvailable next) :
      RingNetworkStep capacity s (side, .takeAvailable) (s.setRing side next)
  | load {s : RingNetwork α β ρ} {side : Side} {slot : β} {rest : α → Party α β (ρ side)}
      {next : Buffer α} (party : s.party side = .recv slot rest)
      (step : BufferStep capacity (s.ring side) .load next) :
      RingNetworkStep capacity s (side, .load)
        ((s.setRing side next).setParty side (rest ((s.ring side).slots (s.ring side).rd)))
  | finish {s : RingNetwork α β ρ} {side : Side} {event : BufferEvent α} {next : Buffer α}
      (ends : event.Ends) (step : BufferStep capacity (s.ring side) event next) :
      RingNetworkStep capacity s (side, event) (s.setRing side next)

/-- The rings are in order, and a party that took a semaphore has an item to move. -/
structure RingNetwork.Inv (capacity : Nat) (s : RingNetwork α β ρ) : Prop where
  ring : ∀ side, BufferInv capacity (s.ring side)
  sends : ∀ side, (s.ring side.other).writer = .holding →
    ∃ item rest, s.party side = .send item rest
  receives : ∀ side, (s.ring side).reader = .holding →
    ∃ slot rest, s.party side = .recv slot rest

variable {capacity : Nat} {fits : β → α → Prop} {s t : RingNetwork α β ρ}
  {event : Side × BufferEvent α}

theorem RingNetwork.inv_start (capacity : Nat) (slots : Side → Nat → α)
    (left : Party α β (ρ .left)) (right : Party α β (ρ .right)) :
    (RingNetwork.start capacity slots left right).Inv capacity where
  ring side := BufferInv.empty capacity (slots side)
  sends := fun _ h => absurd h Phase.noConfusion
  receives := fun _ h => absurd h Phase.noConfusion

theorem RingNetwork.Inv.sends_other (inv : s.Inv capacity) {side : Side}
    (writer : (s.ring side).writer = .holding) :
    ∃ item rest, s.party side.other = .send item rest := by
  apply inv.sends side.other
  rwa [Side.other_other]

/-- A ring is replaced, and no party goes on: what took a semaphore before still
has its item, and what takes one now has one. -/
theorem RingNetwork.Inv.setRing {side : Side} {next : Buffer α} (inv : s.Inv capacity)
    (ring : BufferInv capacity next)
    (sends : next.writer = .holding → ∃ item rest, s.party side.other = .send item rest)
    (receives : next.reader = .holding → ∃ slot rest, s.party side = .recv slot rest) :
    (s.setRing side next).Inv capacity where
  ring := by
    intro side'
    rcases side.eq_or_eq_other side' with rfl | rfl
    · rw [ring_setRing]
      exact ring
    · rw [s.ring_setRing_of_ne next side.other_ne]
      exact inv.ring _
  sends := by
    intro side' hholding
    rcases side.eq_or_eq_other side' with rfl | rfl
    · rw [s.ring_setRing_of_ne next side'.other_ne] at hholding
      exact inv.sends side' hholding
    · rw [Side.other_other, ring_setRing] at hholding
      exact sends hholding
  receives := by
    intro side' hholding
    rcases side.eq_or_eq_other side' with rfl | rfl
    · rw [ring_setRing] at hholding
      exact receives hholding
    · rw [s.ring_setRing_of_ne next side.other_ne] at hholding
      exact inv.receives side.other hholding

/-- A party goes on while it holds no semaphore. -/
theorem RingNetwork.Inv.setParty {side : Side} {rest : Party α β (ρ side)}
    (inv : s.Inv capacity) (writer : (s.ring side.other).writer ≠ .holding)
    (reader : (s.ring side).reader ≠ .holding) : (s.setParty side rest).Inv capacity where
  ring := inv.ring
  sends := by
    intro side' hholding
    rcases side.eq_or_eq_other side' with rfl | rfl
    · exact absurd hholding writer
    · rw [s.party_setParty_of_ne rest side.other_ne]
      exact inv.sends side.other hholding
  receives := by
    intro side' hholding
    rcases side.eq_or_eq_other side' with rfl | rfl
    · exact absurd hholding reader
    · rw [s.party_setParty_of_ne rest side.other_ne]
      exact inv.receives side.other hholding

/-- A party that is to send has not taken the semaphore of a receive. -/
theorem RingNetwork.Inv.reader_of_send {side : Side} {item : α} {rest : Party α β (ρ side)}
    (inv : s.Inv capacity) (party : s.party side = .send item rest) :
    (s.ring side).reader ≠ .holding := by
  intro hholding
  obtain ⟨slot, next, hparty⟩ := inv.receives side hholding
  rw [party] at hparty
  cases hparty

/-- Nor the other way round. -/
theorem RingNetwork.Inv.writer_of_recv {side : Side} {slot : β} {rest : α → Party α β (ρ side)}
    (inv : s.Inv capacity) (party : s.party side = .recv slot rest) :
    (s.ring side.other).writer ≠ .holding := by
  intro hholding
  obtain ⟨item, next, hparty⟩ := inv.sends side hholding
  rw [party] at hparty
  cases hparty

theorem RingNetworkStep.inv (inv : s.Inv capacity) (step : RingNetworkStep capacity s event t) :
    t.Inv capacity := by
  cases step with
  | @takeFree side item rest next party idle step =>
      refine inv.setRing ((inv.ring side.other).step step) ?_ ?_
      · intro _
        rw [Side.other_other]
        exact ⟨item, rest, party⟩
      · cases step
        exact inv.receives side.other
  | @store side item rest next party step =>
      have hreader := inv.reader_of_send party
      have hring : (s.setRing side.other next).Inv capacity := by
        refine inv.setRing ((inv.ring side.other).step step) ?_ ?_
        · cases step
          exact fun h => absurd h Phase.noConfusion
        · cases step
          exact inv.receives side.other
      refine hring.setParty ?_ ?_
      · rw [RingNetwork.ring_setRing]
        cases step
        exact Phase.noConfusion
      · rwa [s.ring_setRing_of_ne next side.ne_other]
  | @takeAvailable side slot rest next party idle step =>
      refine inv.setRing ((inv.ring side).step step) ?_ fun _ => ⟨slot, rest, party⟩
      cases step
      exact inv.sends_other
  | @load side slot rest next party step =>
      have hwriter := inv.writer_of_recv party
      have hring : (s.setRing side next).Inv capacity := by
        refine inv.setRing ((inv.ring side).step step) ?_ ?_
        · cases step
          exact inv.sends_other
        · cases step
          exact fun h => absurd h Phase.noConfusion
      refine hring.setParty ?_ ?_
      · rwa [s.ring_setRing_of_ne next side.other_ne]
      · rw [RingNetwork.ring_setRing]
        cases step
        exact Phase.noConfusion
  | @finish side event next ends step =>
      obtain ⟨hwriter, hreader⟩ := step.holding_of_ends ends
      exact inv.setRing ((inv.ring side).step step) (fun h => inv.sends_other (hwriter h))
        fun h => inv.receives side (hreader h)

/-! ## What the parties see -/

/-- A quiet step changes nothing that the parties see. -/
theorem RingNetwork.toNetwork_setRing {side : Side} {next : Buffer α}
    (h : next.unread = (s.ring side).unread) : (s.setRing side next).toNetwork = s.toNetwork := by
  refine Network.ext_side side rfl rfl ?_ ?_
  · simpa [RingNetwork.toNetwork] using h
  · simp [RingNetwork.toNetwork]

theorem RingNetwork.weight_setRing (side : Side) (next : Buffer α) :
    (s.setRing side next).weight = next.weight + (s.ring side.other).weight := by
  rw [RingNetwork.weight_eq _ side, RingNetwork.ring_setRing,
    s.ring_setRing_of_ne next side.other_ne]

/-- A quiet step is nothing to the parties, and the others are steps of the network
behind the rings. -/
theorem RingNetworkStep.toNetwork (inv : s.Inv capacity)
    (step : RingNetworkStep capacity s event t) :
    (t.toNetwork = s.toNetwork ∧ t.weight + 1 = s.weight) ∨
      ∃ seen, NetworkStep capacity anyFits s.toNetwork seen t.toNetwork ∧
        t.weight = s.weight + 3 := by
  cases step with
  | @takeFree side item rest next party idle step =>
      have htakes : (BufferEvent.takeFree : BufferEvent α).Takes := trivial
      obtain ⟨hunread, hweight⟩ := step.quiet (.inl htakes)
      refine .inl ⟨RingNetwork.toNetwork_setRing hunread, ?_⟩
      rw [RingNetwork.weight_setRing, s.weight_eq side.other]
      omega
  | @store side item rest next party step =>
      obtain ⟨hunread, hweight⟩ := step.unread_store (inv.ring side.other)
      refine .inr ⟨.sent side item, ?_, ?_⟩
      · have hroom : (s.toNetwork.inbox side.other).length < capacity := by
          have hlength := (inv.ring side.other).length_unread
          cases step with
          | store item phase =>
              rw [phase, Phase.taken_holding] at hlength
              simp only [RingNetwork.toNetwork]
              omega
        have hsame : s.toNetwork.sent side item rest =
            ((s.setRing side.other next).setParty side rest).toNetwork := by
          refine Network.ext_side side ?_ ?_ ?_ ?_
          · simp [RingNetwork.toNetwork]
          · simp [RingNetwork.toNetwork]
          · simp [RingNetwork.toNetwork]
          · simpa [RingNetwork.toNetwork] using hunread.symm
        exact hsame ▸ NetworkStep.send party hroom
      · have hparty : ((s.setRing side.other next).setParty side rest).weight =
            (s.setRing side.other next).weight := rfl
        rw [hparty, RingNetwork.weight_setRing, s.weight_eq side.other]
        omega
  | @takeAvailable side slot rest next party idle step =>
      have htakes : (BufferEvent.takeAvailable : BufferEvent α).Takes := trivial
      obtain ⟨hunread, hweight⟩ := step.quiet (.inl htakes)
      refine .inl ⟨RingNetwork.toNetwork_setRing hunread, ?_⟩
      rw [RingNetwork.weight_setRing, s.weight_eq side]
      omega
  | @load side slot rest next party step =>
      obtain ⟨hunread, hweight⟩ := step.unread_load (inv.ring side)
      let item := (s.ring side).slots (s.ring side).rd
      refine .inr ⟨.received side slot item, ?_, ?_⟩
      · have hsame : s.toNetwork.received side (rest item) next.unread =
            ((s.setRing side next).setParty side (rest item)).toNetwork := by
          refine Network.ext_side side ?_ ?_ ?_ ?_
          · simp [RingNetwork.toNetwork]
          · simp [RingNetwork.toNetwork]
          · simp [RingNetwork.toNetwork]
          · simp [RingNetwork.toNetwork]
        exact hsame ▸ NetworkStep.recv party hunread trivial
      · have hparty : ((s.setRing side next).setParty side (rest item)).weight =
            (s.setRing side next).weight := rfl
        rw [hparty, RingNetwork.weight_setRing, s.weight_eq side]
        omega
  | @finish side event next ends step =>
      obtain ⟨hunread, hweight⟩ := step.quiet (.inr ends)
      refine .inl ⟨RingNetwork.toNetwork_setRing hunread, ?_⟩
      rw [RingNetwork.weight_setRing, s.weight_eq side]
      omega

/-- A run is a run of the network behind the rings, in four steps for each of its
steps. -/
theorem RingNetwork.run_toNetwork (inv : s.Inv capacity)
    {trace : List ((Side × BufferEvent α) × RingNetwork α β ρ)}
    (run : Run (RingNetworkStep capacity) s trace t) :
    t.Inv capacity ∧ ∃ seen : List (NetworkEvent α β × Network α β ρ),
      Run (NetworkStep capacity anyFits) s.toNetwork seen t.toNetwork ∧
        trace.length + t.weight = 4 * seen.length + s.weight := by
  induction run with
  | nil s => exact ⟨inv, [], .nil _, by simp⟩
  | @cons s next t event rest step _ ih =>
      obtain ⟨hinv, seen, hrun, hlength⟩ := ih (step.inv inv)
      refine ⟨hinv, ?_⟩
      rcases step.toNetwork inv with ⟨hsame, hweight⟩ | ⟨event', hstep, hweight⟩
      · refine ⟨seen, hsame ▸ hrun, ?_⟩
        rw [List.length_cons]
        omega
      · refine ⟨(event', next.toNetwork) :: seen, .cons hstep hrun, ?_⟩
        rw [List.length_cons, List.length_cons]
        omega

/-! ## No run gets stuck -/

/-- No party is in the middle of an item. -/
def RingNetwork.Rests (s : RingNetwork α β ρ) : Prop :=
  ∀ side, (s.ring side).writer = .resting ∧ (s.ring side).reader = .resting

/-- A party in the middle of an item goes on. -/
theorem RingNetwork.exists_step_of_busy (inv : s.Inv capacity) (busy : ¬ s.Rests) :
    ∃ event t, RingNetworkStep capacity s event t := by
  obtain ⟨side, hside⟩ := not_forall.mp busy
  have hends : ∀ (event : BufferEvent α) {next : Buffer α}, event.Ends →
      BufferStep capacity (s.ring side) event next →
      ∃ event t, RingNetworkStep capacity s event t :=
    fun _ _ ends step => ⟨_, _, .finish ends step⟩
  rcases not_and_or.mp hside with hwriter | hreader
  · cases phase : (s.ring side).writer with
    | resting => exact absurd phase hwriter
    | holding =>
        obtain ⟨item, rest, party⟩ := inv.sends_other phase
        have hring : (s.ring side.other.other).writer = .holding := by
          rwa [Side.other_other]
        exact ⟨_, _, .store party (.store item hring)⟩
    | copied => exact hends .advanceWr trivial (.advanceWr phase)
    | advanced => exact hends .postAvailable trivial (.postAvailable phase)
  · cases phase : (s.ring side).reader with
    | resting => exact absurd phase hreader
    | holding =>
        obtain ⟨slot, rest, party⟩ := inv.receives side phase
        exact ⟨_, _, .load party (.load phase)⟩
    | copied => exact hends .advanceRd trivial (.advanceRd phase)
    | advanced => exact hends .postFree trivial (.postFree phase)

/-- At rest the semaphores count the items and the room for more. -/
theorem RingNetwork.counts_of_rests (inv : s.Inv capacity) (rests : s.Rests) (side : Side) :
    (s.ring side).available = (s.toNetwork.inbox side).length ∧
      (s.ring side).free + (s.toNetwork.inbox side).length = capacity := by
  obtain ⟨hwriter, hreader⟩ := rests side
  have hfree := (inv.ring side).length_unread
  have havailable := (inv.ring side).available_unread
  simp only [hwriter, hreader, Phase.taken_resting, Phase.owed_resting] at hfree havailable
  simp only [RingNetwork.toNetwork]
  omega

/-- At rest, what the parties could do over queues they can begin to do. -/
theorem RingNetwork.exists_step_of_rests (inv : s.Inv capacity) (rests : s.Rests)
    {seen : NetworkEvent α β} {n : Network α β ρ}
    (step : NetworkStep capacity fits s.toNetwork seen n) :
    ∃ event t, RingNetworkStep capacity s event t := by
  cases step with
  | @send side item rest party room =>
      obtain ⟨_, hfree⟩ := RingNetwork.counts_of_rests inv rests side.other
      obtain ⟨left, hleft⟩ : ∃ left, (s.ring side.other).free = left + 1 :=
        Nat.exists_eq_succ_of_ne_zero (by omega)
      exact ⟨_, _, .takeFree party (rests side).2 (.takeFree (rests side.other).1 hleft)⟩
  | @recv side slot rest item items party inbox fit =>
      obtain ⟨havailable, _⟩ := RingNetwork.counts_of_rests inv rests side
      rw [inbox, List.length_cons] at havailable
      exact ⟨_, _, .takeAvailable party (rests side.other).1
        (.takeAvailable (rests side).2 havailable)⟩

/-- Both parties are done, and the rings are as they were when they were empty. -/
structure RingNetwork.Finished (capacity : Nat) (s : RingNetwork α β ρ) (a : ρ .left)
    (b : ρ .right) : Prop where
  left : s.party .left = .done a
  right : s.party .right = .done b
  rests : s.Rests
  drained : ∀ side, (s.ring side).free = capacity ∧ (s.ring side).available = 0

theorem RingNetwork.Finished.weight {a : ρ .left} {b : ρ .right}
    (finished : s.Finished capacity a b) : s.weight = 4 := by
  obtain ⟨hwriter, hreader⟩ := finished.rests .left
  obtain ⟨hwriter', hreader'⟩ := finished.rests .right
  simp [RingNetwork.weight, Buffer.weight, hwriter, hreader, hwriter', hreader']

theorem RingNetwork.finished_of_rests {a : ρ .left} {b : ρ .right} (inv : s.Inv capacity)
    (rests : s.Rests) (h : s.toNetwork = Network.start (.done a) (.done b)) :
    s.Finished capacity a b where
  left := congrFun (congrArg Network.party h) .left
  right := congrFun (congrArg Network.party h) .right
  rests := rests
  drained := by
    intro side
    have hcounts := RingNetwork.counts_of_rests inv rests side
    have hempty : s.toNetwork.inbox side = [] := by
      rw [h]
      rfl
    rw [hempty] at hcounts
    exact ⟨hcounts.2, hcounts.1⟩

/-- Where the network behind the rings can finish, the parties do. -/
theorem RingNetwork.finish {a : ρ .left} {b : ρ .right} (inv : s.Inv capacity)
    {rest : List (NetworkEvent α β × Network α β ρ)}
    (run : Run (NetworkStep capacity fits) s.toNetwork rest
      (Network.start (.done a) (.done b))) :
    ∃ trace t, Run (RingNetworkStep capacity) s trace t ∧ t.Finished capacity a b := by
  -- what is left to do decreases with every step
  generalize hleft : 4 * rest.length + s.weight = left
  induction left using Nat.strong_induction_on generalizing s rest with
  | _ left ih =>
      have hgoes : (∃ event t, RingNetworkStep capacity s event t) →
          ∃ trace t, Run (RingNetworkStep capacity) s trace t ∧ t.Finished capacity a b := by
        rintro ⟨event, next, step⟩
        have hnext : ∃ rest', Run (NetworkStep capacity fits) next.toNetwork rest'
            (Network.start (.done a) (.done b)) ∧
            4 * rest'.length + next.weight + 1 = left := by
          rcases step.toNetwork inv with ⟨hsame, hweight⟩ | ⟨seen, hstep, hweight⟩
          · exact ⟨rest, hsame ▸ run, by omega⟩
          · obtain ⟨rest', hrun, hperm⟩ := run.put_first commutes_networkStep
              (final_done a b) (hstep.step_fits run)
            have hlength := hperm.length_eq
            rw [List.length_cons, length_events, length_events] at hlength
            exact ⟨rest', hrun, by omega⟩
        obtain ⟨rest', hrun, hless⟩ := hnext
        obtain ⟨trace, t, htrace, finished⟩ := ih _ (by omega) (step.inv inv) hrun rfl
        exact ⟨_, t, .cons step htrace, finished⟩
      by_cases rests : s.Rests
      · cases rest with
        | nil => exact ⟨[], s, .nil s, RingNetwork.finished_of_rests inv rests run.eq_of_nil⟩
        | cons _ _ => exact hgoes (RingNetwork.exists_step_of_rests inv rests run.head)
      · exact hgoes (RingNetwork.exists_step_of_busy inv rests)

/-- **Two parties that can meet get through over rings.**  However the steps on the
rings are interleaved, every run goes on until both parties are done with the
results of the meeting and the rings are drained, and all of them have the same
number of steps. -/
theorem Meets.ring_completed {left : Party α β (ρ .left)} {right : Party α β (ρ .right)}
    {a : ρ .left} {b : ρ .right} (hcapacity : 0 < capacity)
    (meets : Meets fits left right a b) :
    ∃ length, ∀ (slots : Side → Nat → α)
      {first : List ((Side × BufferEvent α) × RingNetwork α β ρ)} {s : RingNetwork α β ρ},
      Run (RingNetworkStep capacity) (RingNetwork.start capacity slots left right) first s →
        ∃ rest t, Run (RingNetworkStep capacity) s rest t ∧ t.Finished capacity a b ∧
          first.length + rest.length = 4 * length := by
  obtain ⟨length, hcompleted⟩ := meets.completed hcapacity
  refine ⟨length, fun slots first s begun => ?_⟩
  have hstart : (RingNetwork.start capacity slots left right).toNetwork =
      Network.start left right := rfl
  have hweight : (RingNetwork.start capacity slots left right).weight = 4 := rfl
  have inv := RingNetwork.inv_start capacity slots left right
  obtain ⟨hs, seen, hseen, _⟩ := RingNetwork.run_toNetwork inv begun
  rw [hstart] at hseen
  obtain ⟨_, left_over, hleft_over, _⟩ := hcompleted hseen
  obtain ⟨rest, t, hrest, finished⟩ := RingNetwork.finish hs hleft_over
  refine ⟨rest, t, hrest, finished, ?_⟩
  obtain ⟨_, whole, hwhole, hlength⟩ := RingNetwork.run_toNetwork inv (begun.append hrest)
  rw [hstart] at hwhole
  obtain ⟨_, nothing, hnothing, htotal⟩ := hcompleted hwhole
  have hempty : nothing = [] := by
    refine hnothing.nil_of_final (final_of_done fun side => ?_)
    cases side with
    | left => exact ⟨a, finished.left⟩
    | right => exact ⟨b, finished.right⟩
  rw [List.length_append, finished.weight, hweight] at hlength
  rw [hempty, List.length_nil] at htotal
  omega

end RingNetwork

end AirTraffic.Foundation
