/-
  Transport/Shmem.lean --- one direction of a shared-memory connection.

  WHAT THIS FILE IS FOR.  `transport_send` on one side and `transport_recv` on
  the other move bytes through a ring of `ZONE_SIZE` slots, one byte at a time,
  between two semaphores; `wr` is in the address of the one and `rd` in that of
  the other.  The steps of the two loops interleave, and calls of any sizes
  follow each other.  A ring does what a `Buffer` does (`RingStep.toBuffer`),
  and so it is a FIFO (`ring_fifo`).
-/
import AirTraffic.Foundation.BoundedBuffer
import AirTraffic.Foundation.Region

set_option autoImplicit false

namespace AirTraffic.Transport

open AirTraffic.Foundation

/-- `ZONE_SIZE` -/
def zoneSize : Nat := 32

/-! ## Calls -/

/-- The next statement of a loop. -/
inductive Point where
  /-- The test of the loop and `sem_wait`. -/
  | wait
  | copy
  /-- The index and `bytes += 1`. -/
  | index
  | post
  deriving DecidableEq

namespace Point

/-- How far a side is with a byte at this point. -/
def phase : Point → Phase
  | wait => .resting
  | copy => .holding
  | index => .copied
  | post => .advanced

/-- The bytes that are under way and not counted in `bytes`. -/
def ahead : Point → Nat
  | copy => 1
  | index => 1
  | _ => 0

/-- The bytes that are copied and not counted in `bytes`. -/
def copied : Point → Nat
  | index => 1
  | _ => 0

end Point

/-- `transport_send` on its way: its buffer, whose length is `size`, and its
variable `bytes`. -/
structure SendCall where
  buffer : Bytes
  bytes : Nat
  point : Point
  inside : bytes + point.ahead ≤ buffer.length

/-- `transport_recv` on its way. -/
structure RecvCall where
  size : Nat
  buffer : Bytes
  bytes : Nat
  point : Point
  fits : size ≤ buffer.length
  inside : bytes + point.ahead ≤ size

namespace SendCall

/-- `sem_wait(free)` returned. -/
def waited (c : SendCall) (more : c.bytes < c.buffer.length) : SendCall :=
  { c with point := .copy, inside := more }

/-- `base_offset[wr] = buffer[bytes]` -/
def copied (c : SendCall) (point : c.point = .copy) : SendCall :=
  { c with
    point := .index
    inside := by
      have := c.inside
      rwa [point] at this }

/-- `bytes += 1` -/
def indexed (c : SendCall) (point : c.point = .index) : SendCall :=
  { c with
    bytes := c.bytes + 1
    point := .post
    inside := by
      have := c.inside
      rwa [point] at this }

/-- `sem_post(available)` returned. -/
def posted (c : SendCall) : SendCall :=
  { c with point := .wait, inside := Nat.le_of_add_right_le c.inside }

end SendCall

namespace RecvCall

/-- `sem_wait(available)` returned. -/
def waited (c : RecvCall) (more : c.bytes < c.size) : RecvCall :=
  { c with point := .copy, inside := more }

/-- `buffer[bytes] = base_offset[rd]` -/
def copied (c : RecvCall) (byte : UInt8) (point : c.point = .copy) : RecvCall :=
  { c with
    buffer := writeAt c.buffer c.bytes [byte]
    point := .index
    fits := by
      rw [length_writeAt]
      exact Nat.le_trans c.fits (Nat.le_max_left _ _)
    inside := by
      have := c.inside
      rwa [point] at this }

/-- `bytes += 1` -/
def indexed (c : RecvCall) (point : c.point = .index) : RecvCall :=
  { c with
    bytes := c.bytes + 1
    point := .post
    inside := by
      have := c.inside
      rwa [point] at this }

/-- `sem_post(free)` returned. -/
def posted (c : RecvCall) : RecvCall :=
  { c with point := .wait, inside := Nat.le_of_add_right_le c.inside }

end RecvCall

/-- The side that sends: its index, the bytes of the calls that returned, and the
call it is in. -/
structure Sender where
  wr : Nat
  done : Bytes
  call : Option SendCall

/-- The side that receives. -/
structure Receiver where
  rd : Nat
  done : Bytes
  call : Option RecvCall

/-- The bytes of all calls of `transport_send`. -/
def Sender.passed (s : Sender) : Bytes :=
  match s.call with
  | none => s.done
  | some c => s.done ++ c.buffer

/-- The bytes that were copied to the zone. -/
def Sender.written (s : Sender) : Bytes :=
  match s.call with
  | none => s.done
  | some c => s.done ++ c.buffer.take (c.bytes + c.point.copied)

def Sender.phase (s : Sender) : Phase :=
  match s.call with
  | none => .resting
  | some c => c.point.phase

/-- The sender has bytes to send, or one under way. -/
def Sender.HasMore (s : Sender) : Prop :=
  ∃ c, s.call = some c ∧ (c.point = .wait → c.bytes < c.buffer.length)

/-- The bytes that the buffers of all calls of `transport_recv` got. -/
def Receiver.received (r : Receiver) : Bytes :=
  match r.call with
  | none => r.done
  | some c => r.done ++ c.buffer.take (c.bytes + c.point.copied)

def Receiver.phase (r : Receiver) : Phase :=
  match r.call with
  | none => .resting
  | some c => c.point.phase

/-- The receiver has bytes to receive, or one under way. -/
def Receiver.HasMore (r : Receiver) : Prop :=
  ∃ c, r.call = some c ∧ (c.point = .wait → c.bytes < c.size)

/-! ## The ring -/

/-- A half of the zone with its two semaphores and its two sides. -/
structure Ring where
  free : Nat
  available : Nat
  zone : Nat → UInt8
  sender : Sender
  receiver : Receiver

inductive RingEvent where
  | beginSend (buffer : Bytes)
  | beginRecv (size : Nat) (buffer : Bytes)
  | send
  | recv

/-- One step of one side. -/
inductive RingStep : Ring → RingEvent → Ring → Prop
  | beginSend {s : Ring} (buffer : Bytes) (idle : s.sender.call = none) :
      RingStep s (.beginSend buffer)
        { s with sender.call := some ⟨buffer, 0, .wait, Nat.zero_le _⟩ }
  | sendWait {s : Ring} {c : SendCall} {left : Nat} (call : s.sender.call = some c)
      (point : c.point = .wait) (more : c.bytes < c.buffer.length) (free : s.free = left + 1) :
      RingStep s .send { s with free := left, sender.call := some (c.waited more) }
  | sendCopy {s : Ring} {c : SendCall} (call : s.sender.call = some c)
      (point : c.point = .copy) :
      RingStep s .send
        { s with
          zone := Function.update s.zone s.sender.wr (c.buffer.getD c.bytes 0)
          sender.call := some (c.copied point) }
  | sendIndex {s : Ring} {c : SendCall} (call : s.sender.call = some c)
      (point : c.point = .index) :
      RingStep s .send
        { s with
          sender.wr := (s.sender.wr + 1) % zoneSize
          sender.call := some (c.indexed point) }
  | sendPost {s : Ring} {c : SendCall} (call : s.sender.call = some c)
      (point : c.point = .post) :
      RingStep s .send
        { s with available := s.available + 1, sender.call := some c.posted }
  | sendReturn {s : Ring} {c : SendCall} (call : s.sender.call = some c)
      (point : c.point = .wait) (all : ¬ c.bytes < c.buffer.length) :
      RingStep s .send
        { s with sender.done := s.sender.done ++ c.buffer, sender.call := none }
  | beginRecv {s : Ring} {size : Nat} {buffer : Bytes} (fits : size ≤ buffer.length)
      (idle : s.receiver.call = none) :
      RingStep s (.beginRecv size buffer)
        { s with receiver.call := some ⟨size, buffer, 0, .wait, fits, Nat.zero_le _⟩ }
  | recvWait {s : Ring} {c : RecvCall} {left : Nat} (call : s.receiver.call = some c)
      (point : c.point = .wait) (more : c.bytes < c.size) (available : s.available = left + 1) :
      RingStep s .recv { s with available := left, receiver.call := some (c.waited more) }
  | recvCopy {s : Ring} {c : RecvCall} (call : s.receiver.call = some c)
      (point : c.point = .copy) :
      RingStep s .recv
        { s with receiver.call := some (c.copied (s.zone s.receiver.rd) point) }
  | recvIndex {s : Ring} {c : RecvCall} (call : s.receiver.call = some c)
      (point : c.point = .index) :
      RingStep s .recv
        { s with
          receiver.rd := (s.receiver.rd + 1) % zoneSize
          receiver.call := some (c.indexed point) }
  | recvPost {s : Ring} {c : RecvCall} (call : s.receiver.call = some c)
      (point : c.point = .post) :
      RingStep s .recv { s with free := s.free + 1, receiver.call := some c.posted }
  | recvReturn {s : Ring} {c : RecvCall} (call : s.receiver.call = some c)
      (point : c.point = .wait) (all : ¬ c.bytes < c.size) :
      RingStep s .recv
        { s with
          receiver.done := s.receiver.done ++ c.buffer.take c.bytes
          receiver.call := none }

/-- `available = 0`, `free = ZONE_SIZE` and `rd = wr = 0`, on a zone that holds
anything. -/
def Ring.clean (zone : Nat → UInt8) : Ring where
  free := zoneSize
  available := 0
  zone := zone
  sender := { wr := 0, done := [], call := none }
  receiver := { rd := 0, done := [], call := none }

/-! ## The ring is a buffer -/

/-- The buffer that a ring is. -/
def Ring.toBuffer (r : Ring) : Buffer UInt8 where
  free := r.free
  available := r.available
  slots := r.zone
  wr := r.sender.wr
  rd := r.receiver.rd
  writer := r.sender.phase
  reader := r.receiver.phase
  written := r.sender.written
  read := r.receiver.received

theorem take_succ_getD {data : Bytes} {n : Nat} (h : n < data.length) :
    data.take (n + 1) = data.take n ++ [data.getD n 0] := by
  rw [List.take_succ_eq_append_getElem h, List.getD_eq_getElem?_getD, List.getElem?_eq_getElem h,
    Option.getD_some]

theorem take_succ_writeAt {region : Bytes} {n : Nat} (h : n < region.length) (byte : UInt8) :
    (writeAt region n [byte]).take (n + 1) = region.take n ++ [byte] := by
  have hhole : zeros (n - region.length) = [] := by
    rw [Nat.sub_eq_zero_of_le (Nat.le_of_lt h)]
    rfl
  have hlength : (region.take n ++ [byte]).length = n + 1 := by
    rw [List.length_append, List.length_take, Nat.min_eq_left (Nat.le_of_lt h)]
    rfl
  rw [writeAt, hhole, List.append_nil, ← hlength, List.take_left']
  rfl

theorem Sender.phase_of_call {s : Sender} {c : SendCall} {point : Point}
    (call : s.call = some c) (h : c.point = point) : s.phase = point.phase := by
  simp only [phase, call, h]

theorem Receiver.phase_of_call {r : Receiver} {c : RecvCall} {point : Point}
    (call : r.call = some c) (h : c.point = point) : r.phase = point.phase := by
  simp only [phase, call, h]

theorem refines_of_eq {b c next : Buffer UInt8} {e : BufferEvent UInt8}
    (step : BufferStep zoneSize b e next) (h : c = next) :
    c = b ∨ ∃ e', BufferStep zoneSize b e' c :=
  .inr ⟨e, h ▸ step⟩

/-- A step of the ring is a step of its buffer, or it begins or ends a call. -/
theorem RingStep.toBuffer {s t : Ring} {e : RingEvent} (step : RingStep s e t) :
    t.toBuffer = s.toBuffer ∨ ∃ e', BufferStep zoneSize s.toBuffer e' t.toBuffer := by
  cases step with
  | beginSend buffer idle =>
      left
      simp [Ring.toBuffer, Sender.phase, Sender.written, idle, Point.phase, Point.copied]
  | @sendWait c left call point more free =>
      have hphase := Sender.phase_of_call call point
      refine refines_of_eq (.takeFree (b := s.toBuffer) hphase free) ?_
      simp [Ring.toBuffer, Sender.phase, Sender.written, call, point, SendCall.waited,
        Point.phase, Point.copied]
  | @sendCopy c call point =>
      have hphase := Sender.phase_of_call call point
      have hlt := c.inside
      rw [point] at hlt
      refine refines_of_eq (.store (b := s.toBuffer) (c.buffer.getD c.bytes 0) hphase) ?_
      simp [Ring.toBuffer, Sender.phase, Sender.written, call, point, SendCall.copied,
        Point.phase, Point.copied, take_succ_getD hlt]
  | @sendIndex c call point =>
      have hphase := Sender.phase_of_call call point
      refine refines_of_eq (.advanceWr (b := s.toBuffer) hphase) ?_
      simp [Ring.toBuffer, Sender.phase, Sender.written, call, point, SendCall.indexed,
        Point.phase, Point.copied]
  | @sendPost c call point =>
      have hphase := Sender.phase_of_call call point
      refine refines_of_eq (.postAvailable (b := s.toBuffer) hphase) ?_
      simp [Ring.toBuffer, Sender.phase, Sender.written, call, point, SendCall.posted,
        Point.phase, Point.copied]
  | @sendReturn c call point all =>
      left
      have htake : c.buffer.take c.bytes = c.buffer :=
        List.take_of_length_le (Nat.le_of_not_lt all)
      simp [Ring.toBuffer, Sender.phase, Sender.written, call, point, Point.phase,
        Point.copied, htake]
  | beginRecv fits idle =>
      left
      simp [Ring.toBuffer, Receiver.phase, Receiver.received, idle, Point.phase, Point.copied]
  | @recvWait c left call point more available =>
      have hphase := Receiver.phase_of_call call point
      refine refines_of_eq (.takeAvailable (b := s.toBuffer) hphase available) ?_
      simp [Ring.toBuffer, Receiver.phase, Receiver.received, call, point, RecvCall.waited,
        Point.phase, Point.copied]
  | @recvCopy c call point =>
      have hphase := Receiver.phase_of_call call point
      have hlt := c.inside
      rw [point] at hlt
      have hinside : c.bytes < c.buffer.length := Nat.lt_of_lt_of_le hlt c.fits
      refine refines_of_eq (.load (b := s.toBuffer) hphase) ?_
      simp [Ring.toBuffer, Receiver.phase, Receiver.received, call, point, RecvCall.copied,
        Point.phase, Point.copied, take_succ_writeAt hinside]
  | @recvIndex c call point =>
      have hphase := Receiver.phase_of_call call point
      refine refines_of_eq (.advanceRd (b := s.toBuffer) hphase) ?_
      simp [Ring.toBuffer, Receiver.phase, Receiver.received, call, point, RecvCall.indexed,
        Point.phase, Point.copied]
  | @recvPost c call point =>
      have hphase := Receiver.phase_of_call call point
      refine refines_of_eq (.postFree (b := s.toBuffer) hphase) ?_
      simp [Ring.toBuffer, Receiver.phase, Receiver.received, call, point, RecvCall.posted,
        Point.phase, Point.copied]
  | @recvReturn c call point all =>
      left
      simp [Ring.toBuffer, Receiver.phase, Receiver.received, call, point, Point.phase,
        Point.copied]

/-- A step of the ring keeps the invariant of the buffer. -/
theorem RingStep.bufferInv {s t : Ring} {e : RingEvent} (step : RingStep s e t)
    (inv : BufferInv zoneSize s.toBuffer) : BufferInv zoneSize t.toBuffer := by
  rcases step.toBuffer with heq | ⟨e', hstep⟩
  · rwa [heq]
  · exact inv.step hstep

theorem bufferInv_of_reachable {zone : Nat → UInt8} {r : Ring}
    (h : Reachable RingStep (Ring.clean zone) r) : BufferInv zoneSize r.toBuffer :=
  h.invariant (fun r => BufferInv zoneSize r.toBuffer) (fun _ _ _ inv step => step.bufferInv inv)
    (BufferInv.empty zoneSize zone)

/-! ## The ring is a FIFO -/

/-- The written bytes are bytes passed to the sender. -/
theorem Sender.written_prefix (s : Sender) : s.written <+: s.passed := by
  rw [written, passed]
  split
  · exact List.prefix_refl _
  · exact List.prefix_append_right_inj _ |>.mpr (List.take_prefix _ _)

/-- A sender with bytes to send can go on, unless it has to wait for a free
slot. -/
theorem exists_send {r : Ring} (more : r.sender.HasMore)
    (hopen : r.sender.phase = .resting → 0 < r.free) : ∃ t, RingStep r .send t := by
  obtain ⟨c, call, hlt⟩ := more
  rw [Sender.phase_of_call call rfl] at hopen
  cases point : c.point with
  | wait =>
      rw [point] at hopen
      obtain ⟨left, hleft⟩ := Nat.exists_eq_succ_of_ne_zero (Nat.ne_of_gt (hopen rfl))
      exact ⟨_, .sendWait call point (hlt point) hleft⟩
  | copy => exact ⟨_, .sendCopy call point⟩
  | index => exact ⟨_, .sendIndex call point⟩
  | post => exact ⟨_, .sendPost call point⟩

/-- A receiver with bytes to receive can go on, unless it has to wait for an
available byte. -/
theorem exists_recv {r : Ring} (more : r.receiver.HasMore)
    (hopen : r.receiver.phase = .resting → 0 < r.available) : ∃ t, RingStep r .recv t := by
  obtain ⟨c, call, hlt⟩ := more
  rw [Receiver.phase_of_call call rfl] at hopen
  cases point : c.point with
  | wait =>
      rw [point] at hopen
      obtain ⟨left, hleft⟩ := Nat.exists_eq_succ_of_ne_zero (Nat.ne_of_gt (hopen rfl))
      exact ⟨_, .recvWait call point (hlt point) hleft⟩
  | copy => exact ⟨_, .recvCopy call point⟩
  | index => exact ⟨_, .recvIndex call point⟩
  | post => exact ⟨_, .recvPost call point⟩

/-- What holds of a ring at any moment. -/
structure Fifo (r : Ring) : Prop where
  /-- The bytes received are the first ones sent. -/
  order : r.receiver.received <+: r.sender.passed
  /-- A byte that was written and not received is in its slot. -/
  kept : ∀ k, r.receiver.received.length ≤ k → k < r.sender.written.length →
    r.sender.written[k]? = some (r.zone (k % zoneSize))
  /-- The slot that a byte is about to be written to is none of these. -/
  apart : r.sender.phase = .holding → ∀ k, r.receiver.received.length ≤ k →
    k < r.sender.written.length → k % zoneSize ≠ r.sender.wr
  bounded : r.free + r.available ≤ zoneSize
  /-- One of two sides that have bytes to move can take a step. -/
  progress : r.sender.HasMore → r.receiver.HasMore →
    (∃ t, RingStep r .send t) ∨ ∃ t, RingStep r .recv t

theorem fifo_of_bufferInv {r : Ring} (inv : BufferInv zoneSize r.toBuffer) : Fifo r where
  order := inv.order.trans r.sender.written_prefix
  kept := inv.slots
  apart := fun phase _ hread hwritten => inv.wr_ne_unread phase hread hwritten
  bounded := inv.free_add_available_le
  progress := by
    intro hsend hrecv
    by_cases hwriter : r.sender.phase = .resting
    · by_cases hreader : r.receiver.phase = .resting
      · rcases inv.exists_open (by decide) hwriter hreader with hfree | havailable
        · exact .inl (exists_send hsend fun _ => hfree)
        · exact .inr (exists_recv hrecv fun _ => havailable)
      · exact .inr (exists_recv hrecv fun h => absurd h hreader)
    · exact .inl (exists_send hsend fun h => absurd h hwriter)

/-- **The ring is a FIFO.**  Calls of any sizes on both sides, in any
interleaving, neither lose nor repeat nor overwrite a byte, and do not get
stuck. -/
theorem ring_fifo {zone : Nat → UInt8} {r : Ring}
    (h : Reachable RingStep (Ring.clean zone) r) : Fifo r :=
  fifo_of_bufferInv (bufferInv_of_reachable h)

/-! ## One call to another -/

/-- The bytes of one call go to one call: so many are sent, and so many received. -/
structure Moves (data : Bytes) (sent got : Nat) (r : Ring) : Prop where
  free : r.free + sent = zoneSize + got
  available : r.available + got = sent
  sender : ∃ inside,
    r.sender = { wr := sent % zoneSize, done := [], call := some ⟨data, sent, .wait, inside⟩ }
  receiver : ∃ buffer fits inside,
    r.receiver =
      { rd := got % zoneSize
        done := []
        call := some ⟨data.length, buffer, got, .wait, fits, inside⟩ }

section Moves

variable {data : Bytes} {sent got : Nat} {r : Ring} {zone : Nat → UInt8}

theorem exists_moves_start :
    ∃ r, Reachable RingStep (Ring.clean zone) r ∧ Moves data 0 0 r := by
  have hfits : data.length ≤ (zeros data.length).length := Nat.le_of_eq (length_zeros _).symm
  exact ⟨_, ⟨_, .cons (.beginSend data rfl) (.cons (.beginRecv hfits rfl) (.nil _))⟩, rfl, rfl,
    ⟨_, rfl⟩, ⟨_, _, _, rfl⟩⟩

/-- The next byte is sent, if the ring is not full. -/
theorem Moves.send (moves : Moves data sent got r) (more : sent < data.length)
    (room : sent < zoneSize + got) :
    ∃ trace t, Run RingStep r trace t ∧ Moves data (sent + 1) got t := by
  obtain ⟨inside, hsender⟩ := moves.sender
  have hfree := moves.free
  have havailable := moves.available
  obtain ⟨left, hleft⟩ : ∃ left, r.free = left + 1 := Nat.exists_eq_add_one.mpr (by omega)
  have hcall := congrArg Sender.call hsender
  refine ⟨_, _, .cons (.sendWait hcall rfl more hleft) (.cons (.sendCopy rfl rfl)
    (.cons (.sendIndex rfl rfl) (.cons (.sendPost rfl rfl) (.nil _)))), ?_, ?_, ?_,
    moves.receiver⟩
  · dsimp only
    omega
  · dsimp only
    omega
  · refine ⟨more, ?_⟩
    simp only [hsender, SendCall.waited, SendCall.copied, SendCall.indexed, SendCall.posted,
      Nat.mod_add_mod]

/-- The next byte that is there is received. -/
theorem Moves.recv (moves : Moves data sent got r) (more : got < data.length)
    (there : got < sent) : ∃ trace t, Run RingStep r trace t ∧ Moves data sent (got + 1) t := by
  obtain ⟨buffer, fits, inside, hreceiver⟩ := moves.receiver
  have hfree := moves.free
  have havailable := moves.available
  obtain ⟨left, hleft⟩ : ∃ left, r.available = left + 1 := Nat.exists_eq_add_one.mpr (by omega)
  have hcall := congrArg Receiver.call hreceiver
  refine ⟨_, _, .cons (.recvWait hcall rfl more hleft) (.cons (.recvCopy rfl rfl)
    (.cons (.recvIndex rfl rfl) (.cons (.recvPost rfl rfl) (.nil _)))), ?_, ?_, moves.sender, ?_⟩
  · dsimp only
    omega
  · dsimp only
    omega
  · have hfits : data.length ≤ (writeAt buffer got [r.zone (got % zoneSize)]).length := by
      rw [length_writeAt]
      exact Nat.le_trans fits (Nat.le_max_left _ _)
    refine ⟨_, hfits, more, ?_⟩
    simp only [hreceiver, RecvCall.waited, RecvCall.copied, RecvCall.indexed, RecvCall.posted,
      Nat.mod_add_mod]

/-- The ring can come to hold any of the bytes that are next to each other. -/
theorem exists_moves (hgot : got ≤ sent) (hsent : sent ≤ data.length)
    (room : sent ≤ zoneSize + got) :
    ∃ r, Reachable RingStep (Ring.clean zone) r ∧ Moves data sent got r := by
  induction sent generalizing got with
  | zero =>
      obtain rfl : got = 0 := Nat.le_zero.mp hgot
      exact exists_moves_start
  | succ sent ih =>
      have hbefore : ∀ {got}, got ≤ sent → sent + 1 ≤ zoneSize + got →
          ∃ r, Reachable RingStep (Ring.clean zone) r ∧ Moves data (sent + 1) got r := by
        intro got hle room
        obtain ⟨r, ⟨_, run⟩, moves⟩ := ih hle (Nat.le_of_succ_le hsent) (Nat.le_of_succ_le room)
        obtain ⟨_, t, run', moves'⟩ := moves.send hsent room
        exact ⟨t, ⟨_, run.append run'⟩, moves'⟩
      rcases Nat.le_succ_iff.mp hgot with hle | rfl
      · exact hbefore hle room
      · -- The last byte is received when it has been sent.
        obtain ⟨r, ⟨_, run⟩, moves⟩ := hbefore (Nat.le_refl sent)
          (by rw [Nat.add_comm]; exact Nat.add_le_add_right (by decide) _)
        obtain ⟨_, t, run', moves'⟩ := moves.recv hsent (Nat.lt_succ_self sent)
        exact ⟨t, ⟨_, run.append run'⟩, moves'⟩

theorem Moves.written (moves : Moves data sent got r) : r.sender.written = data.take sent := by
  obtain ⟨inside, hsender⟩ := moves.sender
  rw [Sender.written, hsender]
  exact List.nil_append _

theorem Moves.length_received (moves : Moves data sent got r) (h : got ≤ data.length) :
    r.receiver.received.length = got := by
  obtain ⟨buffer, fits, inside, hreceiver⟩ := moves.receiver
  have hbuffer := Nat.le_trans h fits
  rw [Receiver.received, hreceiver]
  simp [Point.copied, hbuffer]

end Moves

/-- Forty bytes are sent, and the last eight are behind the end of the zone. -/
theorem ring_fifo_wrapped :
    ∃ r : Ring, r.sender.wr = 8 ∧ r.sender.written = (List.range 40).map UInt8.ofNat ∧
      r.receiver.received.length = 20 ∧ Fifo r := by
  obtain ⟨r, reached, moves⟩ := @exists_moves ((List.range 40).map UInt8.ofNat) 40 20
    (fun _ => 0) (by decide) (by decide) (by decide)
  obtain ⟨inside, hsender⟩ := moves.sender
  exact ⟨r, congrArg Sender.wr hsender, moves.written, moves.length_received (by decide),
    ring_fifo reached⟩

end AirTraffic.Transport
