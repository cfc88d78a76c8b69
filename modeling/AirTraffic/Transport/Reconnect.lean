/-
  Transport/Reconnect.lean --- connection after connection on one port.

  WHAT THIS FILE IS FOR.  The semaphores and the zone of a shared-memory
  connection have names made from its port, and live until they are unlinked.
  `_shm_connect` opens them, `_shm_close` closes the semaphores and unlinks the
  zone under a name it does not have.  So a connection on a port starts from what
  the last one on this port left (`starts_clean_iff`).
-/
import AirTraffic.Transport.Shmem

set_option autoImplicit false

namespace AirTraffic.Transport

open AirTraffic.Foundation

/-! ## Named objects -/

/-- The four semaphores of a port. -/
structure Locks (τ : Type) where
  availableSrv : τ
  freeSrv : τ
  availableCli : τ
  freeCli : τ
  deriving DecidableEq

/-- The two halves of a zone. -/
structure Zone where
  srv : Nat → UInt8
  cli : Nat → UInt8

/-- A name of a shared memory object. -/
inductive ShmName where
  /-- `SHM_CONNECT_ADDR` with the port put into it. -/
  | socket
  /-- `SHM_CONNECT_ADDR` as it stands. -/
  | format
  deriving DecidableEq

/-- The objects with names of one port, as far as they exist. -/
structure Objects where
  locks : Locks (Option Nat)
  shm : ShmName → Option Zone

/-- `sem_open` with `O_CREAT`: the value of the semaphore. -/
def semOpen (sem : Option Nat) (value : Nat) : Nat := sem.getD value

/-- `_shm_setup_locks` -/
def shmSetupLocks (locks : Locks (Option Nat)) : Locks Nat where
  availableSrv := semOpen locks.availableSrv 0
  freeSrv := semOpen locks.freeSrv zoneSize
  availableCli := semOpen locks.availableCli 0
  freeCli := semOpen locks.freeCli zoneSize

/-- A connection: the half the server writes and the half the client writes. -/
structure Session where
  toClient : Ring
  toServer : Ring

/-- A ring between two addresses that were just connected. -/
def connectRing (free available : Nat) (zone : Nat → UInt8) : Ring where
  free := free
  available := available
  zone := zone
  sender := { wr := 0, done := [], call := none }
  receiver := { rd := 0, done := [], call := none }

/-- `_shm_connect` in the server, and in the client, which finds all names in
place. -/
def shmConnect (objects : Objects) : Session :=
  let zone := (objects.shm .socket).getD { srv := fun _ => 0, cli := fun _ => 0 }
  let locks := shmSetupLocks objects.locks
  { toClient := connectRing locks.freeSrv locks.availableSrv zone.srv
    toServer := connectRing locks.freeCli locks.availableCli zone.cli }

/-- What a connection leaves: the values its semaphores have and its zone. -/
def Session.leave (session : Session) (objects : Objects) : Objects where
  locks :=
    { availableSrv := some session.toClient.available
      freeSrv := some session.toClient.free
      availableCli := some session.toServer.available
      freeCli := some session.toServer.free }
  shm := Function.update objects.shm .socket
    (some { srv := session.toClient.zone, cli := session.toServer.zone })

/-- `_shm_close`; `sem_close` leaves the semaphores as they are. -/
def shmClose (objects : Objects) : Objects :=
  { objects with shm := Function.update objects.shm .format none }

/-! ## Histories -/

inductive Port where
  | idle (objects : Objects)
  | connected (objects : Objects) (session : Session)

inductive PortEvent where
  | connect
  | toClient (e : RingEvent)
  | toServer (e : RingEvent)
  /-- `transport_close`, which a signal may call in the middle of a message. -/
  | close
  /-- The processes are gone. -/
  | abandon

inductive PortStep : Port → PortEvent → Port → Prop
  | connect (objects : Objects) :
      PortStep (.idle objects) .connect (.connected objects (shmConnect objects))
  | toClient {objects : Objects} {session : Session} {e : RingEvent} {ring : Ring}
      (step : RingStep session.toClient e ring) :
      PortStep (.connected objects session) (.toClient e)
        (.connected objects { session with toClient := ring })
  | toServer {objects : Objects} {session : Session} {e : RingEvent} {ring : Ring}
      (step : RingStep session.toServer e ring) :
      PortStep (.connected objects session) (.toServer e)
        (.connected objects { session with toServer := ring })
  | close (objects : Objects) (session : Session) :
      PortStep (.connected objects session) .close (.idle (shmClose (session.leave objects)))
  | abandon (objects : Objects) (session : Session) :
      PortStep (.connected objects session) .abandon (.idle (session.leave objects))

/-- A port on which there was no connection yet. -/
def Port.unused : Port :=
  .idle
    { locks := { availableSrv := none, freeSrv := none, availableCli := none, freeCli := none }
      shm := fun _ => none }

/-- `available = 0`, `free = ZONE_SIZE` and `rd = wr = 0` -/
structure Ring.Clean (r : Ring) : Prop where
  available : r.available = 0
  free : r.free = zoneSize
  rd : r.receiver.rd = 0
  wr : r.sender.wr = 0

/-- A connection that is set up now starts clean, and on one that was set up the
bytes received are the first ones sent. -/
def StartsClean : Port → Prop
  | .idle objects => (shmConnect objects).toClient.Clean ∧ (shmConnect objects).toServer.Clean
  | .connected _ session =>
      session.toClient.receiver.received <+: session.toClient.sender.passed ∧
        session.toServer.receiver.received <+: session.toServer.sender.passed

/-- Every byte written was received, and no side is between its `sem_wait` and
its `sem_post`. -/
structure Ring.Settled (r : Ring) : Prop where
  received : r.receiver.received = r.sender.written
  sender : r.sender.phase = .resting
  receiver : r.receiver.phase = .resting

/-- A connection that is closed or abandoned is settled in both directions. -/
def EndsSettled : Port → PortEvent → Prop
  | .connected _ session, .close => session.toClient.Settled ∧ session.toServer.Settled
  | .connected _ session, .abandon => session.toClient.Settled ∧ session.toServer.Settled
  | _, _ => True

/-- What a port keeps while connections end settled. -/
def Port.Inv : Port → Prop
  | .idle objects => (shmConnect objects).toClient.Clean ∧ (shmConnect objects).toServer.Clean
  | .connected _ session =>
      BufferInv zoneSize session.toClient.toBuffer ∧ BufferInv zoneSize session.toServer.toBuffer

/-- A clean connection begins with an empty buffer. -/
theorem bufferInv_of_clean {free available : Nat} {zone : Nat → UInt8}
    (clean : (connectRing free available zone).Clean) :
    BufferInv zoneSize (connectRing free available zone).toBuffer := by
  obtain rfl : free = zoneSize := clean.free
  obtain rfl : available = 0 := clean.available
  exact BufferInv.empty zoneSize zone

/-- The next connection on a ring is clean exactly if this one is settled. -/
theorem clean_iff_settled {r : Ring} (inv : BufferInv zoneSize r.toBuffer)
    (zone : Nat → UInt8) : (connectRing r.free r.available zone).Clean ↔ r.Settled := by
  have hopen := inv.open_iff_settled
  constructor
  · intro clean
    obtain ⟨hreceived, hsender, hreceiver⟩ := hopen.mp ⟨clean.free, clean.available⟩
    exact ⟨hreceived, hsender, hreceiver⟩
  · intro settled
    obtain ⟨hfree, havailable⟩ :=
      hopen.mpr ⟨settled.received, settled.sender, settled.receiver⟩
    exact ⟨havailable, hfree, rfl, rfl⟩

/-- What a connection leaves, whether its zone is unlinked or not. -/
theorem startsClean_leave {session : Session} {objects left : Objects}
    (inv : (Port.connected objects session).Inv)
    (hlocks : left.locks = (session.leave objects).locks) :
    StartsClean (.idle left) ↔ session.toClient.Settled ∧ session.toServer.Settled := by
  have hclient := clean_iff_settled inv.1
  have hserver := clean_iff_settled inv.2
  rw [StartsClean, shmConnect, hlocks]
  exact and_congr (hclient _) (hserver _)

/-- One step. -/
theorem startsClean_iff {s t : Port} {e : PortEvent} (inv : s.Inv) (step : PortStep s e t) :
    (StartsClean t ↔ EndsSettled s e) ∧ (EndsSettled s e → t.Inv) := by
  cases step with
  | connect objects =>
      refine ⟨iff_of_true ⟨List.prefix_refl _, List.prefix_refl _⟩ trivial, fun _ => ?_⟩
      exact ⟨bufferInv_of_clean inv.1, bufferInv_of_clean inv.2⟩
  | toClient step =>
      have hring := step.bufferInv inv.1
      exact ⟨iff_of_true ⟨(fifo_of_bufferInv hring).order, (fifo_of_bufferInv inv.2).order⟩
        trivial, fun _ => ⟨hring, inv.2⟩⟩
  | toServer step =>
      have hring := step.bufferInv inv.2
      exact ⟨iff_of_true ⟨(fifo_of_bufferInv inv.1).order, (fifo_of_bufferInv hring).order⟩
        trivial, fun _ => ⟨inv.1, hring⟩⟩
  | close objects session =>
      have hlocks : (shmClose (session.leave objects)).locks = (session.leave objects).locks := rfl
      have hiff := startsClean_leave inv hlocks
      exact ⟨hiff, hiff.mpr⟩
  | abandon objects session =>
      have hlocks : (session.leave objects).locks = (session.leave objects).locks := rfl
      have hiff := startsClean_leave inv hlocks
      exact ⟨hiff, hiff.mpr⟩

/-- **When connections on a port start clean.**  Throughout a history they do
exactly if every connection ended with all written bytes received, and with no
side between its two semaphores. -/
theorem starts_clean_iff {trace : List (PortEvent × Port)} {t : Port}
    (run : Run PortStep Port.unused trace t) :
    (∀ v ∈ states Port.unused trace, StartsClean v) ↔
      Run (Guarded PortStep EndsSettled) Port.unused trace t :=
  run.forall_states_iff Port.Inv StartsClean EndsSettled
    (fun _ _ _ inv step guard => (startsClean_iff inv step).2 guard)
    (fun _ _ _ inv _ step => (startsClean_iff inv step).1)
    ⟨⟨rfl, rfl, rfl, rfl⟩, ⟨rfl, rfl, rfl, rfl⟩⟩ ⟨⟨rfl, rfl, rfl, rfl⟩, ⟨rfl, rfl, rfl, rfl⟩⟩

/-- The client puts a byte into the zone and is gone. -/
def leftoverEvents : List PortEvent :=
  [.connect, .toServer (.beginSend [7]), .toServer .send, .toServer .send, .toServer .send,
    .toServer .send, .abandon]

/-- The next connection has a byte before any was sent. -/
theorem exists_leftover : ∃ (trace : List (PortEvent × Port)) (objects : Objects),
    Run PortStep Port.unused trace (.idle objects) ∧ trace.map Prod.fst = leftoverEvents ∧
      (shmConnect objects).toServer.available = 1 :=
  ⟨_, _, .cons (.connect _) (.cons (.toServer (.beginSend [7] rfl))
    (.cons (.toServer (.sendWait rfl rfl (by decide) rfl)) (.cons (.toServer (.sendCopy rfl rfl))
      (.cons (.toServer (.sendIndex rfl rfl)) (.cons (.toServer (.sendPost rfl rfl))
        (.cons (.abandon _ _) (.nil _))))))), rfl, rfl⟩

theorem starts_clean_iff_leftover : ∃ (trace : List (PortEvent × Port)) (t : Port),
    trace.map Prod.fst = leftoverEvents ∧
      ((∀ v ∈ states Port.unused trace, StartsClean v) ↔
        Run (Guarded PortStep EndsSettled) Port.unused trace t) := by
  obtain ⟨trace, objects, run, hevents, _⟩ := exists_leftover
  exact ⟨trace, .idle objects, hevents, starts_clean_iff run⟩

theorem leftover_starts_unclean :
    ¬ ∀ (trace : List (PortEvent × Port)) (t : Port), Run PortStep Port.unused trace t →
      ∀ v ∈ states Port.unused trace, StartsClean v := by
  intro hclean
  obtain ⟨trace, objects, run, _, havailable⟩ := exists_leftover
  have hstart := hclean trace _ run _ run.mem_states
  exact absurd (havailable.symm.trans hstart.2.available) (by decide)

end AirTraffic.Transport
