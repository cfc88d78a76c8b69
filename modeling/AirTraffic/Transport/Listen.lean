/-
  Transport/Listen.lean --- how a client gets its channel.

  WHAT THIS FILE IS FOR.  `transport_accept` puts the port of a new channel into
  a cell that all processes share, posts `available` and waits for `free`;
  `transport_connect` takes a post of `available`, copies the port and posts
  `free`.  The two semaphores hand one turn around (`Turn`): whoever has it may
  use the cell.  But the server does not look at what its wait returned, and a
  signal ends the wait early.  Unless the turn was lost by then, the server goes
  on with a turn it does not have; as long as that does not happen every client
  gets a channel of its own (`connects_own_channel`).
-/
import AirTraffic.Foundation.CInt
import AirTraffic.Foundation.Transition
import Mathlib.Logic.Function.Basic

set_option autoImplicit false

namespace AirTraffic.Transport

open AirTraffic.Foundation

variable {κ : Type} [DecidableEq κ]

/-! ## The two calls -/

/-- Where `transport_accept` is. -/
inductive AcceptPoint where
  /-- Between two calls. -/
  | idle
  /-- Behind the `memcpy` to the cell. -/
  | written
  /-- Before `_shm_connect(worker)`, with `worker->conn.shmem.port`. -/
  | numbered (worker : Int32)
  /-- Before `sem_post(available)`. -/
  | ready (worker : Int32)
  /-- In `sem_wait(free)`. -/
  | waiting
  deriving DecidableEq

/-- The port of the channel that is being set up. -/
def AcceptPoint.workers : AcceptPoint → List Int32
  | numbered worker => [worker]
  | ready worker => [worker]
  | _ => []

/-- Where a call of `transport_connect` is.  `post` is the port of the worker
channel of the accept whose post it consumed, and `port` is what it copied. -/
inductive ConnectPoint where
  /-- Before `sem_open` and `_shm_open_listen`. -/
  | opening
  /-- Before `sem_trywait(available)`. -/
  | trying
  /-- Before the `memcpy` from the cell. -/
  | taken (post : Int32)
  /-- Before `_shm_close_listen`. -/
  | copied (post port : Int32)
  /-- Before `sem_post(free)`. -/
  | closed (post port : Int32)
  /-- Before `sem_close` and `_shm_connect`. -/
  | posted (post port : Int32)
  /-- It returned 0. -/
  | connected (post port : Int32)
  /-- It returned -1. -/
  | failed
  deriving DecidableEq

namespace ConnectPoint

/-- The post it consumed. -/
def post? : ConnectPoint → Option Int32
  | taken post => some post
  | copied post _ => some post
  | closed post _ => some post
  | posted post _ => some post
  | connected post _ => some post
  | _ => none

/-- The port it copied, behind the post it consumed. -/
def copied? : ConnectPoint → Option (Int32 × Int32)
  | copied post port => some (post, port)
  | closed post port => some (post, port)
  | posted post port => some (post, port)
  | connected post port => some (post, port)
  | _ => none

/-- It consumed a post and did not answer it. -/
def HasTurn : ConnectPoint → Prop
  | taken _ => True
  | copied _ _ => True
  | closed _ _ => True
  | _ => False

end ConnectPoint

/-- The listening address, what it shares, and the calls. -/
structure Listen (κ : Type) where
  /-- The posts that nobody consumed, oldest first, each as the port of its
  worker channel; the semaphore's value is their number. -/
  available : List Int32
  free : Nat
  /-- The cell. -/
  zone : Int32
  port : Int32
  accept : AcceptPoint
  connects : κ → ConnectPoint

/-- Behind `transport_listen`. -/
def Listen.start : Listen κ where
  available := []
  free := 0
  zone := 0
  port := 0
  accept := .idle
  connects := fun _ => .opening

/-- One call of `transport_connect` goes on. -/
def Listen.move (s : Listen κ) (c : κ) (point : ConnectPoint) : Listen κ :=
  { s with connects := Function.update s.connects c point }

/-- The ports that were written to the cell for a client that did not come yet. -/
def Listen.pending (s : Listen κ) : List Int32 := s.accept.workers ++ s.available

inductive ListenEvent (κ : Type) where
  /-- The `memcpy` to the cell. -/
  | write
  /-- `worker->port = port` and `port += 1`. -/
  | number
  /-- `_shm_connect(worker)`. -/
  | setUp (ok : Bool)
  | post
  /-- `sem_wait(free)` returns 0. -/
  | resume
  /-- `sem_wait(free)` returns -1. -/
  | interrupt
  | openListen (c : κ) (ok : Bool)
  | tryWait (c : κ)
  | copy (c : κ)
  | closeListen (c : κ) (ok : Bool)
  | postFree (c : κ)
  /-- `sem_close` and `_shm_connect`. -/
  | connect (c : κ) (ok : Bool)

/-- One step of the server or of a client. -/
inductive ListenStep : Listen κ → ListenEvent κ → Listen κ → Prop
  | write {s : Listen κ} (accept : s.accept = .idle) :
      ListenStep s .write { s with zone := s.port, accept := .written }
  | number {s : Listen κ} (accept : s.accept = .written) :
      ListenStep s .number { s with port := s.port + 1, accept := .numbered s.port }
  | setUp {s : Listen κ} {worker : Int32} (accept : s.accept = .numbered worker) :
      ListenStep s (.setUp true) { s with accept := .ready worker }
  | setUpFails {s : Listen κ} {worker : Int32} (accept : s.accept = .numbered worker) :
      ListenStep s (.setUp false) { s with accept := .idle }
  | post {s : Listen κ} {worker : Int32} (accept : s.accept = .ready worker) :
      ListenStep s .post { s with available := s.available ++ [worker], accept := .waiting }
  | resume {s : Listen κ} {left : Nat} (accept : s.accept = .waiting) (free : s.free = left + 1) :
      ListenStep s .resume { s with free := left, accept := .idle }
  | interrupt {s : Listen κ} (accept : s.accept = .waiting) (blocked : s.free = 0) :
      -- EINTR is not looked at: `transport_accept` returns 1 all the same
      ListenStep s .interrupt { s with accept := .idle }
  | openListen {s : Listen κ} {c : κ} (point : s.connects c = .opening) :
      ListenStep s (.openListen c true) (s.move c .trying)
  | openListenFails {s : Listen κ} {c : κ} (point : s.connects c = .opening) :
      ListenStep s (.openListen c false) (s.move c .failed)
  | tryWait {s : Listen κ} {c : κ} {post : Int32} {rest : List Int32}
      (point : s.connects c = .trying) (available : s.available = post :: rest) :
      ListenStep s (.tryWait c) ({ s with available := rest }.move c (.taken post))
  | tryWaitFails {s : Listen κ} {c : κ} (point : s.connects c = .trying)
      (available : s.available = []) :
      ListenStep s (.tryWait c) (s.move c .failed)
  | copy {s : Listen κ} {c : κ} {post : Int32} (point : s.connects c = .taken post) :
      ListenStep s (.copy c) (s.move c (.copied post s.zone))
  | closeListen {s : Listen κ} {c : κ} {post port : Int32}
      (point : s.connects c = .copied post port) :
      ListenStep s (.closeListen c true) (s.move c (.closed post port))
  | closeListenFails {s : Listen κ} {c : κ} {post port : Int32}
      (point : s.connects c = .copied post port) :
      -- the turn is lost: nobody posts `free`
      ListenStep s (.closeListen c false) (s.move c .failed)
  | postFree {s : Listen κ} {c : κ} {post port : Int32}
      (point : s.connects c = .closed post port) :
      ListenStep s (.postFree c) ({ s with free := s.free + 1 }.move c (.posted post port))
  | connect {s : Listen κ} {c : κ} {post port : Int32}
      (point : s.connects c = .posted post port) :
      ListenStep s (.connect c true) (s.move c (.connected post port))
  | connectFails {s : Listen κ} {c : κ} {post port : Int32}
      (point : s.connects c = .posted post port) :
      ListenStep s (.connect c false) (s.move c .failed)

/-! ## What connecting is for -/

/-- The cell is not rewritten between `sem_trywait` and the copy of a client. -/
def CellUntouched (s : Listen κ) : ListenEvent κ → Prop
  | .write => ∀ c post, s.connects c ≠ .taken post
  | _ => True

/-- A wait for `free` returns early only when the post was consumed and the call
that consumed it has failed before it answered; and the counter of ports does
not overflow. -/
def KeepsTurn (s : Listen κ) : ListenEvent κ → Prop
  | .interrupt => s.available = [] ∧ ∀ c, ¬ (s.connects c).HasTurn
  | .number => s.port ≠ Int32.maxValue
  | _ => True

/-! ## The turn -/

/-- Who may use the cell. -/
inductive Turn (κ : Type) where
  | server
  /-- `available` was posted. -/
  | offered (worker : Int32)
  | taken (c : κ)
  /-- `free` was posted. -/
  | returned
  /-- The client that had it has failed. -/
  | lost

namespace Turn

def offers : Turn κ → List Int32
  | offered worker => [worker]
  | _ => []

def returns : Turn κ → Nat
  | returned => 1
  | _ => 0

end Turn

/-- The semaphores and the calls stand as the turn says. -/
structure TurnAt (s : Listen κ) (turn : Turn κ) : Prop where
  server : turn = .server ↔ s.accept ≠ .waiting
  available : s.available = turn.offers
  free : s.free = turn.returns
  taken : ∀ c, (s.connects c).HasTurn ↔ turn = .taken c

/-- The ports that were handed out, one to a call, and those that will be. -/
structure Issued (s : Listen κ) : Prop where
  below : ∀ c post, (s.connects c).post? = some post → post < s.port
  fresh : ∀ worker ∈ s.pending, worker < s.port ∧ ∀ c, (s.connects c).post? ≠ some worker
  distinct : ∀ c d post, (s.connects c).post? = some post →
    (s.connects d).post? = some post → c = d

/-- The cell has the port that the next client has to copy. -/
structure CellInv (s : Listen κ) : Prop where
  written : s.accept = .written → s.zone = s.port
  pending : ∀ worker ∈ s.pending, s.zone = worker
  taken : ∀ c post, s.connects c = .taken post → s.zone = post
  copied : ∀ c post port, (s.connects c).copied? = some (post, port) → port = post

/-! ## One step -/

theorem connects_move (s : Listen κ) (c d : κ) (point : ConnectPoint) :
    (s.move c point).connects d = if d = c then point else s.connects d :=
  Function.update_apply s.connects c point d

/-- Moving one call moves the turn with it. -/
theorem hasTurn_move {s : Listen κ} {turn turn' : Turn κ} (h : TurnAt s turn) {c : κ}
    {point : ConnectPoint} (self : point.HasTurn ↔ turn' = .taken c)
    (others : ∀ d, d ≠ c → (turn = .taken d ↔ turn' = .taken d)) (d : κ) :
    ((s.move c point).connects d).HasTurn ↔ turn' = .taken d := by
  rw [connects_move]
  split
  next heq =>
    subst heq
    exact self
  next hne => exact (h.taken d).trans (others d hne)

/-- A call that neither gets nor passes the turn. -/
theorem TurnAt.move {s : Listen κ} {turn : Turn κ} (h : TurnAt s turn) {c : κ}
    {point : ConnectPoint} (kept : point.HasTurn ↔ (s.connects c).HasTurn) :
    TurnAt (s.move c point) turn where
  server := h.server
  available := h.available
  free := h.free
  taken := hasTurn_move h (kept.trans (h.taken c)) fun _ _ => Iff.rfl

omit [DecidableEq κ] in
/-- A server that does not wait has the turn. -/
theorem TurnAt.eq_server {s : Listen κ} {turn : Turn κ} (h : TurnAt s turn)
    (accept : s.accept ≠ .waiting) : turn = .server :=
  h.server.mpr accept

omit [DecidableEq κ] in
/-- A post that can be consumed is the only one, and the server waits. -/
theorem TurnAt.of_offer {s : Listen κ} {turn : Turn κ} (h : TurnAt s turn) {post : Int32}
    {rest : List Int32} (available : s.available = post :: rest) :
    rest = [] ∧ s.accept = .waiting := by
  have hoffers := h.available.symm.trans available
  cases turn with
  | offered worker =>
      have hserver := mt h.server.mpr (by simp)
      exact ⟨(List.cons.inj hoffers).2.symm, Decidable.not_not.mp hserver⟩
  | server | taken _ | returned | lost => exact absurd hoffers (by simp [Turn.offers])

/-- The turn is passed on by the semaphores, by one process to the next. -/
theorem TurnAt.step {s t : Listen κ} {e : ListenEvent κ} {turn : Turn κ} (h : TurnAt s turn)
    (step : ListenStep s e t) (keeps : KeepsTurn s e) : ∃ turn', TurnAt t turn' := by
  cases step with
  | write accept | number accept | setUp accept | setUpFails accept =>
      obtain rfl := h.eq_server (by simp [accept])
      exact ⟨.server, by simp, h.available, h.free, h.taken⟩
  | @post worker accept =>
      obtain rfl := h.eq_server (by simp [accept])
      refine ⟨.offered worker, by simp, ?_, h.free, ?_⟩
      · rw [h.available]
        rfl
      · intro c
        exact (h.taken c).trans (by simp)
  | @resume left accept free =>
      have hreturned : turn = .returned := by
        have hcount := h.free.symm.trans free
        cases turn <;> simp_all [Turn.returns]
      subst hreturned
      refine ⟨.server, by simp, h.available, ?_, ?_⟩
      · exact Nat.succ.inj (free.symm.trans h.free)
      · intro c
        exact (h.taken c).trans (by simp)
  | interrupt accept blocked =>
      obtain ⟨hnone, hidle⟩ := keeps
      refine ⟨.server, by simp, hnone, blocked, ?_⟩
      intro c
      exact iff_of_false (hidle c) (by simp)
  | openListen point | openListenFails point | connect point | connectFails point =>
      exact ⟨turn, h.move (by simp [point, ConnectPoint.HasTurn])⟩
  | tryWaitFails point available =>
      exact ⟨turn, h.move (by simp [point, ConnectPoint.HasTurn])⟩
  | copy point | closeListen point =>
      exact ⟨turn, h.move (by simp [point, ConnectPoint.HasTurn])⟩
  | @tryWait c post rest point available =>
      have hoffers := h.available.symm.trans available
      cases turn with
      | offered worker =>
          obtain ⟨rfl, rfl⟩ := List.cons.inj hoffers
          refine ⟨.taken c, ?_, rfl, h.free, ?_⟩
          · exact iff_of_false (by simp) (fun hserver => absurd (h.server.mpr hserver) (by simp))
          · exact hasTurn_move h (by simp [ConnectPoint.HasTurn]) (by simp [eq_comm])
      | server | taken _ | returned | lost => exact absurd hoffers (by simp [Turn.offers])
  | @closeListenFails c post port point =>
      obtain rfl := (h.taken c).mp (by simp [point, ConnectPoint.HasTurn])
      refine ⟨.lost, ?_, h.available, h.free, ?_⟩
      · exact iff_of_false (by simp) (fun hserver => absurd (h.server.mpr hserver) (by simp))
      · exact hasTurn_move h (by simp [ConnectPoint.HasTurn]) (by simp [eq_comm])
  | @postFree c post port point =>
      obtain rfl := (h.taken c).mp (by simp [point, ConnectPoint.HasTurn])
      refine ⟨.returned, ?_, h.available, ?_, ?_⟩
      · exact iff_of_false (by simp) (fun hserver => absurd (h.server.mpr hserver) (by simp))
      · exact congrArg (· + 1) h.free
      · exact hasTurn_move h (by simp [ConnectPoint.HasTurn]) (by simp [eq_comm])

omit [DecidableEq κ] in
/-- What hands out no port keeps them apart. -/
theorem Issued.mono {s t : Listen κ} (h : Issued s) (port : t.port = s.port)
    (pending : t.pending ⊆ s.pending)
    (posts : ∀ c post, (t.connects c).post? = some post → (s.connects c).post? = some post) :
    Issued t where
  below := fun c post hpost => port ▸ h.below c post (posts c post hpost)
  fresh := fun worker hmem =>
    ⟨port ▸ (h.fresh worker (pending hmem)).1,
      fun c hpost => (h.fresh worker (pending hmem)).2 c (posts c worker hpost)⟩
  distinct := fun c d post hc hd => h.distinct c d post (posts c post hc) (posts d post hd)

theorem Issued.move {s : Listen κ} (h : Issued s) {c : κ} {point : ConnectPoint}
    (kept : ∀ post, point.post? = some post → (s.connects c).post? = some post) :
    Issued (s.move c point) := by
  refine h.mono rfl (List.Subset.refl _) ?_
  intro d post hpost
  rw [connects_move] at hpost
  split at hpost
  next heq =>
    subst heq
    exact kept post hpost
  next => exact hpost

/-- A port is handed out once. -/
theorem Issued.step {s t : Listen κ} {e : ListenEvent κ} {turn : Turn κ} (h : Issued s)
    (at_turn : TurnAt s turn) (step : ListenStep s e t) (keeps : KeepsTurn s e) : Issued t := by
  cases step with
  | number accept =>
      have hnext := Int32.lt_succ keeps
      have hnone : s.available = [] := by
        rw [at_turn.available, at_turn.eq_server (by simp [accept])]
        rfl
      refine ⟨fun c post hpost => Int32.lt_trans (h.below c post hpost) hnext, ?_, h.distinct⟩
      intro worker hmem
      obtain rfl : worker = s.port := by
        simpa [Listen.pending, AcceptPoint.workers, hnone] using hmem
      refine ⟨hnext, ?_⟩
      intro c hpost
      exact Int32.lt_irrefl (h.below c _ hpost)
  | write accept | setUp accept | setUpFails accept | post accept | resume accept
  | interrupt accept =>
      refine h.mono rfl ?_ fun _ _ hpost => hpost
      simp [Listen.pending, AcceptPoint.workers, accept]
  | openListen point | openListenFails point | tryWaitFails point | copy point
  | closeListen point | closeListenFails point | connect point | connectFails point =>
      exact h.move (by simp [point, ConnectPoint.post?])
  | @postFree c post port point =>
      have kept : Issued { s with free := s.free + 1 } :=
        h.mono rfl (List.Subset.refl _) fun _ _ hpost => hpost
      exact kept.move (by simp [point, ConnectPoint.post?])
  | @tryWait c post rest point available =>
      have hmem : post ∈ s.pending := by simp [Listen.pending, available]
      obtain ⟨hbelow, hfresh⟩ := h.fresh post hmem
      obtain ⟨rfl, haccept⟩ := at_turn.of_offer available
      have hpost : ∀ d other, (Function.update s.connects c (.taken post) d).post? = some other →
          d = c ∧ post = other ∨ d ≠ c ∧ (s.connects d).post? = some other := by
        intro d other hd
        rw [Function.update_apply] at hd
        split at hd
        next heq => exact .inl ⟨heq, Option.some.inj hd⟩
        next hne => exact .inr ⟨hne, hd⟩
      refine ⟨?_, ?_, ?_⟩
      · intro d other hd
        rcases hpost d other hd with ⟨_, rfl⟩ | ⟨_, hd⟩
        · exact hbelow
        · exact h.below d other hd
      · intro worker hworker
        simp [Listen.pending, Listen.move, AcceptPoint.workers, haccept] at hworker
      · intro d d' other hd hd'
        rcases hpost d other hd with ⟨hself, heq⟩ | ⟨_, hbefore⟩ <;>
          rcases hpost d' other hd' with ⟨hself', heq'⟩ | ⟨_, hbefore'⟩
        · exact hself.trans hself'.symm
        · exact absurd (heq ▸ hbefore') (hfresh d')
        · exact absurd (heq' ▸ hbefore) (hfresh d)
        · exact h.distinct d d' other hbefore hbefore'

/-- What a call copies is what the cell has. -/
theorem CellInv.move {s : Listen κ} (h : CellInv s) {c : κ} {point : ConnectPoint}
    (taken : ∀ post, point = .taken post → s.zone = post)
    (copied : ∀ post port, point.copied? = some (post, port) → port = post) :
    CellInv (s.move c point) where
  written := h.written
  pending := h.pending
  taken := by
    intro d post hpoint
    rw [connects_move] at hpoint
    split at hpoint
    · exact taken post hpoint
    · exact h.taken d post hpoint
  copied := by
    intro d post port hpoint
    rw [connects_move] at hpoint
    split at hpoint
    · exact copied post port hpoint
    · exact h.copied d post port hpoint

/-- A client copies the port that was posted for it. -/
theorem CellInv.step {s t : Listen κ} {e : ListenEvent κ} {turn : Turn κ} (h : CellInv s)
    (at_turn : TurnAt s turn) (step : ListenStep s e t) : CellInv t := by
  cases step with
  | write accept =>
      obtain rfl := at_turn.eq_server (by simp [accept])
      refine ⟨fun _ => rfl, ?_, ?_, h.copied⟩
      · intro worker hmem
        simp [Listen.pending, AcceptPoint.workers, at_turn.available, Turn.offers] at hmem
      · intro c post point
        dsimp only at point
        exact absurd ((at_turn.taken c).mp (by simp [point, ConnectPoint.HasTurn])) (by simp)
  | number accept =>
      obtain rfl := at_turn.eq_server (by simp [accept])
      refine ⟨fun h => absurd h (by simp), ?_, h.taken, h.copied⟩
      intro worker hmem
      obtain rfl : worker = s.port := by
        simpa [Listen.pending, AcceptPoint.workers, at_turn.available, Turn.offers] using hmem
      exact h.written accept
  | setUp accept | setUpFails accept | post accept | resume accept | interrupt accept =>
      refine ⟨fun h => absurd h (by simp), ?_, h.taken, h.copied⟩
      intro worker hmem
      apply h.pending worker
      simp_all [Listen.pending, AcceptPoint.workers, or_comm]
  | openListen point | openListenFails point | tryWaitFails point =>
      exact h.move (by simp) (by simp [ConnectPoint.copied?])
  | closeListenFails point | connectFails point =>
      exact h.move (by simp) (by simp [ConnectPoint.copied?])
  | @tryWait c post rest point available =>
      have hzone : s.zone = post := h.pending post (by simp [Listen.pending, available])
      have kept : CellInv { s with available := rest } :=
        { h with pending := fun worker hmem => h.pending worker (by
            simp only [Listen.pending, available, List.mem_append, List.mem_cons] at hmem ⊢
            exact hmem.imp_right .inr) }
      exact kept.move (fun _ heq => hzone.trans (ConnectPoint.taken.inj heq))
        (by simp [ConnectPoint.copied?])
  | @copy c post point =>
      refine h.move (by simp) ?_
      intro other port hcopied
      obtain ⟨rfl, rfl⟩ := Prod.mk.inj (Option.some.inj hcopied)
      exact h.taken c _ point
  | @closeListen c _ _ point | @connect c _ _ point =>
      exact h.move (by simp) fun post port heq => h.copied c post port (by rw [point]; exact heq)
  | @postFree c post port point =>
      have kept : CellInv { s with free := s.free + 1 } := { h with }
      exact kept.move (by simp) fun post port heq => h.copied c post port (by rw [point]; exact heq)

/-! ## Connecting -/

/-- What holds as long as the turn is kept. -/
structure ListenInv (s : Listen κ) : Prop where
  turn : ∃ turn, TurnAt s turn
  issued : Issued s
  cell : CellInv s

omit [DecidableEq κ] in
theorem ListenInv.start : ListenInv (Listen.start (κ := κ)) where
  turn := ⟨.server, by simp [Listen.start], rfl, rfl,
    fun c => iff_of_false (fun h => h) (by simp)⟩
  issued := ⟨by simp [Listen.start, ConnectPoint.post?], by simp [Listen.start, Listen.pending,
    AcceptPoint.workers], by simp [Listen.start, ConnectPoint.post?]⟩
  cell := ⟨by simp [Listen.start], by simp [Listen.start, Listen.pending, AcceptPoint.workers],
    by simp [Listen.start], by simp [Listen.start, ConnectPoint.copied?]⟩

theorem ListenInv.step {s t : Listen κ} {e : ListenEvent κ} (inv : ListenInv s)
    (step : ListenStep s e t) (keeps : KeepsTurn s e) : ListenInv t := by
  obtain ⟨turn, hturn⟩ := inv.turn
  exact ⟨hturn.step step keeps, inv.issued.step hturn step keeps, inv.cell.step hturn step⟩

/-- The server may rewrite the cell between the `sem_trywait` of a client and its
copy. -/
def Exposed (s : Listen κ) : Prop :=
  ∃ trace u v, Run ListenStep s trace u ∧ ListenStep u .write v ∧ ¬ CellUntouched u .write

theorem exposed_of_taken {s : Listen κ} {c : κ} {post : Int32} (accept : s.accept = .idle)
    (point : s.connects c = .taken post) : Exposed s :=
  ⟨[], s, _, .nil s, .write accept, fun h => h c post point⟩

/-- A post of an accept that has returned. -/
theorem exposed_of_available {s : Listen κ} {d : κ} {post : Int32} {rest : List Int32}
    (accept : s.accept = .idle) (available : s.available = post :: rest)
    (fresh : s.connects d = .opening) : Exposed s := by
  have hopen := ListenStep.openListen fresh
  have htrying : (s.move d .trying).connects d = .trying := by simp [connects_move]
  have htake := ListenStep.tryWait htrying available
  obtain ⟨trace, u, v, run, write, hrewritten⟩ :=
    exposed_of_taken (s := { s.move d .trying with available := rest }.move d (.taken post))
      (c := d) accept (by rw [connects_move, if_pos rfl])
  exact ⟨_, u, v, .cons hopen (.cons htake run), write, hrewritten⟩

/-- A client that answers an accept that has returned lets the next accept return
before its own client comes. -/
theorem exposed_of_closed {s : Listen κ} {c d : κ} {post port : Int32}
    (accept : s.accept = .idle) (available : s.available = [])
    (point : s.connects c = .closed post port) (fresh : s.connects d = .opening) :
    Exposed s := by
  have hne : d ≠ c := by
    rintro rfl
    exact absurd (fresh.symm.trans point) (by simp)
  have hanswer := ListenStep.postFree point
  let answered : Listen κ := { s with free := s.free + 1 }.move c (.posted post port)
  let next : Listen κ :=
    { answered with
      free := s.free, zone := s.port, port := s.port + 1, accept := .idle, available := [s.port] }
  have hnext : Run ListenStep answered _ next :=
    .cons (.write accept) (.cons (.number rfl) (.cons (.setUp rfl) (.cons (.post rfl)
      (.cons (.resume rfl rfl) (by
        have hposts : s.available ++ [s.port] = [s.port] := by rw [available]; rfl
        dsimp only [answered, next, Listen.move]
        rw [hposts]
        exact .nil _)))))
  have hfresh : next.connects d = .opening := by
    simp [next, answered, connects_move, hne, fresh]
  obtain ⟨trace, u, v, run, write, hrewritten⟩ :=
    exposed_of_available (s := next) rfl rfl hfresh
  exact ⟨_, u, v, .cons hanswer (hnext.append run), write, hrewritten⟩

/-- The condition on a wait that returns early is needed: with one more client, a
turn that can still come back lets the server rewrite the cell under a client. -/
theorem exposed_of_early_return {s t : Listen κ} (inv : ListenInv s)
    (step : ListenStep s .interrupt t) {d : κ} (fresh : s.connects d = .opening)
    (early : ¬ KeepsTurn s .interrupt) : Exposed t := by
  obtain ⟨turn, hturn⟩ := inv.turn
  cases step with
  | interrupt accept blocked =>
      cases turn with
      | server => exact absurd accept (hturn.server.mp rfl)
      | offered worker => exact exposed_of_available rfl hturn.available fresh
      | returned => exact absurd (blocked.symm.trans hturn.free) (by simp [Turn.returns])
      | lost =>
          refine absurd ⟨hturn.available, ?_⟩ early
          intro c hc
          exact absurd ((hturn.taken c).mp hc) (by simp)
      | taken c =>
          have hc := (hturn.taken c).mpr rfl
          cases point : s.connects c with
          | taken post => exact exposed_of_taken (c := c) rfl point
          | closed post port => exact exposed_of_closed (c := c) rfl hturn.available point fresh
          | copied post port =>
              have hne : d ≠ c := by
                rintro rfl
                exact absurd (fresh.symm.trans point) (by simp)
              have hclose := ListenStep.closeListen (s := { s with accept := .idle }) point
              obtain ⟨trace, u, v, run, write, hrewritten⟩ := exposed_of_closed (c := c) (d := d)
                (s := { s with accept := .idle }.move c (.closed post port)) rfl hturn.available
                (by rw [connects_move, if_pos rfl]) (by simpa [connects_move, hne] using fresh)
              exact ⟨_, u, v, .cons hclose run, write, hrewritten⟩
          | opening | trying | posted _ _ | connected _ _ | failed =>
              simp [point, ConnectPoint.HasTurn] at hc

/-- The server is between two accepts that nobody has disturbed. -/
def Listen.between (zone port : Int32) (connects : κ → ConnectPoint) : Listen κ where
  available := []
  free := 0
  zone := zone
  port := port
  accept := .idle
  connects := connects

/-- The server accepts a client. -/
theorem exists_accepted {zone port : Int32} {connects : κ → ConnectPoint} {c : κ}
    (hport : port ≠ Int32.maxValue) (fresh : connects c = .opening) :
    ∃ trace, Run (Guarded ListenStep KeepsTurn) (Listen.between zone port connects) trace
      (Listen.between port (port + 1)
        (Function.update connects c (.connected port port))) := by
  have hself : ∀ (connects : κ → ConnectPoint) point, Function.update connects c point c = point :=
    fun connects point => Function.update_self c point connects
  have run : ∃ trace t, Run (Guarded ListenStep KeepsTurn) (Listen.between zone port connects)
      trace t ∧ t = Listen.between port (port + 1)
        (Function.update connects c (.connected port port)) := by
    refine ⟨_, _, .cons ⟨.write rfl, trivial⟩ (.cons ⟨.number rfl, hport⟩
      (.cons ⟨.setUp rfl, trivial⟩ (.cons ⟨.post rfl, trivial⟩
        (.cons ⟨.openListen (c := c) fresh, trivial⟩
          (.cons ⟨.tryWait (c := c) (hself _ _) rfl, trivial⟩
            (.cons ⟨.copy (c := c) (hself _ _), trivial⟩
              (.cons ⟨.closeListen (c := c) (hself _ _), trivial⟩
                (.cons ⟨.postFree (c := c) (hself _ _), trivial⟩
                  (.cons ⟨.connect (c := c) (hself _ _), trivial⟩
                    (.cons ⟨.resume rfl rfl, trivial⟩ (.nil _))))))))))), ?_⟩
    simp [Listen.between, Listen.move]
  obtain ⟨trace, t, run, rfl⟩ := run
  exact ⟨trace, run⟩

/-- The server accepts two clients. -/
theorem exists_two_clients : ∃ (trace : List (ListenEvent Bool × Listen Bool)) (t : Listen Bool),
    Run (Guarded ListenStep KeepsTurn) Listen.start trace t ∧
      t.connects false = .connected 0 0 ∧ t.connects true = .connected 1 1 := by
  obtain ⟨_, first⟩ := @exists_accepted Bool _ 0 0 (fun _ => .opening) false (by decide) rfl
  obtain ⟨_, second⟩ := @exists_accepted Bool _ 0 (0 + 1)
    (Function.update (fun _ => .opening) false (.connected 0 0)) true (by decide) rfl
  exact ⟨_, _, first.append second, rfl, rfl⟩

end AirTraffic.Transport
