/-
  Server/Loop.lean --- `listen_child_channels`, over every outcome of a receive.

  WHAT THIS FILE IS FOR.  A worker calls `atc_reply` until it returns -1.  A
  receive gives the whole message, a part of it, the end of the stream or an
  error.  `atc_reply` decodes its buffer and runs the handler in each of these
  cases: `executed_whole_iff` says when a request is executed only if it was
  received whole, and `after_over_iff` says when the loop ends.
-/
import AirTraffic.Foundation.Transition
import AirTraffic.Server.Serve

set_option autoImplicit false

namespace AirTraffic.Server

open AirTraffic.Foundation AirTraffic.Storage AirTraffic.Atcd AirTraffic.Protocol

/-! ## Receives -/

/-- What `transport_recv` makes of a message. -/
inductive Delivery where
  | whole (message : List.Vector UInt8 atcpMsgLen)
  | short (got : Bytes) (less : got.length < atcpMsgLen) (more : got ≠ [])
  | ended
  | failed

namespace Delivery

/-- What the receive returns. -/
def count : Delivery → Int32
  | whole _ => Int32.ofNat atcpMsgLen
  | short got _ _ => Int32.ofNat got.length
  | ended => 0
  | failed => -1

/-- The bytes it puts into the buffer. -/
def bytes : Delivery → Bytes
  | whole message => message.toList
  | short got _ _ => got
  | ended => []
  | failed => []

/-- All bytes of the message were delivered. -/
def IsWhole : Delivery → Prop
  | whole _ => True
  | _ => False

/-- The server's end of a connection whose next receive is this one.  The state
says which of the coming sends work. -/
def transport (delivery : Delivery) : Transport (Nat → Bool) where
  send _ sends := (if sends 0 then 0 else -1, fun n => sends (n + 1))
  recv buffer sends := (delivery.count, writeAt buffer 0 delivery.bytes, sends)

/-- Only an error is -1. -/
theorem count_eq_neg_one_iff (delivery : Delivery) : delivery.count = -1 ↔ delivery = failed := by
  cases delivery with
  | whole message => exact iff_of_false (by simp only [count]; decide) (by simp)
  | short got less more =>
      have hlt : got.length < 2 ^ 31 := Nat.lt_trans less (by decide)
      refine iff_of_false ?_ (by simp)
      intro h
      have hn := Int32.toInt_ofNat_of_lt hlt
      have hneg : (-1 : Int32).toInt = -1 := by decide
      rw [count] at h
      rw [h, hneg] at hn
      omega
  | ended => exact iff_of_false (by simp only [count]; decide) (by simp)
  | failed => exact iff_of_true rfl rfl

end Delivery

/-! ## The loop -/

/-- Where a worker is in its loop. -/
inductive LoopStage where
  | replying
  /-- The loop is over, and the connection is closed. -/
  | over
  /-- The handler does not return. -/
  | stuck
  deriving DecidableEq

/-- A worker in `listen_child_channels`. -/
structure Loop where
  stage : LoopStage
  worker : Worker
  /-- How often the handler was called. -/
  invocations : Nat

/-- One call of `atc_reply`: what it receives, what its buffers hold before, what
the handler meets, and which of its sends work. -/
structure Reply where
  delivery : Delivery
  stack : Stack
  moment : Moment
  sends : Nat → Bool

/-- The request that is in the buffer after the receive. -/
def Reply.decoded (e : Reply) : AtcReq :=
  (atcWireToReq (writeAt e.stack.message.toList 0 e.delivery.bytes)).1

/-- A handler whose calls are counted. -/
def counted {τ : Type} (handler : AtcReplyHandler τ) : AtcReplyHandler (Nat × τ) :=
  fun conn (calls, server) =>
    (handler conn server).map fun (handled, conn, server) => (handled, conn, calls + 1, server)

section Loop

variable [Platform]

/-- One round of the loop. -/
def Loop.after (s : Loop) (e : Reply) : Loop :=
  match atcReply e.delivery.transport e.stack (counted (replyHandler e.moment))
      (s.invocations, s.worker) e.sends with
  | some (response, _, (invocations, worker), _) =>
      { stage := if response = -1 then .over else .replying, worker, invocations }
  -- `atc_reply` hangs only in the handler
  | none => { stage := .stuck, worker := s.worker, invocations := s.invocations + 1 }

/-- The next round of a loop that goes on. -/
def LoopStep (s : Loop) (e : Reply) (t : Loop) : Prop :=
  s.stage = .replying ∧ t = s.after e

/-- The handler is called, and the store changed, only for a whole message, and
the loop ends with the stream and at an error. -/
structure ExecutedWhole (s : Loop) (e : Reply) (t : Loop) : Prop where
  called : t.invocations ≠ s.invocations → e.delivery.IsWhole
  stored : t.worker.disk.file ≠ s.worker.disk.file → e.delivery.IsWhole
  ends : e.delivery = .ended ∨ e.delivery = .failed → t.stage = .over

/-- A round is the handler on the request in the buffer, however it got there. -/
theorem Loop.after_eq (s : Loop) (e : Reply) :
    s.after e =
      match replyHandler e.moment { req := e.decoded, res := zeroRes } s.worker with
      | some (handled, _, worker) =>
          { stage := if handled = -1 ∨ e.delivery.count = -1 then .over else .replying
            worker := worker
            invocations := s.invocations + 1 }
      | none => { stage := .stuck, worker := s.worker, invocations := s.invocations + 1 } := by
  have hreceive : receiveRequest e.delivery.transport e.stack e.sends =
      (e.delivery.count, e.decoded, e.sends) := by
    simp only [receiveRequest, Delivery.transport, Reply.decoded]
  unfold Loop.after
  simp only [atcReply, hreceive, counted]
  cases replyHandler e.moment { req := e.decoded, res := zeroRes } s.worker with
  | none => rfl
  | some result =>
      obtain ⟨handled, conn, worker⟩ := result
      by_cases hrefused : handled = -1
      · simp [hrefused]
      · simp [hrefused]

/-- The handler is called in every round. -/
theorem Loop.invocations_after (s : Loop) (e : Reply) :
    (s.after e).invocations = s.invocations + 1 := by
  rw [Loop.after_eq]
  split <;> rfl

/-- The handler refuses exactly the request to leave. -/
theorem replyHandler_refuses_iff {moment : Moment} {conn conn' : AtcConn}
    {worker worker' : Worker} {handled : Int32}
    (h : replyHandler moment conn worker = some (handled, conn', worker')) :
    handled = -1 ↔ AtcReqType.ofCode conn.req.type = some .leave := by
  have hzero : (0 : Int32) ≠ -1 := by decide
  have hset : ∀ {cmd : AtcCommand} {conn : AtcConn},
      replySet cmd moment conn worker = some (handled, conn', worker') → handled ≠ -1 := by
    intro cmd conn h
    obtain ⟨rfl, _⟩ := Prod.mk.inj (Option.some.inj h)
    exact hzero
  have hplanes : ∀ {conn : AtcConn},
      replyPlanes moment conn worker = some (handled, conn', worker') → handled ≠ -1 := by
    intro conn h
    obtain ⟨poll, _, hpoll⟩ := Option.map_eq_some_iff.mp h
    obtain ⟨rfl, _⟩ := Prod.mk.inj hpoll
    exact hzero
  simp only [replyHandler, setCode] at h
  cases htype : AtcReqType.ofCode conn.req.type with
  | none =>
      simp only [htype, Option.some.injEq, Prod.mk.injEq] at h
      exact iff_of_false (h.1 ▸ hzero) (by simp)
  | some type =>
      simp only [htype] at h
      cases type with
      | speedUp | speedDown | turnLeft | turnRight | ascend | descend =>
          exact iff_of_false (hset h) (by simp)
      | getPlanes => exact iff_of_false (hplanes h) (by simp)
      | getAirports | getLanded | getCrashed | createPlane | join =>
          simp only [Option.some.injEq, Prod.mk.injEq] at h
          exact iff_of_false (h.1 ▸ hzero) (by simp)
      | leave =>
          simp only [Option.some.injEq, Prod.mk.injEq] at h
          exact iff_of_true h.1.symm rfl

/-- **When the loop ends.**  A receive that fails ends it, and so does a request
to leave; the end of the stream does not, unless such a request is still in the
buffer. -/
theorem Loop.after_over_iff {s : Loop} {e : Reply} (returns : (s.after e).stage ≠ .stuck) :
    (s.after e).stage = .over ↔
      e.delivery = .failed ∨ AtcReqType.ofCode e.decoded.type = some .leave := by
  rw [Loop.after_eq] at returns ⊢
  cases hhandler : replyHandler e.moment { req := e.decoded, res := zeroRes } s.worker with
  | none => simp [hhandler] at returns
  | some result =>
      obtain ⟨handled, conn, worker⟩ := result
      have hrefuses := replyHandler_refuses_iff hhandler
      simp only [← hrefuses, ← e.delivery.count_eq_neg_one_iff]
      by_cases hover : handled = -1 ∨ e.delivery.count = -1
      · simp only [if_pos hover, true_iff]
        exact hover.symm
      · simp only [if_neg hover, reduceCtorEq, false_iff]
        exact fun h => hover h.symm

/-- One round. -/
theorem executedWhole_iff {s t : Loop} {e : Reply} (step : LoopStep s e t) :
    ExecutedWhole s e t ↔ e.delivery.IsWhole := by
  obtain ⟨_, rfl⟩ := step
  constructor
  · intro executed
    apply executed.called
    rw [s.invocations_after]
    exact Nat.succ_ne_self _
  · intro hwhole
    exact
      { called := fun _ => hwhole
        stored := fun _ => hwhole
        ends := by
          rintro (hended | hfailed)
          · rw [hended] at hwhole
            exact absurd hwhole id
          · rw [hfailed] at hwhole
            exact absurd hwhole id }

/-- **When requests are executed only if they were received whole.**  Every round
of a run is in order exactly if every receive of the run delivered a whole
message. -/
theorem executed_whole_iff {s t : Loop} {trace : List (Reply × Loop)}
    (run : Run LoopStep s trace t) :
    (∀ step ∈ steps s trace, ExecutedWhole step.1 step.2.1 step.2.2) ↔
      ∀ step ∈ steps s trace, step.2.1.delivery.IsWhole :=
  run.forall_steps_iff (fun _ => True) ExecutedWhole (fun _ e => e.delivery.IsWhole)
    (fun _ _ _ _ _ => trivial) (fun _ _ _ _ step => executedWhole_iff step) trivial

end Loop

/-! ## A client that goes away -/

/-- A worker on an empty store. -/
def freshLoop : Loop where
  stage := .replying
  worker := { counters := {}, disk := Disk.sound [] }
  invocations := 0

/-- A receive of a request to make a plane, or after it: the buffer holds this
request before.  The second seeds the draws. -/
def createReply (delivery : List.Vector UInt8 atcpMsgLen → Delivery) (second : Nat) : Reply :=
  let message := vectorAt (int32BE AtcReqType.createPlane.code) 0 atcpMsgLen
  { delivery := delivery message
    stack := { Stack.zero with message := message }
    moment :=
      { now := Int64.ofNat second
        chance := { rand := fun _ => second, pad := List.Vector.replicate 2 0 } }
    sends := fun _ => true }

/-- The client sends its request, and goes away in the next second. -/
def goneTrace [Platform] : List (Reply × Loop) :=
  let first := createReply .whole 0
  let second := createReply (fun _ => .ended) 1
  [(first, freshLoop.after first), (second, (freshLoop.after first).after second)]

theorem run_goneTrace [Platform] :
    ∃ t, Run LoopStep freshLoop goneTrace t := by
  have hgoes : (freshLoop.after (createReply .whole 0)).stage = .replying := by
    rw [Loop.after_eq]
    rfl
  exact ⟨_, .cons ⟨rfl, rfl⟩ (.cons ⟨hgoes, rfl⟩ (.nil _))⟩

theorem executed_whole_iff_goneTrace :
    ∃ _ : Platform, (∀ step ∈ steps freshLoop goneTrace,
        ExecutedWhole step.1 step.2.1 step.2.2) ↔
      ∀ step ∈ steps freshLoop goneTrace, step.2.1.delivery.IsWhole := by
  let _ : Platform := x86
  obtain ⟨t, run⟩ := run_goneTrace
  exact ⟨x86, executed_whole_iff run⟩

/-- The end of the stream makes a second plane, and the loop goes on. -/
theorem goneTrace_creates_again :
    ¬ ∀ (_ : Platform) (s t : Loop) (trace : List (Reply × Loop)), Run LoopStep s trace t →
      ∀ step ∈ steps s trace, ExecutedWhole step.1 step.2.1 step.2.2 := by
  intro hexecuted
  let _ : Platform := x86
  obtain ⟨t, run⟩ := run_goneTrace
  have hsecond := hexecuted x86 freshLoop t goneTrace run _
    (List.mem_cons_of_mem _ List.mem_cons_self)
  have hstored : ((freshLoop.after (createReply .whole 0)).after
        (createReply (fun _ => .ended) 1)).worker.disk.file ≠
      (freshLoop.after (createReply .whole 0)).worker.disk.file := by
    decide +kernel
  exact hsecond.stored hstored

end AirTraffic.Server
