/-
  Server/Visit.lean --- a client and its worker run at the same time.

  WHAT THIS FILE IS FOR.  `Session.lean` takes the calls of the two sides one after
  the other.  Here both run at once, over the backends that make them wait: the
  message queues, which hold `QUEUE_SIZE` messages, the rings of the shared
  memory, which hold `ZONE_SIZE` bytes, less than one message, and the FIFOs and
  sockets, which do not keep messages apart.  A visit is a sequence of requests that
  ends with the one to leave.  In any interleaving it comes to its end, with the
  answers that the requests are served with (`visit_over_queues`,
  `visit_over_rings`, `visit_over_streams`).
-/
import AirTraffic.Foundation.RingNetwork
import AirTraffic.Foundation.StreamNetwork
import AirTraffic.Protocol.Meeting
import AirTraffic.Server.Loop
import AirTraffic.Server.Session
import AirTraffic.Transport.Msgqueue
import AirTraffic.Transport.Shmem

set_option autoImplicit false

namespace AirTraffic.Server

open AirTraffic.Foundation AirTraffic.Storage AirTraffic.Atcd AirTraffic.Protocol
open AirTraffic.Transport

/-- A client that makes one request after the other; `res` is the memory into which
it decodes.  The result is what `atc_request` returned, with the response. -/
def clientProc : List Call → AtcRes → Proc (List (Int32 × AtcRes))
  | [], _ => .done []
  | call :: rest, res =>
      (requestProc call.clientStack { req := call.req, res := res }).bind
        fun (response, conn) =>
          (clientProc rest conn.res).bind fun later => .done ((response, conn.res) :: later)

/-- What a worker did: the responses it settled on, and how it ended. -/
structure VisitEnd where
  settled : List AtcRes
  stage : LoopStage
  worker : Worker

section Visit

variable [Platform]

/-- `listen_child_channels`, for as many rounds as there are calls.  Of a call it
uses the moment and the stack of the server. -/
def workerProc : List Call → Worker → Proc VisitEnd
  | [], worker => .done { settled := [], stage := .replying, worker := worker }
  | call :: rest, worker =>
      (replyProc call.serverStack (replyHandler call.moment) worker).bind fun
        | none => .done { settled := [], stage := .stuck, worker := worker }
        | some (response, conn, worker) =>
            if response = -1 then
              .done { settled := [conn.res], stage := .over, worker := worker }
            else
              (workerProc rest worker).bind fun served =>
                .done { served with settled := conn.res :: served.settled }

/-- The request to leave. -/
def Call.Leaves (call : Call) : Prop := AtcReqType.ofCode call.req.type = some .leave

instance (call : Call) : Decidable call.Leaves :=
  inferInstanceAs (Decidable (AtcReqType.ofCode call.req.type = some .leave))

/-- What the two sides end with: the client has the payload of each answer, and
the worker has ended its loop after the last one. -/
structure Ended (answers : List (AtcRes × Worker)) (got : List (Int32 × AtcRes))
    (served : VisitEnd) : Prop where
  got : List.Forall₂ (fun answer g => SamePayload answer.1 g.2) answers got
  settled : served.settled = answers.map Prod.fst
  ends : served.stage = .over
  worker : answers.getLast?.map Prod.snd = some served.worker

/-- One exchange of a visit. -/
theorem call_talks {call : Call} {worker : Worker} {answer : AtcRes × Worker}
    (hserve : serve call.moment (reqOverWire call.req) worker = some answer) (res : AtcRes) :
    ∃ response got replied conn, SamePayload answer.1 got ∧ conn.res = answer.1 ∧
      (replied = -1 ↔ call.Leaves) ∧
      ∀ status : Status, status.Sends →
        Proc.Talks status (requestProc call.clientStack { req := call.req, res := res })
          (replyProc call.serverStack (replyHandler call.moment) worker)
          (response, { req := call.req, res := got }) (some (replied, conn, answer.2)) := by
  have hknown := serve_known hserve
  obtain ⟨⟨handled, conn, worker'⟩, hhandler, rfl⟩ := Option.map_eq_some_iff.mp hserve
  obtain ⟨response, got, hsame, htalks⟩ :=
    exchange_talks hhandler hknown call.clientStack call.serverStack res
  have hrefuses := replyHandler_refuses_iff hhandler
  refine ⟨response, got, _, _, hsame, rfl, ?_, htalks⟩
  have hwhole : (Int32.ofNat atcpMsgLen) ≠ -1 := by decide
  split
  · exact iff_of_true rfl (hrefuses.mp ‹_›)
  · exact iff_of_false hwhole fun h => ‹¬ handled = -1› (hrefuses.mpr h)

/-- A visit talks its way to the end. -/
theorem visit_talks {bye : Call} (leaves : bye.Leaves) {stay : List Call}
    (stays : ∀ call ∈ stay, ¬ call.Leaves) {worker : Worker}
    {answers : List (AtcRes × Worker)} (hserve : serveAll (stay ++ [bye]) worker = some answers)
    (res : AtcRes) :
    ∃ got served, Ended answers got served ∧
      ∀ status : Status, status.Sends →
        Proc.Talks status (clientProc (stay ++ [bye]) res) (workerProc (stay ++ [bye]) worker)
          got served := by
  induction stay generalizing worker answers res with
  | nil =>
      obtain ⟨answer, hanswer, hnone⟩ := Option.bind_eq_some_iff.mp hserve
      obtain ⟨later, hlater, rfl⟩ := Option.map_eq_some_iff.mp hnone
      obtain rfl : [] = later := Option.some.inj hlater
      obtain ⟨response, got, replied, conn, hsame, hconn, hleaves, htalks⟩ :=
        call_talks hanswer res
      refine ⟨[(response, got)], { settled := [conn.res], stage := .over, worker := answer.2 },
        ⟨.cons hsame .nil, by simp [hconn], rfl, rfl⟩, fun status sends => ?_⟩
      refine (htalks status sends).bind ?_
      rw [hleaves.mpr leaves]
      exact .done _ _
  | cons call stay ih =>
      obtain ⟨answer, hanswer, hmap⟩ := Option.bind_eq_some_iff.mp hserve
      obtain ⟨later, hlater, rfl⟩ := Option.map_eq_some_iff.mp hmap
      obtain ⟨response, got, replied, conn, hsame, hconn, hleaves, htalks⟩ :=
        call_talks hanswer res
      obtain ⟨gots, served, hended, hrest⟩ := ih
        (fun other hmem => stays other (List.mem_cons_of_mem call hmem)) hlater got
      have hstays : replied ≠ -1 := fun h =>
        stays call List.mem_cons_self (hleaves.mp h)
      refine ⟨(response, got) :: gots, { served with settled := conn.res :: served.settled },
        ?_, fun status sends => ?_⟩
      · obtain ⟨last, hlast, hworker⟩ := Option.map_eq_some_iff.mp hended.worker
        exact
          { got := .cons hsame hended.got
            settled := by simp [hconn, hended.settled]
            ends := hended.ends
            worker := by simp [List.getLast?_cons, hlast, hworker] }
      · refine (htalks status sends).bind ?_
        simp only [if_neg hstays]
        exact (hrest status sends).bind (.done _ _)

/-! ## Over the backends -/

/-- What the client and its worker end with. -/
abbrev VisitResult : Side → Type
  | .left => List (Int32 × AtcRes)
  | .right => VisitEnd

/-- The client on the left and its worker on the right, on empty queues. -/
def queueVisit (calls : List Call) (res : AtcRes) (worker : Worker) :
    Network Bytes Nat VisitResult :=
  .start ((clientProc calls res).overMessages queueStatus)
    ((workerProc calls worker).overMessages queueStatus)

/-- The same over rings, on a zone that holds anything. -/
def ringVisit (zone : Side → Nat → UInt8) (calls : List Call) (res : AtcRes)
    (worker : Worker) : RingNetwork UInt8 Unit VisitResult :=
  .start zoneSize zone (clientProc calls res).overShmem (workerProc calls worker).overShmem

/-- The same over two FIFOs or a socket. -/
def streamVisit (medium : Medium) (calls : List Call) (res : AtcRes) (worker : Worker) :
    StreamNetwork UInt8 VisitResult :=
  .start ((clientProc calls res).overMessages (streamStatus medium))
    ((workerProc calls worker).overMessages (streamStatus medium))

/-- A worker on an empty store answers all of `visit`. -/
theorem serveAll_visit :
    ∃ answers, serveAll (visit.dropLast ++ [visit.getLast (by decide)])
      { counters := {}, disk := Disk.sound [] } = some answers := by
  have hfree : ∀ call ∈ visit.dropLast ++ [visit.getLast (by decide)],
      carriesPlane call.req.type = true → NulFree call.req.plane.id.toList := by
    decide +kernel
  exact serveAll_lists hfree rfl lists_nil

/-- **A visit over the message queues.**  In any interleaving of its sends and
receives, every message has the length of the buffer it is received into, and the
visit goes on to its end, which is the same for all, after the same number of
steps. -/
theorem visit_over_queues {stay : List Call} {bye : Call} (leaves : bye.Leaves)
    (stays : ∀ call ∈ stay, ¬ call.Leaves) {worker : Worker}
    {answers : List (AtcRes × Worker)} (hserve : serveAll (stay ++ [bye]) worker = some answers)
    (res : AtcRes) :
    ∃ got ended length, Ended answers got ended ∧
      ∀ {trace : List (NetworkEvent Bytes Nat × Network Bytes Nat VisitResult)}
        {n : Network Bytes Nat VisitResult},
        Run (NetworkStep Msgqueue.queueSize anyFits) (queueVisit (stay ++ [bye]) res worker)
            trace n →
          (∀ side slot message, .received side slot message ∈ events trace →
            message.length = slot) ∧
          ∃ rest, Run (NetworkStep Msgqueue.queueSize anyFits) n rest
              (Network.start (.done got) (.done ended)) ∧
            trace.length + rest.length = length := by
  obtain ⟨got, ended, hended, htalks⟩ := visit_talks leaves stays hserve res
  let fits : Nat → Bytes → Prop := fun slot message => message.length = slot
  have hsuits : ∀ data, Sized data → fits data.length data := fun _ _ => rfl
  have hmeets := (htalks queueStatus queueStatus_sends).overMessages hsuits
  have hroom : 0 < Msgqueue.queueSize := by decide
  obtain ⟨length, hcompleted⟩ := Meets.completed (ρ := VisitResult) hroom hmeets
  refine ⟨got, ended, length, hended, fun run => ?_⟩
  obtain ⟨hfits, rest, hrest, hlength⟩ := hcompleted run
  exact ⟨fun _ _ _ hmem => hfits.received_fits hmem, rest, hrest.anyFits, hlength⟩

omit [Platform] in
theorem visit_over_queues_visit :
    ∃ (_ : Platform) (answers : List (AtcRes × Worker)) (got : List (Int32 × AtcRes))
      (ended : VisitEnd) (length : Nat), Ended answers got ended ∧
      ∀ {trace : List (NetworkEvent Bytes Nat × Network Bytes Nat VisitResult)}
        {n : Network Bytes Nat VisitResult},
        Run (NetworkStep Msgqueue.queueSize anyFits)
          (queueVisit (visit.dropLast ++ [visit.getLast (by decide)]) zeroRes
            { counters := {}, disk := Disk.sound [] }) trace n →
          (∀ side slot message, .received side slot message ∈ events trace →
            message.length = slot) ∧
          ∃ rest, Run (NetworkStep Msgqueue.queueSize anyFits) n rest
              (Network.start (.done got) (.done ended)) ∧
            trace.length + rest.length = length := by
  let _ : Platform := x86
  obtain ⟨answers, hserve⟩ := serveAll_visit
  obtain ⟨got, ended, length, h⟩ :=
    visit_over_queues (by decide) (by decide +kernel) hserve zeroRes
  exact ⟨x86, answers, got, ended, length, h⟩

/-- **A visit over the shared memory.**  In any interleaving of the steps on the
rings the visit goes on to its end, and leaves the rings drained. -/
theorem visit_over_rings {stay : List Call} {bye : Call} (leaves : bye.Leaves)
    (stays : ∀ call ∈ stay, ¬ call.Leaves) {worker : Worker}
    {answers : List (AtcRes × Worker)} (hserve : serveAll (stay ++ [bye]) worker = some answers)
    (res : AtcRes) :
    ∃ got ended length, Ended answers got ended ∧
      ∀ (zone : Side → Nat → UInt8)
        {trace : List ((Side × BufferEvent UInt8) × RingNetwork UInt8 Unit VisitResult)}
        {s : RingNetwork UInt8 Unit VisitResult},
        Run (RingNetworkStep zoneSize) (ringVisit zone (stay ++ [bye]) res worker) trace s →
          ∃ rest t, Run (RingNetworkStep zoneSize) s rest t ∧ t.Finished zoneSize got ended ∧
            trace.length + rest.length = length := by
  obtain ⟨got, ended, hended, htalks⟩ := visit_talks leaves stays hserve res
  have hmeets := (htalks shmemStatus shmemStatus_sends).overShmem
  have hroom : 0 < zoneSize := by decide
  obtain ⟨length, hcompleted⟩ := Meets.ring_completed (ρ := VisitResult) hroom hmeets
  exact ⟨got, ended, 4 * length, hended, fun zone _ _ run => hcompleted zone run⟩

omit [Platform] in
theorem visit_over_rings_visit :
    ∃ (_ : Platform) (answers : List (AtcRes × Worker)) (got : List (Int32 × AtcRes))
      (ended : VisitEnd) (length : Nat), Ended answers got ended ∧
      ∀ (zone : Side → Nat → UInt8)
        {trace : List ((Side × BufferEvent UInt8) × RingNetwork UInt8 Unit VisitResult)}
        {s : RingNetwork UInt8 Unit VisitResult},
        Run (RingNetworkStep zoneSize)
          (ringVisit zone (visit.dropLast ++ [visit.getLast (by decide)]) zeroRes
            { counters := {}, disk := Disk.sound [] }) trace s →
          ∃ rest t, Run (RingNetworkStep zoneSize) s rest t ∧ t.Finished zoneSize got ended ∧
            trace.length + rest.length = length := by
  let _ : Platform := x86
  obtain ⟨answers, hserve⟩ := serveAll_visit
  obtain ⟨got, ended, length, h⟩ :=
    visit_over_rings (by decide) (by decide +kernel) hserve zeroRes
  exact ⟨x86, answers, got, ended, length, h⟩

/-- **A visit over FIFOs or a socket.**  However its messages are cut up and its steps
interleaved, every receive that returns has filled its buffer, with the next message
that the other side sent; no run of the visit goes on for ever, and every run goes on to
the same end, with nothing left on the way. -/
theorem visit_over_streams {medium : Medium} {capacity : Nat}
    (holds : medium.Holds capacity atcpMsgLen) {stay : List Call} {bye : Call}
    (leaves : bye.Leaves) (stays : ∀ call ∈ stay, ¬ call.Leaves) {worker : Worker}
    {answers : List (AtcRes × Worker)} (hserve : serveAll (stay ++ [bye]) worker = some answers)
    (res : AtcRes) :
    ∃ got ended, Ended answers got ended ∧
      Acc (fun m n => ∃ event, StreamStep medium capacity n event m)
        (streamVisit medium (stay ++ [bye]) res worker) ∧
      ∀ {trace : List (StreamEvent UInt8 × StreamNetwork UInt8 VisitResult)}
        {n : StreamNetwork UInt8 VisitResult},
        Run (StreamStep medium capacity) (streamVisit medium (stay ++ [bye]) res worker) trace n →
          (∀ event ∈ events trace, event.Whole) ∧ InOrder (events trace) ∧
          ∃ rest, Run (StreamStep medium capacity) n rest (.start (.done got) (.done ended)) := by
  obtain ⟨got, ended, hended, htalks⟩ := visit_talks leaves stays hserve res
  have suits : ∀ data, Sized data → Suits medium capacity data.length data := by
    intro data sized
    refine ⟨rfl, sized.pos, ?_⟩
    cases medium with
    | pipe => exact Nat.le_trans sized.le holds
    | socket => exact holds
  have hmeets := (htalks (streamStatus medium) (streamStatus_sends medium)).overMessages suits
  exact ⟨got, ended, hended, StreamStep.wellFounded.apply _,
    fun run => Meets.stream_completed (ρ := VisitResult) hmeets run⟩

omit [Platform] in
theorem visit_over_streams_visit :
    ∃ (_ : Platform) (answers : List (AtcRes × Worker)) (got : List (Int32 × AtcRes))
      (ended : VisitEnd), Ended answers got ended ∧
      Acc (fun m n => ∃ event, StreamStep .socket 1 n event m)
        (streamVisit .socket (visit.dropLast ++ [visit.getLast (by decide)]) zeroRes
          { counters := {}, disk := Disk.sound [] }) ∧
      ∀ {trace : List (StreamEvent UInt8 × StreamNetwork UInt8 VisitResult)}
        {n : StreamNetwork UInt8 VisitResult},
        Run (StreamStep .socket 1)
          (streamVisit .socket (visit.dropLast ++ [visit.getLast (by decide)]) zeroRes
            { counters := {}, disk := Disk.sound [] }) trace n →
          (∀ event ∈ events trace, event.Whole) ∧ InOrder (events trace) ∧
          ∃ rest, Run (StreamStep .socket 1) n rest (.start (.done got) (.done ended)) := by
  let _ : Platform := x86
  obtain ⟨answers, hserve⟩ := serveAll_visit
  have holds : Medium.socket.Holds 1 atcpMsgLen := Nat.one_pos
  obtain ⟨got, ended, h⟩ :=
    visit_over_streams holds (by decide) (by decide +kernel) hserve zeroRes
  exact ⟨x86, answers, got, ended, h⟩

end Visit

end AirTraffic.Server
