/-
  Transport/Msgqueue.lean --- how a client gets its message queues.

  WHAT THIS FILE IS FOR.  A client of the queue transport sends its pid on one
  shared queue, takes an acknowledgement from another, and opens the two queues
  that the server creates under its pid.  The acknowledgement does not say whom
  it answers, so any client that waits may take it, and a client that finds no
  queues returns 0 all the same.  Whoever takes an acknowledgement when the
  server has its queues ready gets valid descriptors (`connects_established`),
  and whoever takes one earlier may end up without (`unestablished_of_early`).
-/
import AirTraffic.Foundation.Transition
import Mathlib.Logic.Function.Basic

set_option autoImplicit false

namespace AirTraffic.Transport.Msgqueue

open AirTraffic.Foundation

/-- `QUEUE_SIZE` -/
def queueSize : Nat := 1

/-- The names `/Cli_in_%d` and `/Cli_out_%d`. -/
inductive Name where
  | cliIn (pid : Int)
  | cliOut (pid : Int)
  deriving DecidableEq

/-! ## The two calls -/

/-- Where `transport_accept` is. -/
inductive AcceptPoint where
  /-- In `mq_receive`. -/
  | receiving
  /-- Before `mq_open(cli_in, O_CREAT)`. -/
  | openingIn (childPid : Int)
  /-- Before `mq_open(cli_out, O_CREAT)`, with what the first one returned. -/
  | openingOut (childPid : Int) (cliIn : Option Name)
  /-- In `mq_send`. -/
  | sending (childPid : Int)
  /-- It returned -1. -/
  | failed
  deriving DecidableEq

/-- Where a client is in `transport_connect`; a descriptor that is -1 is `none`. -/
inductive ConnectPoint where
  /-- Before `mq_open` of the shared queues. -/
  | opening
  /-- In `mq_send`. -/
  | sending
  /-- In `mq_receive`. -/
  | receiving
  /-- Before `mq_open(cli_out)`. -/
  | openingOut
  /-- Before `mq_open(cli_in)`. -/
  | openingIn (mqueue0 : Option Name)
  /-- It returned 0. -/
  | connected (mqueue0 mqueue1 : Option Name)
  /-- It returned -1. -/
  | failed
  deriving DecidableEq

/-- The shared queues, the queues that exist, the server, and the clients by
their pids. -/
structure Queues where
  srvIn : List Int
  /-- Every message is "Accepted"; each stands here as the pid that was accepted. -/
  srvOut : List Int
  created : List Name
  accept : AcceptPoint
  connects : Int → ConnectPoint

/-- Behind `transport_serv_init`. -/
def Queues.start : Queues where
  srvIn := []
  srvOut := []
  created := []
  accept := .receiving
  connects := fun _ => .opening

namespace Queues

/-- Both queues named after the pid exist. -/
def HasQueues (s : Queues) (pid : Int) : Prop :=
  .cliIn pid ∈ s.created ∧ .cliOut pid ∈ s.created

/-- One client goes on. -/
def move (s : Queues) (pid : Int) (point : ConnectPoint) : Queues :=
  { s with connects := Function.update s.connects pid point }

/-- `mq_open` without `O_CREAT`; `ok` says that nothing else keeps it from opening. -/
def mqOpen (s : Queues) (name : Name) (ok : Bool) : Option Name :=
  if ok = true ∧ name ∈ s.created then some name else none

end Queues

inductive QueueEvent where
  | acceptReceive
  /-- `mq_receive` of the server returns -1, and leaves `child_pid` as it was. -/
  | acceptInterrupt (childPid : Int)
  | acceptOpenIn (ok : Bool)
  | acceptOpenOut (ok : Bool)
  | acceptSend (ok : Bool)
  | openSrv (pid : Int) (ok : Bool)
  | send (pid : Int) (ok : Bool)
  | receive (pid : Int)
  /-- `mq_receive` of the client returns -1. -/
  | interrupt (pid : Int)
  | openOut (pid : Int) (ok : Bool)
  /-- The last `mq_open`, and the calls of `mq_close`. -/
  | openIn (pid : Int) (ok : Bool)
  /-- A client that has returned calls `transport_connect` again. -/
  | again (pid : Int)

/-- One step of the server or of a client. -/
inductive QueueStep : Queues → QueueEvent → Queues → Prop
  | acceptReceive {s : Queues} {pid : Int} {rest : List Int} (accept : s.accept = .receiving)
      (srvIn : s.srvIn = pid :: rest) :
      QueueStep s .acceptReceive { s with srvIn := rest, accept := .openingIn pid }
  | acceptInterrupt {s : Queues} (childPid : Int) (accept : s.accept = .receiving) :
      -- the result is not looked at
      QueueStep s (.acceptInterrupt childPid) { s with accept := .openingIn childPid }
  | acceptOpenIn {s : Queues} {pid : Int} (accept : s.accept = .openingIn pid) :
      QueueStep s (.acceptOpenIn true)
        { s with
          created := .cliIn pid :: s.created
          accept := .openingOut pid (some (.cliIn pid)) }
  | acceptOpenInFails {s : Queues} {pid : Int} (accept : s.accept = .openingIn pid) :
      QueueStep s (.acceptOpenIn false) { s with accept := .openingOut pid none }
  | acceptOpenOut {s : Queues} {pid : Int} {cliIn : Option Name}
      (accept : s.accept = .openingOut pid cliIn) :
      QueueStep s (.acceptOpenOut true)
        { s with
          created := .cliOut pid :: s.created
          accept := if cliIn = none then .failed else .sending pid }
  | acceptOpenOutFails {s : Queues} {pid : Int} {cliIn : Option Name}
      (accept : s.accept = .openingOut pid cliIn) :
      QueueStep s (.acceptOpenOut false) { s with accept := .failed }
  | acceptSend {s : Queues} {pid : Int} (accept : s.accept = .sending pid)
      (room : s.srvOut.length < queueSize) :
      QueueStep s (.acceptSend true)
        { s with srvOut := s.srvOut ++ [pid], accept := .receiving }
  | acceptSendFails {s : Queues} {pid : Int} (accept : s.accept = .sending pid) :
      QueueStep s (.acceptSend false) { s with accept := .receiving }
  | openSrv {s : Queues} {pid : Int} (point : s.connects pid = .opening) :
      QueueStep s (.openSrv pid true) (s.move pid .sending)
  | openSrvFails {s : Queues} {pid : Int} (point : s.connects pid = .opening) :
      QueueStep s (.openSrv pid false) (s.move pid .failed)
  | send {s : Queues} {pid : Int} (point : s.connects pid = .sending)
      (room : s.srvIn.length < queueSize) :
      QueueStep s (.send pid true)
        ({ s with srvIn := s.srvIn ++ [pid] }.move pid .receiving)
  | sendFails {s : Queues} {pid : Int} (point : s.connects pid = .sending) :
      QueueStep s (.send pid false) (s.move pid .failed)
  | receive {s : Queues} {pid answered : Int} {rest : List Int}
      (point : s.connects pid = .receiving) (srvOut : s.srvOut = answered :: rest) :
      QueueStep s (.receive pid) ({ s with srvOut := rest }.move pid .openingOut)
  | interrupt {s : Queues} {pid : Int} (point : s.connects pid = .receiving) :
      -- the result is not looked at
      QueueStep s (.interrupt pid) (s.move pid .openingOut)
  | openOut {s : Queues} {pid : Int} (ok : Bool) (point : s.connects pid = .openingOut) :
      QueueStep s (.openOut pid ok) (s.move pid (.openingIn (s.mqOpen (.cliOut pid) ok)))
  | openIn {s : Queues} {pid : Int} {mqueue0 : Option Name} (ok : Bool)
      (point : s.connects pid = .openingIn mqueue0) :
      -- `perror` is all that happens if one of them is -1
      QueueStep s (.openIn pid ok)
        (s.move pid (.connected mqueue0 (s.mqOpen (.cliIn pid) ok)))
  | againConnected {s : Queues} {pid : Int} {mqueue0 mqueue1 : Option Name}
      (point : s.connects pid = .connected mqueue0 mqueue1) :
      QueueStep s (.again pid) (s.move pid .opening)
  | againFailed {s : Queues} {pid : Int} (point : s.connects pid = .failed) :
      QueueStep s (.again pid) (s.move pid .opening)

/-! ## Established connections -/

/-- Whose `transport_connect` returned 0 has valid descriptors of its two queues,
and the server has created these. -/
def Established (s : Queues) : Prop :=
  ∀ pid mqueue0 mqueue1, s.connects pid = .connected mqueue0 mqueue1 →
    s.HasQueues pid ∧ mqueue0 = some (.cliOut pid) ∧ mqueue1 = some (.cliIn pid)

/-- A client leaves its wait for an acknowledgement only when the server has
accepted its pid and has its queues ready; and nothing else keeps a client from
opening them. -/
def WaitsForQueues (s : Queues) : QueueEvent → Prop
  | .receive pid => s.HasQueues pid
  | .interrupt pid => s.HasQueues pid
  | .openOut _ ok => ok = true
  | .openIn _ ok => ok = true
  | _ => True

/-- The queues that the server has acknowledged, or is about to. -/
structure AcceptInv (s : Queues) : Prop where
  opened : ∀ pid name, s.accept = .openingOut pid (some name) → .cliIn pid ∈ s.created
  sending : ∀ pid, s.accept = .sending pid → s.HasQueues pid
  srvOut : ∀ pid ∈ s.srvOut, s.HasQueues pid

/-- A client that has waited finds its queues, and has what it opened. -/
def ClientHas (s : Queues) (pid : Int) : ConnectPoint → Prop
  | .openingOut => s.HasQueues pid
  | .openingIn mqueue0 => s.HasQueues pid ∧ mqueue0 = some (.cliOut pid)
  | .connected mqueue0 mqueue1 =>
      s.HasQueues pid ∧ mqueue0 = some (.cliOut pid) ∧ mqueue1 = some (.cliIn pid)
  | _ => True

/-! ## One step -/

theorem connects_move (s : Queues) (pid q : Int) (point : ConnectPoint) :
    (s.move pid point).connects q = if q = pid then point else s.connects q :=
  Function.update_apply s.connects pid point q

theorem mqOpen_of_mem {s : Queues} {name : Name} (h : name ∈ s.created) :
    s.mqOpen name true = some name := if_pos ⟨rfl, h⟩

/-- Queues are never unlinked. -/
theorem QueueStep.created_subset {s t : Queues} {e : QueueEvent} (step : QueueStep s e t) :
    s.created ⊆ t.created := by
  cases step with
  | acceptOpenIn | acceptOpenOut => exact List.subset_cons_self _ _
  | acceptReceive | acceptInterrupt | acceptOpenInFails | acceptOpenOutFails | acceptSend
  | acceptSendFails | openSrv | openSrvFails | send | sendFails | receive | interrupt | openOut
  | openIn | againConnected | againFailed => exact List.Subset.refl _

theorem HasQueues.mono {s t : Queues} {pid : Int} (h : s.HasQueues pid)
    (grows : s.created ⊆ t.created) : t.HasQueues pid :=
  ⟨grows h.1, grows h.2⟩

theorem ClientHas.mono {s t : Queues} {pid : Int} {point : ConnectPoint}
    (h : ClientHas s pid point) (grows : s.created ⊆ t.created) : ClientHas t pid point := by
  cases point with
  | openingOut => exact HasQueues.mono h grows
  | openingIn => exact h.imp_left fun hq => HasQueues.mono hq grows
  | connected => exact h.imp_left fun hq => HasQueues.mono hq grows
  | opening | sending | receiving | failed => trivial

/-- The server acknowledges a pid when its queues exist. -/
theorem AcceptInv.step {s t : Queues} {e : QueueEvent} (h : AcceptInv s)
    (step : QueueStep s e t) : AcceptInv t := by
  have hacks : ∀ pid ∈ s.srvOut, t.HasQueues pid :=
    fun pid hmem => HasQueues.mono (h.srvOut pid hmem) step.created_subset
  cases step with
  | acceptReceive | acceptInterrupt | acceptOpenOutFails | acceptSendFails =>
      exact ⟨by simp, by simp, hacks⟩
  | acceptOpenIn accept =>
      refine ⟨?_, by simp, hacks⟩
      intro pid name heq
      obtain ⟨rfl, _⟩ := AcceptPoint.openingOut.inj heq
      exact List.mem_cons_self
  | acceptOpenInFails accept => exact ⟨by simp, by simp, hacks⟩
  | @acceptOpenOut pid cliIn accept =>
      cases cliIn with
      | none => exact ⟨by simp, by simp, hacks⟩
      | some name =>
          refine ⟨by simp, ?_, hacks⟩
          intro other heq
          obtain rfl := AcceptPoint.sending.inj heq
          exact ⟨List.mem_cons_of_mem _ (h.opened pid name accept), List.mem_cons_self⟩
  | @acceptSend pid accept room =>
      refine ⟨by simp, by simp, ?_⟩
      intro other hmem
      rcases List.mem_append.mp hmem with hbefore | hnew
      · exact hacks other hbefore
      · obtain rfl := List.mem_singleton.mp hnew
        exact h.sending _ accept
  | @receive pid answered rest point srvOut =>
      refine ⟨h.opened, h.sending, ?_⟩
      intro other hmem
      exact hacks other (by rw [srvOut]; exact List.mem_cons_of_mem _ hmem)
  | openSrv | openSrvFails | send | sendFails | interrupt | openOut | openIn | againConnected
  | againFailed => exact ⟨h.opened, h.sending, hacks⟩

/-- A client that goes on has what it needs, and the others keep it. -/
theorem clientHas_update {s t : Queues} (h : ∀ q, ClientHas s q (s.connects q))
    (grows : s.created ⊆ t.created) {pid : Int} {point : ConnectPoint}
    (connects : t.connects = Function.update s.connects pid point)
    (self : ClientHas s pid point) (q : Int) : ClientHas t q (t.connects q) := by
  rw [connects, Function.update_apply]
  split
  next heq =>
    subst heq
    exact self.mono grows
  next => exact (h q).mono grows

theorem ClientHas.step {s t : Queues} {e : QueueEvent} (h : ∀ q, ClientHas s q (s.connects q))
    (step : QueueStep s e t) (waits : WaitsForQueues s e) (q : Int) :
    ClientHas t q (t.connects q) := by
  have grows := step.created_subset
  cases step with
  | acceptReceive | acceptInterrupt | acceptOpenIn | acceptOpenInFails | acceptOpenOut
  | acceptOpenOutFails | acceptSend | acceptSendFails => exact (h q).mono grows
  | openSrv | openSrvFails | send | sendFails | againConnected | againFailed =>
      exact clientHas_update h grows rfl trivial q
  | receive | interrupt => exact clientHas_update h grows rfl waits q
  | @openOut pid ok point =>
      obtain rfl : ok = true := waits
      have hpid := h pid
      rw [point] at hpid
      exact clientHas_update h grows rfl ⟨hpid, mqOpen_of_mem hpid.2⟩ q
  | @openIn pid mqueue0 ok point =>
      obtain rfl : ok = true := waits
      have hpid := h pid
      rw [point] at hpid
      exact clientHas_update h grows rfl ⟨hpid.1, hpid.2, mqOpen_of_mem hpid.1.1⟩ q

/-! ## Connecting -/

/-- What holds as long as clients wait for their queues. -/
structure QueueInv (s : Queues) : Prop where
  accept : AcceptInv s
  clients : ∀ pid, ClientHas s pid (s.connects pid)

theorem QueueInv.start : QueueInv Queues.start where
  accept := ⟨by simp [Queues.start], by simp [Queues.start], by simp [Queues.start]⟩
  clients := fun _ => trivial

theorem QueueInv.step {s t : Queues} {e : QueueEvent} (inv : QueueInv s)
    (step : QueueStep s e t) (waits : WaitsForQueues s e) : QueueInv t :=
  ⟨inv.accept.step step, ClientHas.step inv.clients step waits⟩

/-- The client that was accepted finds its queues when it takes the
acknowledgement, whatever the others did. -/
theorem hasQueues_of_own_ack {trace : List (QueueEvent × Queues)} {s : Queues}
    (run : Run QueueStep Queues.start trace s) {pid : Int} {rest : List Int}
    (srvOut : s.srvOut = pid :: rest) : s.HasQueues pid := by
  have inv := run.invariant AcceptInv (fun _ _ _ inv step => inv.step step) QueueInv.start.accept
  exact inv.srvOut pid (srvOut ▸ List.mem_cons_self)

/-- **When a connection is established.**  As long as no client takes an
acknowledgement before the server has its queues ready, in any interleaving. -/
theorem connects_established {trace : List (QueueEvent × Queues)} {t : Queues}
    (run : Run (Guarded QueueStep WaitsForQueues) Queues.start trace t) :
    ∀ v ∈ states Queues.start trace, Established v := by
  intro v hv
  have inv := run.of_mem_states QueueInv (fun _ _ _ inv step => inv.step step.1 step.2)
    QueueInv.start v hv
  intro pid mqueue0 mqueue1 point
  have hpid := inv.clients pid
  rwa [point] at hpid

/-- A client that takes an acknowledgement earlier can go on and return 0
without its queues. -/
theorem unestablished_of_early {s t : Queues} {pid : Int} (step : QueueStep s (.receive pid) t)
    (early : ¬ WaitsForQueues s (.receive pid)) :
    ∃ trace u, Run QueueStep t trace u ∧ ¬ Established u := by
  cases step with
  | @receive _ answered rest point srvOut =>
      have hopen := @QueueStep.openOut ({ s with srvOut := rest }.move pid .openingOut) pid true
        (by rw [connects_move, if_pos rfl])
      have hreturn := @QueueStep.openIn (({ s with srvOut := rest }.move pid .openingOut).move pid
          (.openingIn (({ s with srvOut := rest }.move pid .openingOut).mqOpen (.cliOut pid) true)))
        pid _ true (by rw [connects_move, if_pos rfl])
      refine ⟨_, _, .cons hopen (.cons hreturn (.nil _)), ?_⟩
      intro hestablished
      exact early (hestablished pid _ _ (by rw [connects_move, if_pos rfl])).1

/-- Client 8 asks while the server is busy with client 7, and waits for its own
acknowledgement. -/
theorem exists_two_connects : ∃ (trace : List (QueueEvent × Queues)) (t : Queues),
    Run (Guarded QueueStep WaitsForQueues) Queues.start trace t ∧
      t.connects 7 = .connected (some (.cliOut 7)) (some (.cliIn 7)) ∧
      t.connects 8 = .connected (some (.cliOut 8)) (some (.cliIn 8)) :=
  ⟨_, _, .cons ⟨@QueueStep.openSrv _ 7 rfl, trivial⟩
    (.cons ⟨@QueueStep.openSrv _ 8 rfl, trivial⟩
    (.cons ⟨@QueueStep.send _ 7 rfl (by decide), trivial⟩
    (.cons ⟨.acceptReceive rfl rfl, trivial⟩
    (.cons ⟨@QueueStep.send _ 8 rfl (by decide), trivial⟩
    (.cons ⟨.acceptOpenIn rfl, trivial⟩ (.cons ⟨.acceptOpenOut rfl, trivial⟩
    (.cons ⟨.acceptSend rfl (by decide), trivial⟩
    (.cons ⟨@QueueStep.receive _ 7 _ _ rfl rfl, by decide, by decide⟩
    (.cons ⟨.acceptReceive rfl rfl, trivial⟩ (.cons ⟨@QueueStep.openOut _ 7 true rfl, rfl⟩
    (.cons ⟨.acceptOpenIn rfl, trivial⟩ (.cons ⟨.acceptOpenOut rfl, trivial⟩
    (.cons ⟨@QueueStep.openIn _ 7 _ true rfl, rfl⟩
    (.cons ⟨.acceptSend rfl (by decide), trivial⟩
    (.cons ⟨@QueueStep.receive _ 8 _ _ rfl rfl, by decide, by decide⟩
    (.cons ⟨@QueueStep.openOut _ 8 true rfl, rfl⟩
    (.cons ⟨@QueueStep.openIn _ 8 _ true rfl, rfl⟩ (.nil _)))))))))))))))))), rfl, rfl⟩

theorem two_connects_established : ∃ (trace : List (QueueEvent × Queues)) (t : Queues),
    t.connects 7 = .connected (some (.cliOut 7)) (some (.cliIn 7)) ∧
      t.connects 8 = .connected (some (.cliOut 8)) (some (.cliIn 8)) ∧
      ∀ v ∈ states Queues.start trace, Established v := by
  obtain ⟨trace, t, run, hfirst, hsecond⟩ := exists_two_connects
  exact ⟨trace, t, hfirst, hsecond, connects_established run⟩

/-- Two clients: the second one takes the acknowledgement of the first. -/
theorem exists_foreign_ack : ∃ (trace : List (QueueEvent × Queues)) (t : Queues),
    Run QueueStep Queues.start trace t ∧ t.connects 8 = .connected none none :=
  ⟨_, _, .cons (@QueueStep.openSrv _ 7 rfl) (.cons (@QueueStep.openSrv _ 8 rfl)
    (.cons (@QueueStep.send _ 7 rfl (by decide)) (.cons (.acceptReceive rfl rfl)
      (.cons (@QueueStep.send _ 8 rfl (by decide)) (.cons (.acceptOpenIn rfl)
        (.cons (.acceptOpenOut rfl) (.cons (.acceptSend rfl (by decide))
          (.cons (@QueueStep.receive _ 8 _ _ rfl rfl) (.cons (@QueueStep.openOut _ 8 true rfl)
            (.cons (@QueueStep.openIn _ 8 _ true rfl) (.nil _))))))))))), rfl⟩

theorem foreign_ack_unestablished :
    ¬ ∀ (trace : List (QueueEvent × Queues)) (t : Queues), Run QueueStep Queues.start trace t →
      ∀ v ∈ states Queues.start trace, Established v := by
  intro hestablished
  obtain ⟨trace, t, run, hconnected⟩ := exists_foreign_ack
  have hlast := hestablished trace t run t run.mem_states 8 none none hconnected
  exact absurd hlast.2.1 (by simp)

end AirTraffic.Transport.Msgqueue
