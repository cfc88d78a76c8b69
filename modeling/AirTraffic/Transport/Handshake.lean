/-
  Transport/Handshake.lean --- what a client of the FIFOs is connected to.

  WHAT THIS FILE IS FOR.  A client tells the server the name of its FIFO, and the
  server puts the name of another one into it.  Any number of clients do this at the
  same time, and the server leaves off at any failure but one.  What is in the FIFO
  of a client is added to the calls of `Fifo.lean` here.  Then client and server
  agree: a client that is connected reads what the server writes for it, and the
  other way round, and while the names are distinct no other connection has a part
  in it (`connections_private`).

  THE EXCEPTION.  The client does not look at the result of its `read`.  If it fails,
  or finds the end of the file, the buffer still has the client's own name, and the
  client is connected to itself.
-/
import AirTraffic.Transport.Fifo
import Mathlib.Data.List.Nodup

set_option autoImplicit false

namespace AirTraffic.Transport.Fifo

open AirTraffic.Foundation

/-! ## What is in the FIFOs -/

/-- The calls, and the messages in the FIFO of each path. -/
structure Handshake where
  fifos : Fifos
  pipes : Bytes → List Bytes

def Handshake.start (files : List Bytes) : Handshake where
  fifos := .start files
  pipes := fun _ => []

/-- Events that open a path, or that write to a FIFO or read from it. -/
def FifoEvent.Carries : FifoEvent → Prop
  | .acceptOpenOut true => True
  | .acceptAnswer true => True
  | .receive _ _ => True
  | _ => False

/-- What the calls do to the FIFOs. -/
inductive Carried (s : Fifos) (pipes : Bytes → List Bytes) :
    FifoEvent → (Bytes → List Bytes) → Prop
  /-- No file has an empty path. -/
  | opened {pid : Int32} {nameBuffer : Bytes} (accept : s.accept = .openingOut pid nameBuffer)
      (path : cstr nameBuffer ≠ []) : Carried s pipes (.acceptOpenOut true) pipes
  | answered {newServOut nameBuffer : Bytes}
      (accept : s.accept = .answering (some newServOut) nameBuffer) :
      Carried s pipes (.acceptAnswer true)
        (Function.update pipes newServOut (pipes newServOut ++ [nameBuffer]))
  | received {pid : Int32} {newCliIn nameBuffer data : Bytes} {rest : List Bytes}
      (point : s.connects pid = .receiving newCliIn nameBuffer)
      (pipe : pipes newCliIn = data :: rest) :
      Carried s pipes (.receive pid data) (Function.update pipes newCliIn rest)
  /-- `read` fails, or finds the end of the file. -/
  | receivedNothing (pid : Int32) : Carried s pipes (.receive pid []) pipes
  | other {e : FifoEvent} (h : ¬ e.Carries) : Carried s pipes e pipes

/-- One step, with what it does to the FIFOs. -/
def HandshakeStep (s : Handshake) (e : FifoEvent) (t : Handshake) : Prop :=
  FifoStep s.fifos e t.fifos ∧ Carried s.fifos s.pipes e t.pipes

/-- The server does not fail behind its answer. -/
def StaysToOpen (_ : Handshake) (e : FifoEvent) : Prop := e ≠ .acceptOpenIn false

/-! ## Agreement -/

/-- The FIFO of a client: a slash and its pid. -/
def clientPath (pid : Int32) : Bytes := 47 :: decimal pid.toInt

/-- The `read` of a client finds a message, if it may not come to nothing. -/
def FindsMessage (finds : Int32 → Prop) (_ : Handshake) (e : FifoEvent) : Prop :=
  ∀ pid, finds pid → e ≠ .receive pid []

namespace Fifos

/-- The server has connected these two FIFOs, or is about to. -/
def Answered (s : Fifos) (toClient toServer : Bytes) : Prop :=
  { fifoFd0 := toServer, fifoFd1 := toClient } ∈ s.accepted ∨
    ∃ nameBuffer, s.accept = .openingIn toClient nameBuffer ∧ cstr nameBuffer = toServer

/-- What a client has got was answered to it, or is its own name. -/
def Meets (s : Fifos) (finds : Int32 → Prop) (pid : Int32) (toClient toServer : Bytes) : Prop :=
  s.Answered toClient toServer ∨
    ¬ finds pid ∧ toClient = clientPath pid ∧ toServer = clientPath pid

/-- What a client has in its buffer: its own name, until it has read another one. -/
def Agrees (s : Fifos) (finds : Int32 → Prop) (pid : Int32) : ConnectPoint → Prop
  | .sending nameBuffer => cstr nameBuffer = clientPath pid
  | .openingIn nameBuffer => cstr nameBuffer = clientPath pid
  | .receiving newCliIn nameBuffer =>
      newCliIn = clientPath pid ∧ cstr nameBuffer = clientPath pid
  | .openingOut newCliIn nameBuffer => s.Meets finds pid newCliIn (cstr nameBuffer)
  | .connected addr => s.Meets finds pid addr.fifoFd0 addr.fifoFd1
  | _ => True

variable {s t : Fifos} {e : FifoEvent} {toClient toServer : Bytes} {finds : Int32 → Prop}
  {pid : Int32}

/-- What was answered stays answered. -/
theorem Answered.step (h : s.Answered toClient toServer) (step : FifoStep s e t)
    (stays : e ≠ .acceptOpenIn false) : t.Answered toClient toServer := by
  rcases h with hdone | ⟨buffer, hopening, hname⟩
  · left
    cases step with
    | acceptOpenIn accept => exact List.mem_append_left _ hdone
    | _ => exact hdone
  · cases step with
    | acceptOpenIn accept =>
        rw [accept] at hopening
        obtain ⟨rfl, rfl⟩ := AcceptPoint.openingIn.inj hopening
        exact Or.inl (List.mem_append_right _ (List.mem_singleton.mpr (by rw [hname])))
    | acceptOpenInFails accept => exact absurd rfl stays
    | acceptReceive accept | acceptNothing accept | acceptOpenOut ok accept
    | acceptName mkfifo accept | acceptAnswer accept | acceptAnswerFails accept =>
        rw [accept] at hopening
        exact AcceptPoint.noConfusion hopening
    | _ => exact Or.inr ⟨buffer, hopening, hname⟩

theorem Agrees.step {point : ConnectPoint} (h : s.Agrees finds pid point)
    (step : FifoStep s e t) (stays : e ≠ .acceptOpenIn false) : t.Agrees finds pid point := by
  cases point with
  | openingOut newCliIn nameBuffer => exact Or.imp_left (fun h => h.step step stays) h
  | connected addr => exact Or.imp_left (fun h => h.step step stays) h
  | sending | openingIn | receiving => exact h
  | opening | naming | failed => trivial

end Fifos

/-- What is in a FIFO was in it before, or has just been answered. -/
theorem Carried.mem {s : Fifos} {e : FifoEvent} {pipes pipes' : Bytes → List Bytes}
    (carried : Carried s pipes e pipes') {path message : Bytes} (hmem : message ∈ pipes' path) :
    message ∈ pipes path ∨
      e = .acceptAnswer true ∧ s.accept = .answering (some path) message := by
  cases carried with
  | opened accept path => exact Or.inl hmem
  | receivedNothing => exact Or.inl hmem
  | other h => exact Or.inl hmem
  | received point pipe =>
      rw [Function.update_apply] at hmem
      split at hmem
      · rename_i hpath
        rw [hpath, pipe]
        exact Or.inl (List.mem_cons_of_mem _ hmem)
      · exact Or.inl hmem
  | answered accept =>
      rw [Function.update_apply] at hmem
      split at hmem
      · rename_i hpath
        rcases List.mem_append.mp hmem with hbefore | hnew
        · exact Or.inl (hpath ▸ hbefore)
        · rw [List.mem_singleton.mp hnew, hpath]
          exact Or.inr ⟨rfl, accept⟩
      · exact Or.inl hmem

/-- What is received was in the FIFO, or nothing is. -/
theorem Carried.mem_received {s : Fifos} {pid : Int32} {newCliIn nameBuffer data : Bytes}
    {pipes pipes' : Bytes → List Bytes} (carried : Carried s pipes (.receive pid data) pipes')
    (point : s.connects pid = .receiving newCliIn nameBuffer) :
    data ∈ pipes newCliIn ∨ data = [] := by
  cases carried with
  | received here pipe =>
      rw [point] at here
      obtain ⟨rfl, rfl⟩ := ConnectPoint.receiving.inj here
      rw [pipe]
      exact Or.inl List.mem_cons_self
  | receivedNothing => exact Or.inr rfl
  | other h => exact absurd trivial h

/-- What every run keeps: what is in a FIFO was answered to it. -/
structure Handshake.Agrees (finds : Int32 → Prop) (s : Handshake) : Prop where
  buffers : FifoInv s.fifos
  pipes : ∀ path, ∀ message ∈ s.pipes path, message.length = maxFifoName ∧
    s.fifos.Answered path (cstr message)
  connects : ∀ pid, s.fifos.Agrees finds pid (s.fifos.connects pid)

theorem Handshake.Agrees.start (finds : Int32 → Prop) (files : List Bytes) :
    (Handshake.start files).Agrees finds where
  buffers := FifoInv.start files
  pipes := fun _ _ hmem => absurd hmem List.not_mem_nil
  connects := fun _ => trivial

/-- One client goes on. -/
theorem agrees_move {finds : Int32 → Prop} {s t : Fifos} {pid : Int32} {point : ConnectPoint}
    (connects : t.connects = Function.update s.connects pid point)
    (others : ∀ q, t.Agrees finds q (s.connects q)) (self : t.Agrees finds pid point)
    (q : Int32) : t.Agrees finds q (t.connects q) := by
  rw [connects, Function.update_apply]
  split
  · rename_i heq
    exact heq ▸ self
  · exact others q

/-- The message that a client reads fills its buffer. -/
theorem cstr_received {nameBuffer message : Bytes} (hbuffer : nameBuffer.length = maxFifoName)
    (hmessage : message.length = maxFifoName) : writeAt nameBuffer 0 message = message :=
  writeAt_zero_of_length_le (Nat.le_of_eq (hbuffer.trans hmessage.symm))

/-- What a `read` that comes to nothing leaves. -/
theorem writeAt_nothing (buffer : Bytes) : writeAt buffer 0 [] = buffer := by
  simp [writeAt, zeros]

/-- **Every step keeps the agreement.** -/
theorem Handshake.Agrees.step {finds : Int32 → Prop} {s t : Handshake} {e : FifoEvent}
    (agrees : s.Agrees finds) (step : HandshakeStep s e t) (stays : StaysToOpen s e)
    (hfinds : FindsMessage finds s e) : t.Agrees finds := by
  obtain ⟨hstep, hcarried⟩ := step
  have hbuffers := agrees.buffers
  have hothers : ∀ q, t.fifos.Agrees finds q (s.fifos.connects q) :=
    fun q => (agrees.connects q).step hstep stays
  have hkept : ∀ path, ∀ message ∈ s.pipes path, message.length = maxFifoName ∧
      t.fifos.Answered path (cstr message) :=
    fun path message hmem =>
      ⟨(agrees.pipes path message hmem).1, (agrees.pipes path message hmem).2.step hstep stays⟩
  refine ⟨agrees.buffers.step hstep, ?_, ?_⟩
  · -- what is in the FIFOs
    intro path message hmem
    rcases hcarried.mem hmem with hbefore | ⟨rfl, accept⟩
    · exact hkept path message hbefore
    · have hlength : message.length = maxFifoName := by
        have hholds := hbuffers.accept
        rwa [accept] at hholds
      refine ⟨hlength, Or.inr ⟨message, ?_, rfl⟩⟩
      obtain ⟨fifos, pipes⟩ := t
      cases hstep with
      | acceptAnswer here =>
          rw [here] at accept
          obtain ⟨hout, rfl⟩ := AcceptPoint.answering.inj accept
          obtain rfl := Option.some.inj hout
          rfl
  · -- what the clients have got
    obtain ⟨fifos, pipes⟩ := t
    cases hstep with
    | acceptReceive | acceptNothing | acceptFails | acceptOpenOut | acceptName | acceptAnswer
    | acceptAnswerFails | acceptOpenIn | acceptOpenInFails | lose => exact hothers
    | openInc ok positive point =>
        refine agrees_move rfl hothers ?_
        split <;> trivial
    | @name pid mkfifo point =>
        refine agrees_move rfl hothers ?_
        split
        · trivial
        · exact (holds_zeros.printName srvToCli.tail pid).2.1
    | @send pid nameBuffer point =>
        have hown := hothers pid
        rw [point] at hown
        exact agrees_move rfl hothers hown
    | sendFails point => exact agrees_move rfl hothers trivial
    | @openIn pid nameBuffer ok point =>
        have hown := hothers pid
        rw [point] at hown
        refine agrees_move rfl hothers ?_
        split
        · exact ⟨hown, hown⟩
        · trivial
    | @receive pid newCliIn nameBuffer data point short =>
        refine agrees_move rfl hothers ?_
        rcases hcarried.mem_received point with hdata | rfl
        · obtain ⟨hlength, hanswered⟩ := hkept newCliIn data hdata
          have hbuffer : nameBuffer.length = maxFifoName := by
            have hholds := hbuffers.connects pid
            rwa [point] at hholds
          rw [Fifos.Agrees, cstr_received hbuffer hlength]
          exact Or.inl hanswered
        · have hown := hothers pid
          rw [point] at hown
          rw [Fifos.Agrees, writeAt_nothing]
          exact Or.inr ⟨fun hpid => hfinds pid hpid rfl, hown⟩
    | @openOut pid newCliIn nameBuffer ok point =>
        have hgot := hothers pid
        rw [point] at hgot
        refine agrees_move rfl hothers ?_
        split
        · exact hgot
        · trivial

/-! ## Privacy -/

theorem clientPath_inj {pid q : Int32} : clientPath pid = clientPath q ↔ pid = q := by
  rw [clientPath, clientPath, List.cons_inj_right, decimal_inj, Int32.toInt_inj]

/-- The FIFO of the client that the server is at. -/
def AcceptPoint.toClient : AcceptPoint → List Bytes
  | .receiving => []
  -- it was not read if the buffer is empty
  | .openingOut _ nameBuffer => if cstr nameBuffer = [] then [] else [cstr nameBuffer]
  | .naming _ newServOut _ => newServOut.toList
  | .answering newServOut _ => newServOut.toList
  | .openingIn newServOut _ => [newServOut]

/-- The FIFO that the server has made for the client it is at. -/
def AcceptPoint.toServer : AcceptPoint → List Bytes
  | .answering _ nameBuffer => [cstr nameBuffer]
  | .openingIn _ nameBuffer => [cstr nameBuffer]
  | _ => []

/-- The client has written its name, or never will. -/
def ConnectPoint.HasSent : ConnectPoint → Prop
  | .opening => False
  | .naming => False
  | .sending _ => False
  | _ => True

namespace Fifos

/-- The paths that calls for this prefix have made. -/
def madeFor (s : Fifos) (name : Bytes) : List Bytes :=
  (s.made.filter fun call => call.name = name).map Call.path

/-- The FIFOs of clients that the server has been told of, those it is done with
first. -/
def toClients (s : Fifos) : List Bytes :=
  s.accepted.map Addr.fifoFd1 ++ s.accept.toClient ++ s.inc.map fun message => cstr message.2

/-- The FIFOs that the server has made for them. -/
def toServers (s : Fifos) : List Bytes := s.accepted.map Addr.fifoFd0 ++ s.accept.toServer

/-- Each client is at most once with the server, and each FIFO of the server is for
one of them. -/
structure Private (s : Fifos) : Prop where
  sending : ∀ pid nameBuffer, s.connects pid = .sending nameBuffer →
    cstr nameBuffer = clientPath pid ∧ clientPath pid ∈ s.madeFor srvToCli
  once : s.toClients.Nodup
  sent : ∀ path ∈ s.toClients, ∃ pid, path = clientPath pid ∧ (s.connects pid).HasSent ∧
    path ∈ s.madeFor srvToCli
  served : s.toServers.Sublist (s.madeFor cliToSrv)

theorem madeFor_log (s : Fifos) (held : Int32) (name : Bytes) (index : Int32) (named : Named)
    (name' : Bytes) :
    (s.log held name index named).madeFor name' =
      s.madeFor name' ++
        if named.status = 0 ∧ name = name' then [cstr named.buff] else [] := by
  rw [madeFor, madeFor, made, made, log, List.filter_append, List.filter_append,
    List.map_append]
  congr 1
  by_cases hstatus : named.status = 0
  · by_cases hname : name = name'
    · simp [hstatus, hname]
    · simp [hstatus, hname]
  · simp [hstatus]

variable {s t : Fifos} {e : FifoEvent}

/-- Calls are added to those there were. -/
theorem madeFor_kept (step : FifoStep s e t) (name : Bytes) :
    s.madeFor name <+: t.madeFor name := by
  cases step with
  | acceptName mkfifo accept =>
      have hlog := fun held index named => (s.madeFor_log held cliToSrv index named name).symm
      exact ⟨_, hlog _ _ _⟩
  | @name pid mkfifo point =>
      have hlog := fun held index named => (s.madeFor_log held srvToCli index named name).symm
      exact ⟨_, hlog _ _ _⟩
  | _ => exact List.prefix_refl _

theorem hasSent_move {pid q : Int32} {point : ConnectPoint}
    (goes : (s.connects pid).HasSent → point.HasSent) (h : (s.connects q).HasSent) :
    (Function.update s.connects pid point q).HasSent := by
  rw [Function.update_apply]
  split
  · rename_i heq
    exact goes (heq ▸ h)
  · exact h

theorem hasSent_step (step : FifoStep s e t) {q : Int32} (h : (s.connects q).HasSent) :
    (t.connects q).HasSent := by
  cases step with
  | openInc ok positive point =>
      exact hasSent_move (fun hsent => by rw [point] at hsent; exact hsent.elim) h
  | @name pid mkfifo point =>
      refine hasSent_move (fun hsent => ?_) h
      have hnaming : (s.connects pid).HasSent := hsent
      rw [point] at hnaming
      exact hnaming.elim
  | send point => exact hasSent_move (fun _ => trivial) h
  | sendFails point => exact hasSent_move (fun _ => trivial) h
  | openIn ok point => exact hasSent_move (fun _ => by split <;> trivial) h
  | receive point short => exact hasSent_move (fun _ => trivial) h
  | openOut ok point => exact hasSent_move (fun _ => by split <;> trivial) h
  | _ => exact h

theorem status_getFifoName {files : List Bytes} {mkfifo : Bool} {buff name : Bytes}
    {newFifoIndex : Int32} (h : (getFifoName files mkfifo buff name newFifoIndex).status ≠ -1) :
    (getFifoName files mkfifo buff name newFifoIndex).status = 0 := by
  simp only [getFifoName] at h ⊢
  split at h
  · exact absurd rfl h
  · rename_i hmade
    rw [if_neg hmade]

/-- What a step does to the FIFOs of clients that the server has been told of. -/
theorem toClients_step {pipes pipes' : Bytes → List Bytes} (inv : FifoInv s) (hprivate : s.Private)
    (step : FifoStep s e t) (carried : Carried s pipes e pipes') :
    t.toClients.Sublist s.toClients ∨
      ∃ pid nameBuffer, e = .send pid true ∧ s.connects pid = .sending nameBuffer ∧
        t.toClients = s.toClients ++ [cstr nameBuffer] := by
  have hdrop : ∀ {before here after : List Bytes},
      (before ++ [] ++ after).Sublist (before ++ here ++ after) :=
    fun {_ here _} =>
      ((List.Sublist.refl _).append (List.nil_sublist here)).append (List.Sublist.refl _)
  cases step with
  | @send pid nameBuffer point =>
      refine Or.inr ⟨pid, nameBuffer, rfl, point, ?_⟩
      simp [toClients, move]
  | @acceptReceive pid message rest accept inc =>
      left
      have holds := inv.inc _ (inc ▸ List.mem_cons_self)
      have hpath : cstr message ≠ [] := by
        have hmem : cstr message ∈ s.toClients := by simp [toClients, inc]
        obtain ⟨pid, heq, _⟩ := hprivate.sent _ hmem
        rw [heq, clientPath]
        exact List.cons_ne_nil _ _
      have hread : writeAt (zeros maxFifoName) 0 message = message :=
        writeAt_zero_of_length_le (by rw [length_zeros, holds.1])
      simp [toClients, accept, inc, AcceptPoint.toClient, hread, hpath]
  | acceptNothing accept =>
      left
      have hnone : cstr (zeros maxFifoName) = [] := cstr_zeros maxFifoName
      simp [toClients, accept, AcceptPoint.toClient, hnone]
  | @acceptOpenOut pid nameBuffer ok accept =>
      left
      cases ok with
      | true =>
          have hpath : cstr nameBuffer ≠ [] := by
            cases carried with
            | opened here path =>
                rw [accept] at here
                obtain ⟨_, rfl⟩ := AcceptPoint.openingOut.inj here
                exact path
            | other h => exact absurd trivial h
          simp [toClients, accept, AcceptPoint.toClient, hpath]
      | false =>
          simp only [toClients, accept]
          exact hdrop
  | @acceptName pid newServOut nameBuffer mkfifo accept =>
      left
      simp only [toClients, Fifos.acceptName, log, accept]
      by_cases hfailed :
          (getFifoName s.files mkfifo nameBuffer cliToSrv s.newFifoIndex).status = -1
      · rw [if_pos hfailed]
        exact hdrop
      · rw [if_neg hfailed]
        exact List.Sublist.refl _
  | acceptAnswer accept => exact Or.inl (by simp [toClients, accept, AcceptPoint.toClient])
  | acceptAnswerFails accept | acceptOpenInFails accept =>
      left
      simp only [toClients, accept]
      exact hdrop
  | acceptOpenIn accept => exact Or.inl (by simp [toClients, accept, AcceptPoint.toClient])
  | lose =>
      left
      exact (List.Sublist.refl _).append (List.nil_sublist _)
  | acceptFails | openInc | name | sendFails | openIn | receive | openOut =>
      exact Or.inl (List.Sublist.refl _)

/-- What the server has made, it has made for a client it is at or was at. -/
theorem served_step (served : s.toServers.Sublist (s.madeFor cliToSrv)) (step : FifoStep s e t) :
    t.toServers.Sublist (t.madeFor cliToSrv) := by
  have hkept := served.trans (madeFor_kept step cliToSrv).sublist
  have hdone : (s.accepted.map Addr.fifoFd0).Sublist s.toServers := List.sublist_append_left _ _
  cases step with
  | @acceptName pid newServOut nameBuffer mkfifo accept =>
      have hmade := s.madeFor_log pid cliToSrv s.newFifoIndex
        (getFifoName s.files mkfifo nameBuffer cliToSrv s.newFifoIndex) cliToSrv
      by_cases hfailed :
          (getFifoName s.files mkfifo nameBuffer cliToSrv s.newFifoIndex).status = -1
      · have hnone : (s.acceptName mkfifo pid newServOut nameBuffer).toServers =
            s.accepted.map Addr.fifoFd0 := by
          simp [toServers, Fifos.acceptName, log, hfailed, AcceptPoint.toServer]
        rw [hnone]
        exact hdone.trans hkept
      · have hone : (s.acceptName mkfifo pid newServOut nameBuffer).toServers =
            s.accepted.map Addr.fifoFd0 ++
              [cstr (getFifoName s.files mkfifo nameBuffer cliToSrv s.newFifoIndex).buff] := by
          simp [toServers, Fifos.acceptName, log, hfailed, AcceptPoint.toServer]
        have hmade' : (s.acceptName mkfifo pid newServOut nameBuffer).madeFor cliToSrv =
            s.madeFor cliToSrv ++
              [cstr (getFifoName s.files mkfifo nameBuffer cliToSrv s.newFifoIndex).buff] := by
          rw [if_pos ⟨status_getFifoName hfailed, rfl⟩] at hmade
          exact hmade
        rw [hone, hmade']
        exact (hdone.trans served).append (List.Sublist.refl _)
  | acceptReceive accept | acceptNothing accept | acceptOpenOut ok accept
  | acceptAnswerFails accept | acceptOpenInFails accept =>
      refine List.Sublist.trans ?_ hkept
      simp [toServers, accept, AcceptPoint.toServer]
  | acceptAnswer accept =>
      simpa [toServers, accept, AcceptPoint.toServer] using hkept
  | acceptOpenIn accept =>
      simpa [toServers, accept, AcceptPoint.toServer] using hkept
  | acceptFails | openInc | name | send | sendFails | openIn | receive | openOut | lose =>
      exact hkept

/-- One client goes on, to where it does not write its name. -/
theorem sending_move {pid : Int32} {point : ConnectPoint}
    (other : ∀ nameBuffer, point ≠ .sending nameBuffer) {q : Int32} {nameBuffer : Bytes}
    (h : Function.update s.connects pid point q = .sending nameBuffer) :
    s.connects q = .sending nameBuffer := by
  rw [Function.update_apply] at h
  split at h
  · exact absurd h (other nameBuffer)
  · exact h

/-- What a client writes is its name, and the FIFO of that name has been made. -/
theorem sending_step (sending : ∀ pid nameBuffer, s.connects pid = .sending nameBuffer →
      cstr nameBuffer = clientPath pid ∧ clientPath pid ∈ s.madeFor srvToCli)
    (step : FifoStep s e t) {q : Int32} {nameBuffer : Bytes}
    (h : t.connects q = .sending nameBuffer) :
    cstr nameBuffer = clientPath q ∧ clientPath q ∈ t.madeFor srvToCli := by
  have hkept : s.connects q = .sending nameBuffer →
      cstr nameBuffer = clientPath q ∧ clientPath q ∈ t.madeFor srvToCli := fun h =>
    ⟨(sending q nameBuffer h).1, (madeFor_kept step srvToCli).subset (sending q nameBuffer h).2⟩
  cases step with
  | openInc ok positive point =>
      refine hkept (sending_move (fun buffer heq => ?_) h)
      split at heq <;> exact ConnectPoint.noConfusion heq
  | send point => exact hkept (sending_move (fun _ heq => ConnectPoint.noConfusion heq) h)
  | sendFails point => exact hkept (sending_move (fun _ heq => ConnectPoint.noConfusion heq) h)
  | openIn ok point =>
      refine hkept (sending_move (fun buffer heq => ?_) h)
      split at heq <;> exact ConnectPoint.noConfusion heq
  | receive point short =>
      exact hkept (sending_move (fun _ heq => ConnectPoint.noConfusion heq) h)
  | openOut ok point =>
      refine hkept (sending_move (fun buffer heq => ?_) h)
      split at heq <;> exact ConnectPoint.noConfusion heq
  | @name pid mkfifo point =>
      have hupdate : Function.update s.connects pid
          (if (getFifoName s.files mkfifo (zeros maxFifoName) srvToCli pid).status = -1 then
              .failed
            else .sending (getFifoName s.files mkfifo (zeros maxFifoName) srvToCli pid).buff) q =
          .sending nameBuffer := h
      by_cases hself : q = pid
      · subst hself
        rw [Function.update_self] at hupdate
        by_cases hfailed :
            (getFifoName s.files mkfifo (zeros maxFifoName) srvToCli q).status = -1
        · rw [if_pos hfailed] at hupdate
          exact ConnectPoint.noConfusion hupdate
        · rw [if_neg hfailed] at hupdate
          obtain rfl := ConnectPoint.sending.inj hupdate
          have hname : cstr (getFifoName s.files mkfifo (zeros maxFifoName) srvToCli q).buff =
              clientPath q := (holds_zeros.printName srvToCli.tail q).2.1
          have hmade := s.madeFor_log 0 srvToCli q
            (getFifoName s.files mkfifo (zeros maxFifoName) srvToCli q) srvToCli
          rw [if_pos ⟨status_getFifoName hfailed, rfl⟩, hname] at hmade
          have hmade' : (s.connectName mkfifo q).madeFor srvToCli =
              s.madeFor srvToCli ++ [clientPath q] := hmade
          refine ⟨hname, ?_⟩
          rw [hmade']
          exact List.mem_append_right _ (List.mem_singleton.mpr rfl)
      · rw [Function.update_of_ne hself] at hupdate
        exact hkept hupdate
  | acceptReceive | acceptNothing | acceptFails | acceptOpenOut | acceptName | acceptAnswer
  | acceptAnswerFails | acceptOpenIn | acceptOpenInFails | lose => exact hkept h

theorem Private.start (files : List Bytes) : (Fifos.start files).Private where
  sending := fun _ _ h => ConnectPoint.noConfusion h
  once := List.nodup_nil
  sent := fun _ hmem => absurd hmem List.not_mem_nil
  served := List.Sublist.refl _

/-- **Every step keeps connections private.** -/
theorem Private.step {pipes pipes' : Bytes → List Bytes} (hprivate : s.Private)
    (inv : FifoInv s) (step : FifoStep s e t) (carried : Carried s pipes e pipes') :
    t.Private := by
  have hmade := madeFor_kept step srvToCli
  have hsent : ∀ path ∈ s.toClients, ∃ pid, path = clientPath pid ∧
      (t.connects pid).HasSent ∧ path ∈ t.madeFor srvToCli := by
    intro path hmem
    obtain ⟨pid, rfl, hhas, hpath⟩ := hprivate.sent path hmem
    exact ⟨pid, rfl, hasSent_step step hhas, hmade.subset hpath⟩
  refine
    { sending := fun pid nameBuffer h => sending_step hprivate.sending step h
      once := ?_
      sent := ?_
      served := served_step hprivate.served step }
  · rcases toClients_step inv hprivate step carried with hless | ⟨pid, buffer, _, point, hmore⟩
    · exact hprivate.once.sublist hless
    · rw [hmore, List.nodup_append]
      refine ⟨hprivate.once, List.nodup_singleton _, ?_⟩
      rintro path hmem _ hnew rfl
      obtain ⟨q, hpath, hhas, _⟩ := hprivate.sent path hmem
      rw [List.mem_singleton.mp hnew, (hprivate.sending pid buffer point).1,
        clientPath_inj] at hpath
      rw [← hpath, point] at hhas
      exact hhas
  · rcases toClients_step inv hprivate step carried with hless | ⟨pid, buffer, rfl, point, hmore⟩
    · exact fun path hmem => hsent path (hless.subset hmem)
    · intro path hmem
      rw [hmore] at hmem
      rcases List.mem_append.mp hmem with hbefore | hnew
      · exact hsent path hbefore
      · obtain ⟨hname, hpath⟩ := hprivate.sending pid buffer point
        rw [List.mem_singleton.mp hnew, hname]
        refine ⟨pid, rfl, ?_, hmade.subset hpath⟩
        cases step with
        | @send _ nameBuffer here =>
            have hgoes : (Function.update s.connects pid (.openingIn nameBuffer) pid).HasSent := by
              rw [Function.update_self]
              trivial
            exact hgoes

/-- While the names are distinct, all FIFOs of all connections are. -/
theorem Private.nodup (hprivate : s.Private) (distinct : (s.made.map Call.path).Nodup) :
    (s.accepted.map Addr.fifoFd0 ++ s.accepted.map Addr.fifoFd1).Nodup := by
  have hserved : (s.accepted.map Addr.fifoFd0).Sublist (s.madeFor cliToSrv) :=
    (List.sublist_append_left _ _).trans hprivate.served
  have htold : (s.accepted.map Addr.fifoFd1).Sublist s.toClients := by
    rw [toClients, List.append_assoc]
    exact List.sublist_append_left _ _
  have hmade : ∀ name, (s.madeFor name).Sublist (s.made.map Call.path) :=
    fun name => List.filter_sublist.map Call.path
  rw [List.nodup_append]
  refine ⟨distinct.sublist (hserved.trans (hmade cliToSrv)), hprivate.once.sublist htold, ?_⟩
  -- one call makes FIFOs of the server, and another one those of clients
  rintro path hserver _ hclient rfl
  obtain ⟨_, _, _, hpath⟩ := hprivate.sent path (htold.subset hclient)
  obtain ⟨call, hcall, hname⟩ := List.mem_map.mp (hserved.subset hserver)
  obtain ⟨other, hother, hname'⟩ := List.mem_map.mp hpath
  obtain ⟨hmem, hfor⟩ := List.mem_filter.mp hcall
  obtain ⟨hmem', hfor'⟩ := List.mem_filter.mp hother
  have hsame : call = other :=
    List.inj_on_of_nodup_map distinct hmem hmem' (hname.trans hname'.symm)
  rw [hsame] at hfor
  have hprefixes : srvToCli = cliToSrv :=
    (of_decide_eq_true hfor').symm.trans (of_decide_eq_true hfor)
  exact absurd hprefixes (by decide)

end Fifos

/-! ## Runs -/

/-- **Connections of the FIFOs.**  In any interleaving of the server with any number of
clients, a client that is connected has the two FIFOs that the server has connected
for it, the other way round, or is about to, unless its `read` came to nothing; then
it has its own FIFO twice.  And while the names are distinct no FIFO belongs to two
connections of the server, nor twice to one. -/
theorem connections_private {files : List Bytes} {trace : List (FifoEvent × Handshake)}
    {s : Handshake} (run : Run (Guarded HandshakeStep StaysToOpen) (.start files) trace s) :
    (∀ pid addr, s.fifos.connects pid = .connected addr →
      s.fifos.Answered addr.fifoFd0 addr.fifoFd1 ∨
        (∃ entry ∈ trace, entry.1 = .receive pid []) ∧
          addr = { fifoFd0 := clientPath pid, fifoFd1 := clientPath pid }) ∧
    ((s.fifos.made.map Call.mark).Nodup →
      (s.fifos.accepted.map Addr.fifoFd0 ++ s.fifos.accepted.map Addr.fifoFd1).Nodup) := by
  let finds : Int32 → Prop := fun pid => ∀ entry ∈ trace, entry.1 ≠ .receive pid []
  have kept : ∀ s e t, (s.Agrees finds ∧ s.fifos.Private) →
      Guarded (Guarded HandshakeStep StaysToOpen)
        (fun _ e => ∀ pid, finds pid → e ≠ .receive pid []) s e t →
      t.Agrees finds ∧ t.fifos.Private := by
    rintro s e t ⟨agrees, hprivate⟩ ⟨⟨step, stays⟩, hfinds⟩
    exact ⟨agrees.step step stays hfinds, hprivate.step agrees.buffers step.1 step.2⟩
  have hfinds : ∀ entry ∈ trace, ∀ pid, finds pid → entry.1 ≠ .receive pid [] :=
    fun entry hmem pid hfind => hfind entry hmem
  obtain ⟨agrees, hprivate⟩ := (run.guarded_of_mem hfinds).invariant _ kept
    ⟨Handshake.Agrees.start finds files, Fifos.Private.start files⟩
  constructor
  · intro pid addr point
    have hgot := agrees.connects pid
    rw [point] at hgot
    obtain ⟨toServer, toClient⟩ := addr
    refine hgot.imp_right fun ⟨hnothing, hin, hout⟩ => ⟨?_, congrArg₂ Addr.mk hin hout⟩
    by_contra hall
    exact hnothing fun entry hmem heq => hall ⟨entry, hmem, heq⟩
  · intro distinct
    refine hprivate.nodup ?_
    rw [List.Nodup, List.pairwise_map] at distinct ⊢
    refine distinct.imp_of_mem fun {a b} ha hb hne heq => hne ?_
    have hyields := agrees.buffers.calls a (List.mem_of_mem_filter ha)
    have hyields' := agrees.buffers.calls b (List.mem_of_mem_filter hb)
    exact (hyields.path_inj hyields').mp heq

deriving instance DecidableEq for Addr, ConnectPoint, AcceptPoint

/-- A buffer that holds this name. -/
def clientBuffer (pid : Int32) : Bytes :=
  clientPath pid ++ zeros (maxFifoName - (clientPath pid).length)

/-- Client 12 is connected while client 13 waits.  Then the server opens the FIFO of
client 13, cannot write to it, and closes it. -/
def twoClients : List FifoEvent :=
  [.openInc 12 true, .name 12 true, .send 12 true, .openInc 13 true, .name 13 true,
    .acceptReceive, .send 13 true, .acceptOpenOut true, .acceptName true, .openIn 12 true,
    .acceptAnswer true, .receive 12 (clientBuffer 120), .openOut 12 true, .acceptOpenIn true,
    .acceptReceive, .acceptOpenOut true, .openIn 13 true, .acceptName true,
    .acceptAnswer false, .receive 13 [], .openOut 13 true]

theorem Handshake.goes {s : Handshake} {e : FifoEvent} {fifos : Fifos}
    {pipes : Bytes → List Bytes} (step : FifoStep s.fifos e fifos)
    (carried : Carried s.fifos s.pipes e pipes) (stays : e ≠ .acceptOpenIn false) :
    Guarded HandshakeStep StaysToOpen s e { fifos := fifos, pipes := pipes } :=
  ⟨⟨step, carried⟩, stays⟩

theorem exists_twoClients : ∃ (trace : List (FifoEvent × Handshake)) (s : Handshake),
    Run (Guarded HandshakeStep StaysToOpen) (.start []) trace s ∧
      trace.map Prod.fst = twoClients ∧
      s.fifos.connects 12 = .connected { fifoFd0 := [47, 49, 50], fifoFd1 := [47, 49, 50, 48] } ∧
      s.fifos.connects 13 = .connected { fifoFd0 := [47, 49, 51], fifoFd1 := [47, 49, 51] } ∧
      s.fifos.made.map Call.mark = [(12, 0), (13, 0), (120, 0), (131, 0)] := by
  have quiet : ∀ {s : Handshake} {e : FifoEvent} {fifos : Fifos}, FifoStep s.fifos e fifos →
      ¬ e.Carries → e ≠ .acceptOpenIn false →
      Guarded HandshakeStep StaysToOpen s e { fifos := fifos, pipes := s.pipes } :=
    fun step still stays => ⟨⟨step, .other still⟩, stays⟩
  exact ⟨_, _,
    .cons (quiet (@FifoStep.openInc _ 12 true (by decide) rfl) id nofun)
    (.cons (quiet (@FifoStep.name _ 12 true rfl) id nofun)
    (.cons (quiet (@FifoStep.send _ 12 (clientBuffer 12) (by decide +kernel)) id nofun)
    (.cons (quiet (@FifoStep.openInc _ 13 true (by decide) rfl) id nofun)
    (.cons (quiet (@FifoStep.name _ 13 true rfl) id nofun)
    (.cons (quiet (.acceptReceive rfl rfl) id nofun)
    (.cons (quiet (@FifoStep.send _ 13 (clientBuffer 13) (by decide +kernel)) id nofun)
    (.cons (Handshake.goes
      (@FifoStep.acceptOpenOut _ 12 (clientBuffer 12) true (by decide +kernel))
      (@Carried.opened _ _ 12 (clientBuffer 12) (by decide +kernel) (by decide +kernel)) nofun)
    (.cons (quiet (@FifoStep.acceptName _ 12 (some (clientPath 12)) (clientBuffer 12) true
      (by decide +kernel)) id nofun)
    (.cons (quiet (@FifoStep.openIn _ 12 (clientBuffer 12) true (by decide +kernel)) id nofun)
    (.cons (Handshake.goes
      (@FifoStep.acceptAnswer _ (clientPath 12) (clientBuffer 120) (by decide +kernel))
      (@Carried.answered _ _ (clientPath 12) (clientBuffer 120) (by decide +kernel)) nofun)
    (.cons (Handshake.goes
      (@FifoStep.receive _ 12 (clientPath 12) (clientBuffer 12) (clientBuffer 120)
        (by decide +kernel) (by decide +kernel))
      (@Carried.received _ _ 12 (clientPath 12) (clientBuffer 12) (clientBuffer 120) []
        (by decide +kernel) (by decide +kernel)) nofun)
    (.cons (quiet (@FifoStep.openOut _ 12 (clientPath 12) (clientBuffer 120) true
      (by decide +kernel)) id nofun)
    (.cons (quiet (@FifoStep.acceptOpenIn _ (clientPath 12) (clientBuffer 120)
      (by decide +kernel)) id nofun)
    (.cons (quiet (@FifoStep.acceptReceive _ 13 (clientBuffer 13) [] (by decide +kernel)
      (by decide +kernel)) id nofun)
    (.cons (Handshake.goes
      (@FifoStep.acceptOpenOut _ 13 (clientBuffer 13) true (by decide +kernel))
      (@Carried.opened _ _ 13 (clientBuffer 13) (by decide +kernel) (by decide +kernel)) nofun)
    (.cons (quiet (@FifoStep.openIn _ 13 (clientBuffer 13) true (by decide +kernel)) id nofun)
    (.cons (quiet (@FifoStep.acceptName _ 13 (some (clientPath 13)) (clientBuffer 13) true
      (by decide +kernel)) id nofun)
    (.cons (quiet (@FifoStep.acceptAnswerFails _ (some (clientPath 13)) (clientBuffer 131)
      (by decide +kernel)) nofun nofun)
    (.cons (Handshake.goes
      (@FifoStep.receive _ 13 (clientPath 13) (clientBuffer 13) [] (by decide +kernel)
        (by decide +kernel))
      (.receivedNothing 13) nofun)
    (.cons (quiet (@FifoStep.openOut _ 13 (clientPath 13) (clientBuffer 13) true
      (by decide +kernel)) id nofun) (.nil _))))))))))))))))))))),
    rfl, by decide +kernel, by decide +kernel, by decide +kernel⟩

theorem connections_private_twoClients : ∃ (trace : List (FifoEvent × Handshake)) (s : Handshake),
    trace.map Prod.fst = twoClients ∧
      s.fifos.connects 12 = .connected { fifoFd0 := [47, 49, 50], fifoFd1 := [47, 49, 50, 48] } ∧
      s.fifos.connects 13 = .connected { fifoFd0 := [47, 49, 51], fifoFd1 := [47, 49, 51] } ∧
      (∀ pid addr, s.fifos.connects pid = .connected addr →
        s.fifos.Answered addr.fifoFd0 addr.fifoFd1 ∨
          (∃ entry ∈ trace, entry.1 = .receive pid []) ∧
            addr = { fifoFd0 := clientPath pid, fifoFd1 := clientPath pid }) ∧
      (s.fifos.accepted.map Addr.fifoFd0 ++ s.fifos.accepted.map Addr.fifoFd1).Nodup := by
  obtain ⟨trace, s, run, hevents, hconnected, hself, hmarks⟩ := exists_twoClients
  obtain ⟨hmeets, hdistinct⟩ := connections_private run
  exact ⟨trace, s, hevents, hconnected, hself, hmeets, hdistinct (by rw [hmarks]; decide)⟩

end AirTraffic.Transport.Fifo
