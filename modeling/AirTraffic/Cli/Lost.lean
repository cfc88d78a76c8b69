/-
  Cli/Lost.lean --- calls whose connection is lost.

  WHAT THIS FILE IS FOR.  A line works for some operations and fails from then
  on: a send returns -1, a receive returns -1 or 0.  `atc_request` reports a
  failure, but the proxies drop its result and return what the response in the
  connection says, which an earlier call may have left there.
  `lost_calls_told_iff` says which calls return -1 all the same.
-/
import AirTraffic.Cli.Calls

set_option autoImplicit false

namespace AirTraffic.Cli

open AirTraffic.Foundation AirTraffic.Storage AirTraffic.Atcd AirTraffic.Protocol
open AirTraffic.Server

/-! ## Lines that fail -/

/-- A connection that is going to be lost. -/
structure Line where
  /-- The operations that still work, with the bytes that a receive gets. -/
  working : List (List.Vector UInt8 atcpMsgLen)
  /-- What the receives after them return: 0 where it is true, else -1. -/
  ends : Nat → Bool
  /-- The operations that have failed. -/
  failures : Nat

namespace Line

/-- An operation fails. -/
def fail (line : Line) : Line :=
  { line with ends := fun n => line.ends (n + 1), failures := line.failures + 1 }

/-- The client's end of the line. -/
def transport : Transport Line where
  send _ line :=
    match line.working with
    | [] => (-1, line.fail)
    | _ :: rest => (0, { line with working := rest })
  recv buffer line :=
    match line.working with
    | [] => (if line.ends 0 then 0 else -1, buffer, line.fail)
    | message :: rest =>
        (Int32.ofNat buffer.length, writeAt buffer 0 (message.toList.take buffer.length),
          { line with working := rest })

/-- The line does not last for a request: its message, the header, or one of the
messages that the header announces is not delivered. -/
def Cuts (line : Line) : Prop :=
  match line.working with
  | [] => True
  | [_] => True
  | _ :: header :: rest => rest.length < (Header.ofBytes header.toList).messages

theorem recv_nil {line : Line} (h : line.working = []) (buffer : Bytes) :
    transport.recv buffer line = (if line.ends 0 then 0 else -1, buffer, line.fail) := by
  simp only [transport, h]

theorem recv_cons {line : Line} {message : List.Vector UInt8 atcpMsgLen}
    {rest : List (List.Vector UInt8 atcpMsgLen)} (h : line.working = message :: rest)
    (buffer : Bytes) :
    transport.recv buffer line =
      (Int32.ofNat buffer.length, writeAt buffer 0 (message.toList.take buffer.length),
        { line with working := rest }) := by
  simp only [transport, h]

theorem length_recv {buffer : Bytes} (line : Line) (h : buffer.length ≤ atcpMsgLen) :
    (transport.recv buffer line).2.1.length = buffer.length := by
  cases hworking : line.working with
  | nil => rw [recv_nil hworking]
  | cons message rest =>
      rw [recv_cons hworking, length_writeAt, List.length_take, message.toList_length]
      omega

theorem failures_recv_le (buffer : Bytes) (line : Line) :
    line.failures ≤ (transport.recv buffer line).2.2.failures := by
  cases hworking : line.working with
  | nil =>
      rw [recv_nil hworking]
      exact Nat.le_succ _
  | cons message rest =>
      rw [recv_cons hworking]

/-! ## What is cut -/

section Items

variable (decode : Bytes → Bytes) (stride : Nat)

theorem failures_readItems_le : ∀ (left idx : Nat) (buffer : Bytes) (res : AtcRes)
    (line : Line), line.failures ≤
      (readItems transport decode stride left idx buffer res line).2.2.failures := by
  intro left
  induction left with
  | zero => intro idx buffer res line; exact Nat.le_refl _
  | succ left ih =>
      intro idx buffer res line
      have hfirst := failures_recv_le buffer line
      simp only [readItems]
      by_cases hfailed : (transport.recv buffer line).1 = -1
      · simp only [hfailed, if_true]
        exact hfirst
      · simp only [hfailed, if_false]
        exact Nat.le_trans hfirst (ih _ _ _ _)

/-- A body is read without a failure exactly if the line lasts for it. -/
theorem failures_readItems : ∀ (left idx : Nat) {buffer : Bytes} (res : AtcRes) (line : Line),
    buffer.length = atcpMsgLen →
      ((readItems transport decode stride left idx buffer res line).2.2.failures =
        line.failures ↔ left ≤ line.working.length) := by
  intro left
  induction left with
  | zero =>
      intro idx buffer res line _
      exact iff_of_true rfl (Nat.zero_le _)
  | succ left ih =>
      intro idx buffer res line hbuffer
      cases hworking : line.working with
      | nil =>
          have hlost : line.failures <
              (readItems transport decode stride (left + 1) idx buffer res line).2.2.failures := by
            have hmore := failures_readItems_le decode stride left (idx + 1) buffer
              { res with msg := writeAt res.msg (idx * stride) (decode buffer) } line.fail
            simp only [readItems, recv_nil hworking]
            by_cases hfailed : (if line.ends 0 then (0 : Int32) else -1) = -1
            · simp only [hfailed, if_true]
              exact Nat.lt_succ_self _
            · simp only [hfailed, if_false]
              exact Nat.lt_of_lt_of_le (Nat.lt_succ_self _) hmore
          exact iff_of_false (Nat.ne_of_gt hlost) (by simp)
      | cons message rest =>
          have hok : ¬ Int32.ofNat buffer.length = -1 := by
            rw [hbuffer]
            decide
          have hlength := length_recv line (Nat.le_of_eq hbuffer)
          rw [recv_cons hworking] at hlength
          simp only [readItems, recv_cons hworking, hok, if_false, List.length_cons]
          rw [ih _ _ _ (hlength.trans hbuffer)]
          exact Nat.succ_le_succ_iff.symm

end Items

/-- A response is read without a failure exactly if the line lasts for its header
and for the messages that this announces. -/
theorem failures_atcReadResponse (stack : Stack) (res : AtcRes) (line : Line) :
    (atcReadResponse transport stack res line).2.2.failures = line.failures ↔
      ∃ header rest, line.working = header :: rest ∧
        (Header.ofBytes header.toList).messages ≤ rest.length := by
  cases hworking : line.working with
  | nil =>
      have hlost : line.failures <
          (atcReadResponse transport stack res line).2.2.failures := by
        by_cases hfailed : (transport.recv stack.header.toList line).1 = -1
        · have hstops : (atcReadResponse transport stack res line).2.2 =
              (transport.recv stack.header.toList line).2.2 := by
            simp only [atcReadResponse, hfailed, if_true]
          rw [hstops, recv_nil hworking]
          exact Nat.lt_succ_self _
        · obtain ⟨decode, stride, res', hrest⟩ := atcReadResponse_rest transport hfailed res
          rw [hrest, recv_nil hworking]
          exact Nat.lt_of_lt_of_le (Nat.lt_succ_self _)
            (failures_readItems_le decode stride _ _ _ _ line.fail)
      exact iff_of_false (Nat.ne_of_gt hlost) (by simp)
  | cons header rest =>
      have hlength : stack.header.toList.length = 8 := stack.header.toList_length
      have height : Int32.ofNat 8 ≠ -1 := by decide
      have hfailed : (transport.recv stack.header.toList line).1 ≠ -1 := by
        rw [recv_cons hworking, hlength]
        exact height
      have hbuffer : Header.ofBytes (writeAt stack.header.toList 0
          (header.toList.take stack.header.toList.length)) = Header.ofBytes header.toList := by
        have hfront : writeAt stack.header.toList 0
            (header.toList.take stack.header.toList.length) = header.toList.take 8 := by
          rw [hlength]
          apply writeAt_zero_of_length_le
          rw [hlength, List.length_take, header.toList_length]
          decide
        rw [hfront, Header.ofBytes, Header.ofBytes]
        simp [readAt, List.take_take, List.drop_take]
      obtain ⟨decode, stride, res', hrest⟩ := atcReadResponse_rest transport hfailed res
      rw [recv_cons hworking] at hrest
      rw [hrest, hbuffer, failures_readItems decode stride _ _ _ _ stack.body.toList_length]
      simp

/-- **What is cut.**  An operation of a request fails exactly if the line cuts
it. -/
theorem failures_atcRequest (stack : Stack) (conn : AtcConn) (line : Line) :
    (atcRequest transport stack conn line).2.2.failures ≠ line.failures ↔ line.Cuts := by
  unfold Cuts
  cases hworking : line.working with
  | nil =>
      refine iff_of_true ?_ trivial
      simp only [atcRequest, sendRequest, transport, hworking, if_true, fail]
      exact Nat.succ_ne_self _
  | cons message rest =>
      have hsent : ¬ (0 : Int32) = -1 := by decide
      have hrest : (atcRequest transport stack conn line).2.2 =
          (atcReadResponse transport stack conn.res { line with working := rest }).2.2 := by
        simp only [atcRequest, sendRequest, transport, hworking, hsent, if_false]
      have hread := failures_atcReadResponse stack conn.res { line with working := rest }
      rw [hrest, Ne, hread]
      cases rest with
      | nil => simp
      | cons header rest => simp

end Line

/-! ## Calls over a line -/

/-- A client and its line. -/
structure Client where
  conn : AtcConn
  line : Line

/-- A call with the stack it finds, and its reply. -/
structure CallEvent where
  call : ApiCall
  stack : Stack
  reply : ApiReply

/-- The next call of a program. -/
def CallStep (s : Client) (e : CallEvent) (t : Client) : Prop :=
  Over.call Line.transport e.stack s.conn s.line e.call = (e.reply, t.conn, t.line)

/-- The number a call returns; `create_plane` returns none. -/
def ApiReply.code : ApiReply → Option Int32
  | .planes count _ => some count
  | .airports count _ => some count
  | .value count => some count
  | .done => none
  | .set code _ => some code

/-- A call in which an operation failed returns -1. -/
def ToldIfCut (s : Client) (e : CallEvent) (t : Client) : Prop :=
  t.line.failures ≠ s.line.failures → ∀ code, e.reply.code = some code → code = -1

/-- What a call looks at reads as -1: the return code, or, where `get_airplanes`
does not take the response for an acknowledgement and where `get_airports` finds
no refusal, the count. -/
def ReadsRefused (heard : Heard) (res : AtcRes) : ApiCall → Prop
  | .getAirplanes =>
      if heard.typeOf res = atcAck then heard.returnCodeOf res = -1
      else heard.lenOf res = 4294967295
  | .getAirports => heard.returnCodeOf res = -1 ∨ heard.lenOf res = 4294967295
  | .createPlane => True
  | _ => heard.returnCodeOf res = -1

/-- A request that is cut leaves words in the response that read as -1: those of
an earlier response, of the part of this one that came in, or of the stack where
the stream ended. -/
def RefusedIfCut (s : Client) (e : CallEvent) : Prop :=
  ∀ req, e.call.req s.conn.req = some req → s.line.Cuts →
    ReadsRefused (heard Line.transport e.stack req s.line) s.conn.res e.call

theorem toInt32_eq_neg_one_iff (count : UInt32) :
    count.toInt32 = -1 ↔ count = 4294967295 := by
  constructor
  · intro h
    have := congrArg Int32.toUInt32 h
    rwa [UInt32.toUInt32_toInt32] at this
  · rintro rfl
    decide

theorem code_reply_iff (heard : Heard) (res : AtcRes) (call : ApiCall) :
    (∀ code, (call.reply (heard.onto res)).code = some code → code = -1) ↔
      ReadsRefused heard res call := by
  have hsome : ∀ value : Int32, (∀ code, some value = some code → code = -1) ↔ value = -1 :=
    fun value => ⟨fun h => h value rfl, fun h code hcode => Option.some.inj hcode ▸ h⟩
  cases call with
  | getAirplanes =>
      rw [ReadsRefused, ApiCall.reply, ApiReply.code, hsome, planesReply, Heard.onto_type,
        Heard.onto_returnCode, Heard.onto_len]
      split
      · exact Iff.rfl
      · exact toInt32_eq_neg_one_iff _
  | getCrashed | getLanded | set =>
      rw [ReadsRefused, ApiCall.reply, ApiReply.code, hsome, Heard.onto_returnCode]
      all_goals simp
  | getAirports =>
      rw [ReadsRefused, ApiCall.reply, ApiReply.code, hsome, airportsReply,
        Heard.onto_returnCode, Heard.onto_len]
      by_cases hcode : heard.returnCodeOf res = -1
      · simp [hcode]
      · simp only [hcode, if_false, false_or]
        exact toInt32_eq_neg_one_iff _
  | createPlane => simp [ReadsRefused, ApiCall.reply, ApiReply.code]

/-- One call. -/
theorem toldIfCut_iff {s t : Client} {e : CallEvent} (step : CallStep s e t) :
    ToldIfCut s e t ↔ RefusedIfCut s e := by
  unfold CallStep at step
  cases hreq : e.call.req s.conn.req with
  | none =>
      rw [call_eq, hreq] at step
      obtain ⟨_, hrest⟩ := Prod.mk.inj step
      obtain ⟨_, hline⟩ := Prod.mk.inj hrest
      refine iff_of_true (fun hcut => absurd (congrArg Line.failures hline.symm) hcut) ?_
      intro req h
      exact absurd (hreq.symm.trans h) (by simp)
  | some req =>
      obtain ⟨hreply, _, hline⟩ := @call_heard _ Line.transport e.stack s.conn s.line _ _ hreq
      rw [step] at hreply hline
      dsimp only at hreply hline
      have hcut := Line.failures_atcRequest e.stack { s.conn with req := req } s.line
      rw [← hline] at hcut
      rw [ToldIfCut, hcut, hreply, code_reply_iff]
      constructor
      · intro h req' hreq' cuts
        obtain rfl := Option.some.inj (hreq.symm.trans hreq')
        exact h cuts
      · intro h cuts
        exact h req hreq cuts

/-- **Which lost connections are reported.**  In a run of calls over a line that
is lost at some point, every call that is cut returns -1 exactly if each of them
finds words that read as -1. -/
theorem lost_calls_told_iff {s t : Client} {trace : List (CallEvent × Client)}
    (run : Run CallStep s trace t) :
    (∀ step ∈ steps s trace, ToldIfCut step.1 step.2.1 step.2.2) ↔
      ∀ step ∈ steps s trace, RefusedIfCut step.1 step.2.1 :=
  run.forall_steps_iff (fun _ => True) ToldIfCut RefusedIfCut (fun _ _ _ _ _ => trivial)
    (fun _ _ _ _ step => toldIfCut_iff step) trivial

/-- A client whose line lasts for one request: it is acknowledged with 3. -/
def lostAfterAck : Client where
  conn := { req := { type := AtcReqType.join.code, plane := zeroPlane }, res := zeroRes }
  line :=
    { working :=
        [List.Vector.replicate atcpMsgLen 0, vectorAt (int32BE atcAck ++ int32BE 3) 0 atcpMsgLen]
      ends := fun _ => false
      failures := 0 }

/-- A call on zeroed stacks. -/
def Client.after (s : Client) (call : ApiCall) : CallEvent × Client :=
  let (reply, conn, line) := Over.call Line.transport Stack.zero s.conn s.line call
  ({ call := call, stack := Stack.zero, reply := reply }, { conn := conn, line := line })

theorem Client.step_after (s : Client) (call : ApiCall) :
    CallStep s (s.after call).1 (s.after call).2 := by
  unfold CallStep Client.after
  generalize Over.call Line.transport Stack.zero s.conn s.line call = outcome
  rfl

/-- A program asks for the crashed planes, and then for the landed ones. -/
def lostTrace : List (CallEvent × Client) :=
  [lostAfterAck.after .getCrashed, (lostAfterAck.after .getCrashed).2.after .getLanded]

theorem run_lostTrace :
    Run CallStep lostAfterAck lostTrace
      ((lostAfterAck.after .getCrashed).2.after .getLanded).2 :=
  .cons (lostAfterAck.step_after .getCrashed)
    (.cons ((lostAfterAck.after .getCrashed).2.step_after .getLanded) (.nil _))

theorem lost_calls_told_iff_lostTrace :
    (∀ step ∈ steps lostAfterAck lostTrace, ToldIfCut step.1 step.2.1 step.2.2) ↔
      ∀ step ∈ steps lostAfterAck lostTrace, RefusedIfCut step.1 step.2.1 :=
  lost_calls_told_iff run_lostTrace

/-- The second call is cut, and returns what the first one was told. -/
theorem lostTrace_repeats :
    ¬ ∀ (s t : Client) (trace : List (CallEvent × Client)), Run CallStep s trace t →
      ∀ step ∈ steps s trace, ToldIfCut step.1 step.2.1 step.2.2 := by
  intro htold
  have hsecond := htold _ _ _ run_lostTrace _ (List.mem_cons_of_mem _ List.mem_cons_self)
  have hcut : ((lostAfterAck.after .getCrashed).2.after .getLanded).2.line.failures ≠
      (lostAfterAck.after .getCrashed).2.line.failures := by
    decide +kernel
  have hcode : ((lostAfterAck.after .getCrashed).2.after .getLanded).1.reply.code = some 3 := by
    decide +kernel
  exact absurd (hsecond hcut 3 hcode) (by decide)

end AirTraffic.Cli
