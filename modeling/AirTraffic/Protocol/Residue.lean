/-
  Protocol/Residue.lean --- what reaches the peer besides the value.

  WHAT THIS FILE IS FOR.  Every message is sent at its full size from a buffer on
  the stack, of which an encoder writes a part.  A plane and a request are encoded
  into a buffer that was cleared; an airport is not, and the header of a response
  of an unknown type ends half way.  `recorded` is a transport that keeps what it
  was handed, and `discreet_iff` says for which messages that does not depend on
  what the buffers held before.
-/
import AirTraffic.Protocol.Codec
import AirTraffic.Protocol.Proto

set_option autoImplicit false

namespace AirTraffic.Protocol

open AirTraffic.Foundation AirTraffic.Atcd

section Residue

variable {σ : Type}

/-- A transport that also keeps the data of every send. -/
def recorded (transport : Transport σ) : Transport (σ × List Bytes) where
  send data link :=
    let (sent, next) := transport.send data link.1
    (sent, next, link.2 ++ [data])
  recv buffer link :=
    let (received, buffer, next) := transport.recv buffer link.1
    (received, buffer, next, link.2)

@[simp] theorem recorded_send (transport : Transport σ) (data : Bytes) (link : σ)
    (log : List Bytes) :
    (recorded transport).send data (link, log) =
      ((transport.send data link).1, (transport.send data link).2, log ++ [data]) := rfl

@[simp] theorem recorded_recv (transport : Transport σ) (buffer : Bytes) (link : σ)
    (log : List Bytes) :
    (recorded transport).recv buffer (link, log) =
      ((transport.recv buffer link).1, (transport.recv buffer link).2.1,
        (transport.recv buffer link).2.2, log) := rfl

/-- The calls that send: `atc_request`, and the three that write a response or a
part of it. -/
inductive Sending where
  | request (conn : AtcConn)
  | planes (res : AtcRes)
  | airports (res : AtcRes)
  | response (res : AtcRes)

variable (transport : Transport σ)

/-- The data handed to `transport_send` during a call. -/
def Sending.handed (link : σ) (stack : Stack) : Sending → List Bytes
  | request conn => (atcRequest (recorded transport) stack conn (link, [])).2.2.2
  | planes res => (atcWritePlanes (recorded transport) stack.body.toList res (link, [])).2.2
  | airports res => (atcWriteAirports (recorded transport) stack.body.toList res (link, [])).2.2
  | response res => (atcWriteResponse (recorded transport) stack res (link, [])).2.2

/-- The same is handed over whatever the buffers held. -/
def Discreet (link : σ) (sending : Sending) : Prop :=
  ∀ stack stack' : Stack,
    sending.handed transport link stack = sending.handed transport link stack'

/-- No airports to send. -/
def NoAirports (res : AtcRes) : Prop := res.len.toInt32.toInt ≤ 0

instance (res : AtcRes) : Decidable (NoAirports res) :=
  inferInstanceAs (Decidable (_ ≤ _))

/-- The messages whose bytes are all written before they are sent. -/
def Sending.Cleared (link : σ) : Sending → Prop
  | request _ => True
  | planes _ => True
  | airports res => NoAirports res
  | response res =>
      KnownType res.type ∧
        (res.type = atcAirports →
          NoAirports res ∨ (transport.send (headerFormat res) link).1 = -1)

/-! ## Receiving hands nothing over -/

/-- What no receive changes, no response that is read changes. -/
theorem readItems_keeps {α : Type} (view : σ → α)
    (hrecv : ∀ buffer link, view (transport.recv buffer link).2.2 = view link)
    (decode : Bytes → Bytes) (stride left : Nat) :
    ∀ (idx : Nat) (buffer : Bytes) (res : AtcRes) (link : σ),
      view (readItems transport decode stride left idx buffer res link).2.2 = view link := by
  induction left with
  | zero => intro idx buffer res link; rfl
  | succ left ih =>
    intro idx buffer res link
    unfold readItems
    dsimp only
    split
    · exact hrecv buffer link
    · exact (ih _ _ _ _).trans (hrecv buffer link)

theorem atcReadResponse_keeps {α : Type} (view : σ → α)
    (hrecv : ∀ buffer link, view (transport.recv buffer link).2.2 = view link)
    (stack : Stack) (res : AtcRes) (link : σ) :
    view (atcReadResponse transport stack res link).2.2 = view link := by
  have hheader := hrecv stack.header.toList link
  unfold atcReadResponse atcReadPlanes atcReadAirports
  dsimp only
  split
  · exact hheader
  · split
    · exact hheader
    · split
      · exact hheader
      · split
        · exact (readItems_keeps transport view hrecv _ _ _ _ _ _ _).trans hheader
        · split
          · exact (readItems_keeps transport view hrecv _ _ _ _ _ _ _).trans hheader
          · exact hheader

/-- A request is one message, the format of its value. -/
theorem handed_request (link : σ) (stack : Stack) (conn : AtcConn) :
    (Sending.request conn).handed transport link stack = [reqFormat conn.req] := by
  have hformat := take_atcReqToWire conn.req stack.message.toList_length
  have hread := atcReadResponse_keeps (recorded transport) Prod.snd (fun _ _ => rfl) stack conn.res
    ((transport.send (reqFormat conn.req) link).2, [reqFormat conn.req])
  simp only [Sending.handed, atcRequest, sendRequest, hformat, recorded_send, List.nil_append]
  split
  · rfl
  · exact hread

/-! ## Bodies -/

theorem writeItems_recorded_succ (encode : Nat → Bytes → Bytes) (left idx : Nat)
    (buffer : Bytes) (link : σ) (log : List Bytes) :
    writeItems (recorded transport) encode (left + 1) idx buffer (link, log) =
      if (transport.send ((encode idx buffer).take atcpMsgLen) link).1 = -1 then
        (false, (transport.send ((encode idx buffer).take atcpMsgLen) link).2,
          log ++ [(encode idx buffer).take atcpMsgLen])
      else
        writeItems (recorded transport) encode left (idx + 1) (encode idx buffer)
          ((transport.send ((encode idx buffer).take atcpMsgLen) link).2,
            log ++ [(encode idx buffer).take atcpMsgLen]) := rfl

/-- What was handed over stays handed over. -/
theorem writeItems_log (encode : Nat → Bytes → Bytes) (left : Nat) :
    ∀ (idx : Nat) (buffer : Bytes) (link : σ) (log : List Bytes),
      log <+: (writeItems (recorded transport) encode left idx buffer (link, log)).2.2 := by
  induction left with
  | zero => intro idx buffer link log; exact List.prefix_refl log
  | succ left ih =>
    intro idx buffer link log
    have hsent := List.prefix_append log [(encode idx buffer).take atcpMsgLen]
    rw [writeItems_recorded_succ]
    split
    · exact hsent
    · exact hsent.trans (ih _ _ _ _)

/-- The first message of a body comes right behind what was sent before. -/
theorem writeItems_first (encode : Nat → Bytes → Bytes) (left : Nat) (buffer : Bytes)
    (link : σ) (log : List Bytes) :
    (writeItems (recorded transport) encode (left + 1) 0 buffer (link, log)).2.2[log.length]? =
      some ((encode 0 buffer).take atcpMsgLen) := by
  have hsent : (log ++ [(encode 0 buffer).take atcpMsgLen])[log.length]? =
      some ((encode 0 buffer).take atcpMsgLen) := List.getElem?_concat_length
  rw [writeItems_recorded_succ]
  split
  · exact hsent
  · have hlog := writeItems_log transport encode left 1 (encode 0 buffer)
      (transport.send ((encode 0 buffer).take atcpMsgLen) link).2
      (log ++ [(encode 0 buffer).take atcpMsgLen])
    rw [List.prefix_iff_getElem?] at hlog
    have hat := hlog log.length (by simp)
    rw [← List.getElem?_eq_getElem, hsent] at hat
    exact hat

/-- A plane leaves nothing of the buffer it is encoded in. -/
theorem encodePlane_eq (msg : Bytes) (idx : Nat) (buffer : List.Vector UInt8 atcpMsgLen) :
    encodePlane msg idx buffer.toList = planeFormat (planeAt msg idx) ++ zeros 26 :=
  atcPlaneToWire_wire _ buffer.toList_length

theorem atcWritePlanes_buffer (buffer buffer' : List.Vector UInt8 atcpMsgLen) (res : AtcRes)
    (link : σ) :
    atcWritePlanes transport buffer.toList res link =
      atcWritePlanes transport buffer'.toList res link := by
  have hitems : ∀ left, writeItems transport (encodePlane res.msg) left 0 buffer.toList link =
      writeItems transport (encodePlane res.msg) left 0 buffer'.toList link := by
    intro left
    cases left with
    | zero => rfl
    | succ left => simp only [writeItems, encodePlane_eq]
  simp only [atcWritePlanes, hitems]

/-- An airport leaves everything behind its eleven bytes. -/
theorem encodeAirport_drop (msg : Bytes) (idx : Nat) (buffer : List.Vector UInt8 atcpMsgLen) :
    ((encodeAirport msg idx buffer.toList).take atcpMsgLen).drop 11 = buffer.toList.drop 11 := by
  have hbuffer : buffer.toList.length = 64 := buffer.toList_length
  have hlength :
      (writeAt buffer.toList 0 (airportFormat (airportAt msg idx))).length = atcpMsgLen := by
    rw [length_writeAt, length_airportFormat, hbuffer]
    rfl
  have hwhole : (writeAt buffer.toList 0 (airportFormat (airportAt msg idx))).take atcpMsgLen =
      airportFormat (airportAt msg idx) ++ buffer.toList.drop 11 := by
    rw [List.take_of_length_le (Nat.le_of_eq hlength)]
    simp [writeAt, zeros]
  rw [encodeAirport, atcAirportToWire_eq, hwhole]
  exact List.drop_left' (length_airportFormat _)

theorem rounds_eq_zero {res : AtcRes} : rounds res.len.toInt32 = 0 ↔ NoAirports res :=
  Int.toNat_eq_zero

theorem atcWriteAirports_buffer {res : AtcRes} (hnone : NoAirports res)
    (buffer buffer' : Bytes) (link : σ) :
    atcWriteAirports transport buffer res link = atcWriteAirports transport buffer' res link := by
  simp only [atcWriteAirports, rounds_eq_zero.mpr hnone, writeItems]

/-- A stack whose buffers hold one byte throughout. -/
def Stack.filled (byte : UInt8) : Stack where
  message := List.Vector.replicate atcpMsgLen byte
  header := List.Vector.replicate atcpHeaderLen byte
  body := List.Vector.replicate atcpMsgLen byte

/-- An airport shows what its buffer held. -/
theorem atcWriteAirports_shows {res : AtcRes} (hsome : ¬ NoAirports res) (link : σ)
    (log : List Bytes) :
    (atcWriteAirports (recorded transport) (Stack.filled 0).body.toList res (link, log)).2.2 ≠
      (atcWriteAirports (recorded transport) (Stack.filled 1).body.toList res
        (link, log)).2.2 := by
  intro heq
  obtain ⟨left, hleft⟩ := Nat.exists_eq_succ_of_ne_zero (mt rounds_eq_zero.mp hsome)
  unfold atcWriteAirports at heq
  simp only [hleft] at heq
  have hfirst := congrArg (fun sent => sent[log.length]?) heq
  simp only [Nat.succ_eq_add_one, writeItems_first, Option.some.injEq] at hfirst
  have hrest := congrArg (fun message => List.drop 11 message) hfirst
  simp only [encodeAirport_drop] at hrest
  exact absurd hrest (by decide)

/-! ## Responses -/

/-- What follows the header of a response. -/
def writeBody (body : Bytes) (res : AtcRes) (link : σ) : Int32 × σ :=
  if res.type = atcAck then (0, link)
  else if res.type = atcPlanes then atcWritePlanes transport body res link
  else if res.type = atcAirports then atcWriteAirports transport body res link
  else (-1, link)

theorem atcWriteResponse_eq {res : AtcRes} (htype : KnownType res.type) (stack : Stack)
    (link : σ) :
    atcWriteResponse transport stack res link =
      if (transport.send (headerFormat res) link).1 = -1 then
        (-1, (transport.send (headerFormat res) link).2)
      else writeBody transport stack.body.toList res
        (transport.send (headerFormat res) link).2 := by
  unfold atcWriteResponse
  rw [atcResToHeader_eq htype stack.header.toList_length]
  rfl

/-- The header of an unknown type leaves its second half. -/
theorem atcResToHeader_unknown {res : AtcRes} (htype : ¬ KnownType res.type)
    (header : List.Vector UInt8 atcpHeaderLen) :
    ((atcResToHeader res header.toList).2).drop 4 = header.toList.drop 4 := by
  rw [KnownType, not_or] at htype
  unfold atcResToHeader
  rw [if_neg htype.1, if_neg htype.2]
  simp only [sndInt, sndStrn, writeAt, List.take_zero, Nat.zero_sub, Nat.zero_add,
    length_int32BE]
  exact List.drop_left' (by simp [zeros])

theorem handed_response_unknown {res : AtcRes} (htype : ¬ KnownType res.type) (link : σ)
    (stack : Stack) :
    (Sending.response res).handed transport link stack =
      [(atcResToHeader res stack.header.toList).2] := by
  simp only [KnownType, not_or] at htype
  simp only [Sending.handed, atcWriteResponse, recorded_send, htype, if_false, List.nil_append]
  split <;> rfl

theorem discreet_response_iff (link : σ) (res : AtcRes) :
    Discreet transport link (.response res) ↔ (Sending.response res).Cleared transport link := by
  constructor
  · intro discreet
    have hsame := discreet (Stack.filled 0) (Stack.filled 1)
    have htype : KnownType res.type := by
      by_contra hunknown
      rw [handed_response_unknown transport hunknown,
        handed_response_unknown transport hunknown] at hsame
      have hrest := congrArg (fun bytes => List.drop 4 bytes) (List.singleton_inj.mp hsame)
      simp only [atcResToHeader_unknown hunknown] at hrest
      exact absurd hrest (by decide)
    refine ⟨htype, fun hairports => ?_⟩
    by_contra hneither
    obtain ⟨hsome, hsent⟩ := not_or.mp hneither
    have hack : atcAirports ≠ atcAck := by decide
    have hplanes : atcAirports ≠ atcPlanes := by decide
    simp only [Sending.handed, atcWriteResponse_eq _ htype, recorded_send, hsent, if_false,
      writeBody, hairports, hack, hplanes, if_true] at hsame
    exact atcWriteAirports_shows transport hsome _ _ hsame
  · rintro ⟨htype, hairports⟩ stack stack'
    simp only [Sending.handed, atcWriteResponse_eq _ htype, recorded_send]
    by_cases hsent : (transport.send (headerFormat res) link).1 = -1
    · simp only [hsent, if_true]
    · simp only [hsent, if_false]
      unfold writeBody
      split
      · rfl
      · split
        · rw [atcWritePlanes_buffer (recorded transport) stack.body stack'.body]
        · split
          · rename_i htwo
            have hnone := (hairports htwo).resolve_right hsent
            rw [atcWriteAirports_buffer (recorded transport) hnone _ stack'.body.toList]
          · rfl

/-- **What a message carries besides its value.**  The bytes handed to the
transport depend on nothing but the message exactly if it is a request, planes, or
a response of a known type that sends no airport. -/
theorem discreet_iff (link : σ) (sending : Sending) :
    Discreet transport link sending ↔ sending.Cleared transport link := by
  cases sending with
  | request conn =>
    exact ⟨fun _ => trivial, fun _ stack stack' => by rw [handed_request, handed_request]⟩
  | planes res =>
    refine ⟨fun _ => trivial, fun _ stack stack' => ?_⟩
    simp only [Sending.handed]
    rw [atcWritePlanes_buffer (recorded transport) stack.body stack'.body]
  | airports res =>
    constructor
    · intro discreet
      by_contra hsome
      exact atcWriteAirports_shows transport hsome link []
        (discreet (Stack.filled 0) (Stack.filled 1))
    · intro hnone stack stack'
      simp only [Sending.handed]
      rw [atcWriteAirports_buffer (recorded transport) hnone _ stack'.body.toList]
  | response res => exact discreet_response_iff transport link res

end Residue

/-- The response to a request for the airports, of which there are two. -/
def twoAirports : AtcRes :=
  { zeroRes with type := atcAirports, len := 2 }

/-- Bytes 11 to 63 of the first airport's message are what the stack held. -/
theorem airports_show_stack : ¬ Discreet Link.serverEnd Link.empty (.response twoAirports) := by
  rw [discreet_response_iff]
  rintro ⟨_, hairports⟩
  rcases hairports rfl with hnone | hrefused
  · exact absurd hnone (by decide)
  · exact absurd hrefused (by decide)

end AirTraffic.Protocol
