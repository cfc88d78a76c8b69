/-
  Protocol/Reader.lean --- what a response does to a connection, over any transport.

  WHAT THIS FILE IS FOR.  `_atc_read_response` decodes into a connection that
  still holds an earlier response, and it looks at the result of `transport_recv`
  for -1 only.  Here what the client takes off the transport is said first
  (`heard`: the header, and the messages of the body), from the transport and the
  stack alone.  Then the connection afterwards is what it was before, with that
  laid over it (`atcReadResponse_heard`), and each word that the proxies read is
  given in those terms (`Heard.onto_type`, `Heard.onto_len`,
  `Heard.onto_returnCode`).
-/
import AirTraffic.Protocol.Stream

set_option autoImplicit false

namespace AirTraffic.Protocol

open AirTraffic.Foundation AirTraffic.Atcd

/-! ## What is heard -/

/-- The two integers of a header. -/
structure Header where
  type : Int32
  payload : Int32
  deriving DecidableEq

namespace Header

/-- The header in a buffer. -/
def ofBytes (wire : Bytes) : Header where
  type := int32OfBE (readAt wire 0 4)
  payload := int32OfBE (readAt wire 4 4)

/-- The header announces a body of planes or of airports. -/
def Counts (header : Header) : Prop := header.type = atcPlanes ∨ header.type = atcAirports

instance (header : Header) : Decidable header.Counts :=
  inferInstanceAs (Decidable (_ ∨ _))

/-- The header of a response of none of the three types. -/
def Unknown (header : Header) : Prop := header.type ≠ atcAck ∧ ¬ header.Counts

instance (header : Header) : Decidable header.Unknown :=
  inferInstanceAs (Decidable (_ ∧ _))

/-- The number of messages that are read after the header. -/
def messages (header : Header) : Nat := if header.Counts then rounds header.payload else 0

end Header

/-- What a client takes off the transport for a response: the header, unless the
receive of it failed, and the messages of the body. -/
structure Heard where
  header : Option Header
  body : List Bytes

section Transport

variable {σ : Type} (transport : Transport σ)

/-- The messages that a loop of `_atc_read_response` stores.  A receive that
fails ends it; one that returns less than it was asked for does not, and leaves
the rest of the buffer as the message before. -/
def takeMessages : Nat → Bytes → σ → List Bytes
  | 0, _, _ => []
  | left + 1, buffer, link =>
      let (received, buffer, link) := transport.recv buffer link
      if received = -1 then [] else buffer :: takeMessages left buffer link

/-- What `_atc_read_response` hears. -/
def heardResponse (stack : Stack) (link : σ) : Heard :=
  let (received, buffer, link) := transport.recv stack.header.toList link
  if received = -1 then { header := none, body := [] }
  else
    let header := Header.ofBytes buffer
    { header := some header
      body := takeMessages transport header.messages stack.body.toList link }

/-- What `atc_request` hears. -/
def heard (stack : Stack) (req : AtcReq) (link : σ) : Heard :=
  let (sent, link) := sendRequest transport stack req link
  if sent = -1 then { header := none, body := [] } else heardResponse transport stack link

/-- The indices of the elements that a loop of `_atc_read_response` stores. -/
def storedIndices : Nat → Nat → Bytes → σ → List Nat
  | 0, _, _, _ => []
  | left + 1, idx, buffer, link =>
      let (received, buffer, link) := transport.recv buffer link
      if received = -1 then [] else idx :: storedIndices left (idx + 1) buffer link

variable {transport}

/-- The loop stores what it takes, one element after the other. -/
theorem readItems_msg (decode : Bytes → Bytes) (stride : Nat) :
    ∀ (left idx : Nat) (buffer : Bytes) (res : AtcRes) (link : σ),
      (readItems transport decode stride left idx buffer res link).2.1 =
        { res with
          msg := storeItems stride idx ((takeMessages transport left buffer link).map decode)
            res.msg } := by
  intro left
  induction left with
  | zero => intro idx buffer res link; rfl
  | succ left ih =>
      intro idx buffer res link
      simp only [readItems, takeMessages]
      by_cases hfailed : (transport.recv buffer link).1 = -1
      · simp only [hfailed, if_true, List.map_nil, storeItems]
      · simp only [hfailed, if_false, ih, List.map_cons, storeItems]

/-- The elements stored are the first ones, one for each message taken. -/
theorem storedIndices_eq : ∀ (left idx : Nat) (buffer : Bytes) (link : σ),
    storedIndices transport left idx buffer link =
      List.range' idx (takeMessages transport left buffer link).length := by
  intro left
  induction left with
  | zero => intro idx buffer link; rfl
  | succ left ih =>
      intro idx buffer link
      simp only [storedIndices, takeMessages]
      by_cases hfailed : (transport.recv buffer link).1 = -1
      · simp only [hfailed, if_true, List.length_nil, List.range'_zero]
      · simp only [hfailed, if_false, ih, List.length_cons, List.range'_succ]

/-- A transport on which no receive fails fills every element that is counted. -/
theorem length_takeMessages (hrecv : ∀ buffer link, buffer.length = atcpMsgLen →
      (transport.recv buffer link).1 ≠ -1 ∧
        (transport.recv buffer link).2.1.length = atcpMsgLen) :
    ∀ (left : Nat) {buffer : Bytes} (link : σ), buffer.length = atcpMsgLen →
      (takeMessages transport left buffer link).length = left := by
  intro left
  induction left with
  | zero => intro buffer link _; rfl
  | succ left ih =>
      intro buffer link hbuffer
      obtain ⟨hok, hlength⟩ := hrecv buffer link hbuffer
      unfold takeMessages
      simp only [hok, if_false, List.length_cons]
      rw [ih _ hlength]

end Transport

/-! ## What it does to the response -/

namespace Heard

/-- The response with its header read. -/
def ontoHeader (header : Header) (res : AtcRes) : AtcRes :=
  if header.type = atcAck then
    { res with type := atcAck, len := 0 }.setReturnCode header.payload
  else if header.Counts then
    { res with type := header.type, len := header.payload.toUInt32 }
  else { res with type := header.type }

/-- The memory of the response with its body read. -/
def ontoMsg (header : Header) (body : List Bytes) (msg : Bytes) : Bytes :=
  if header.type = atcPlanes then storeItems sizeofPlane 0 (body.map decodePlane) msg
  else if header.type = atcAirports then storeItems sizeofAirport 0 (body.map decodeAirport) msg
  else msg

/-- The response that was there before, with what was heard laid over it. -/
def onto (heard : Heard) (res : AtcRes) : AtcRes :=
  match heard.header with
  | none => res
  | some header =>
      let res := ontoHeader header res
      { res with msg := ontoMsg header heard.body res.msg }

end Heard

theorem Heard.ontoMsg_of_not_counts {header : Header} (h : ¬ header.Counts) (body : List Bytes)
    (msg : Bytes) : ontoMsg header body msg = msg := by
  have hplanes : ¬ header.type = atcPlanes := fun heq => h (Or.inl heq)
  have hairports : ¬ header.type = atcAirports := fun heq => h (Or.inr heq)
  rw [ontoMsg, if_neg hplanes, if_neg hairports]

theorem atcHeaderToRes_ontoHeader (res : AtcRes) (wire : Bytes) :
    atcHeaderToRes res wire =
      (if (Header.ofBytes wire).type = atcAck ∨ (Header.ofBytes wire).Counts then 8 else -1,
        Heard.ontoHeader (Header.ofBytes wire) res) := by
  have hcounts : (Header.ofBytes wire).Counts ↔
      int32OfBE (readAt wire 0 4) = atcPlanes ∨ int32OfBE (readAt wire 0 4) = atcAirports := Iff.rfl
  simp only [atcHeaderToRes, getInt, Heard.ontoHeader, hcounts]
  by_cases hack : int32OfBE (readAt wire 0 4) = atcAck
  · simp only [Header.ofBytes, hack, if_true, true_or]
    rfl
  · by_cases hother : int32OfBE (readAt wire 0 4) = atcPlanes ∨
        int32OfBE (readAt wire 0 4) = atcAirports
    · simp only [Header.ofBytes, hack, hother, if_false, if_true, or_true]
      rfl
    · simp only [Header.ofBytes, hack, hother, if_false, or_self]

theorem atcPlanes_ne_atcAck : atcPlanes ≠ atcAck := by decide

theorem atcAirports_ne_atcAck : atcAirports ≠ atcAck := by decide

theorem atcAirports_ne_atcPlanes : atcAirports ≠ atcPlanes := by decide

theorem Header.cases (header : Header) :
    header.type = atcAck ∨ header.Counts ∨ header.Unknown := by
  by_cases hack : header.type = atcAck
  · exact Or.inl hack
  · by_cases hcounts : header.Counts
    · exact Or.inr (Or.inl hcounts)
    · exact Or.inr (Or.inr ⟨hack, hcounts⟩)

theorem Header.Counts.ne_ack {header : Header} (h : header.Counts) : header.type ≠ atcAck := by
  rcases h with h | h
  · rw [h]
    exact atcPlanes_ne_atcAck
  · rw [h]
    exact atcAirports_ne_atcAck

section Read

variable {σ : Type} (transport : Transport σ)

/-- **A response is laid over the one before.** -/
theorem atcReadResponse_heard (stack : Stack) (res : AtcRes) (link : σ) :
    (atcReadResponse transport stack res link).2.1 =
      (heardResponse transport stack link).onto res := by
  rw [atcReadResponse, heardResponse]
  simp only [atcHeaderToRes_ontoHeader]
  by_cases hfailed : (transport.recv stack.header.toList link).1 = -1
  · simp only [hfailed, if_true, Heard.onto]
  · generalize hheader : Header.ofBytes (transport.recv stack.header.toList link).2.1 = header
    simp only [hfailed, if_false, Heard.onto]
    have height : ¬ (8 : Int32) = -1 := by decide
    by_cases hcounts : header.Counts
    · have hack := hcounts.ne_ack
      have hres : Heard.ontoHeader header res =
          { res with type := header.type, len := header.payload.toUInt32 } := by
        rw [Heard.ontoHeader, if_neg hack, if_pos hcounts]
      have hmessages : header.messages = rounds header.payload := if_pos hcounts
      simp only [hcounts, or_true, if_true, height, if_false, hres, hack, hmessages]
      rcases hcounts with htype | htype
      · simp only [htype, if_true, atcReadPlanes, readItems_msg, Int32.toInt32_toUInt32,
          Heard.ontoMsg]
      · simp only [htype, atcAirports_ne_atcPlanes, if_false, if_true, atcReadAirports,
          readItems_msg, Int32.toInt32_toUInt32, Heard.ontoMsg]
    · simp only [Heard.ontoMsg_of_not_counts hcounts]
      by_cases hack : header.type = atcAck
      · have htype : (Heard.ontoHeader header res).type = atcAck := by
          rw [Heard.ontoHeader, if_pos hack]
          rfl
        simp only [hack, true_or, if_true, height, if_false, htype]
        rw [← htype]
      · simp only [hack, hcounts, or_self, if_false, if_true]

/-- What the transport goes through after the header is one of the two loops, for
the number of messages that the header announces. -/
theorem atcReadResponse_rest {stack : Stack} {link : σ}
    (hok : (transport.recv stack.header.toList link).1 ≠ -1) (res : AtcRes) :
    ∃ decode stride res',
      (atcReadResponse transport stack res link).2.2 =
        (readItems transport decode stride
          (Header.ofBytes (transport.recv stack.header.toList link).2.1).messages 0
          stack.body.toList res' (transport.recv stack.header.toList link).2.2).2.2 := by
  have height : ¬ (8 : Int32) = -1 := by decide
  generalize hheader : Header.ofBytes (transport.recv stack.header.toList link).2.1 = header
  simp only [atcReadResponse, atcHeaderToRes_ontoHeader, hok, if_false, hheader]
  rcases header.cases with hack | hcounts | unknown
  · have hzero : header.messages = 0 := if_neg fun hcounts => hcounts.ne_ack hack
    have htype : (Heard.ontoHeader header res).type = atcAck := by
      rw [Heard.ontoHeader, if_pos hack]
      rfl
    refine ⟨decodePlane, sizeofPlane, res, ?_⟩
    simp only [hack, true_or, if_true, height, if_false, htype, hzero, readItems]
  · have hmessages : header.messages = rounds header.payload := if_pos hcounts
    have hres : Heard.ontoHeader header res =
        { res with type := header.type, len := header.payload.toUInt32 } := by
      rw [Heard.ontoHeader, if_neg hcounts.ne_ack, if_pos hcounts]
    simp only [hcounts, or_true, if_true, height, if_false, hres, hcounts.ne_ack, hmessages]
    rcases hcounts with htype | htype
    · refine ⟨decodePlane, sizeofPlane,
        { res with type := atcPlanes, len := header.payload.toUInt32 }, ?_⟩
      simp only [htype, if_true, atcReadPlanes, Int32.toInt32_toUInt32]
    · refine ⟨decodeAirport, sizeofAirport,
        { res with type := atcAirports, len := header.payload.toUInt32 }, ?_⟩
      simp only [htype, atcAirports_ne_atcPlanes, if_false, if_true, atcReadAirports,
        Int32.toInt32_toUInt32]
  · have hzero : header.messages = 0 := if_neg unknown.2
    refine ⟨decodePlane, sizeofPlane, res, ?_⟩
    simp only [unknown.1, unknown.2, or_self, if_false, if_true, hzero, readItems]

/-- **A request leaves in the connection what was heard in answer to it.** -/
theorem atcRequest_heard (stack : Stack) (conn : AtcConn) (link : σ) :
    (atcRequest transport stack conn link).2.1 =
      { conn with res := (heard transport stack conn.req link).onto conn.res } := by
  simp only [atcRequest, heard]
  by_cases hfailed : (sendRequest transport stack conn.req link).1 = -1
  · simp only [hfailed, if_true, Heard.onto]
  · simp only [hfailed, if_false, atcReadResponse_heard]

end Read

/-! ## What the proxies read of it -/

/-- The first word of the memory after items were stored: `msg.return_code`
shares it with the first element. -/
theorem readAt_storeItems_cons {stride : Nat} (hstride : 4 ≤ stride) {item : Bytes}
    (hitem : 4 ≤ item.length) (rest : List Bytes) (msg : Bytes) :
    readAt (storeItems stride 0 (item :: rest) msg) 0 4 = readAt item 0 4 := by
  have hfront : readAt (writeAt msg 0 item) 0 4 = readAt item 0 4 :=
    readAt_writeAt_inside msg (Nat.le_refl 0) (by omega)
  have hkept : readAt (storeItems stride 1 rest (writeAt msg 0 item)) 0 4 =
      readAt (writeAt msg 0 item) 0 4 :=
    readAt_storeItems_before (by omega) (by rw [length_writeAt]; omega)
  rw [storeItems, Nat.zero_mul, Nat.zero_add, hkept, hfront]

namespace Heard

/-- `res.type` after what was heard. -/
def typeOf (heard : Heard) (res : AtcRes) : Int32 :=
  match heard.header with
  | none => res.type
  | some header => header.type

/-- `res.len` after what was heard. -/
def lenOf (heard : Heard) (res : AtcRes) : UInt32 :=
  match heard.header with
  | none => res.len
  | some header =>
      if header.type = atcAck then 0
      else if header.Counts then header.payload.toUInt32
      else res.len

/-- The word that the first message of a body leaves where `msg.return_code` is:
the front of an id, or the `x` of an airport. -/
def firstWord (header : Header) (message : Bytes) : Int32 :=
  if header.type = atcPlanes then int32OfLE (readAt (decodePlane message) 0 4)
  else int32OfBE (readAt message 0 4)

/-- `res.msg.return_code` after what was heard. -/
def returnCodeOf (heard : Heard) (res : AtcRes) : Int32 :=
  match heard.header with
  | none => res.returnCode
  | some header =>
      if header.type = atcAck then header.payload
      else if header.Counts then
        match heard.body with
        | [] => res.returnCode
        | message :: _ => firstWord header message
      else res.returnCode

@[simp] theorem onto_type (heard : Heard) (res : AtcRes) :
    (heard.onto res).type = heard.typeOf res := by
  rw [onto, typeOf]
  cases heard.header with
  | none => rfl
  | some header =>
      dsimp only
      unfold ontoHeader
      split
      · rename_i hack
        exact hack.symm
      · split <;> rfl

@[simp] theorem onto_len (heard : Heard) (res : AtcRes) :
    (heard.onto res).len = heard.lenOf res := by
  rw [onto, lenOf]
  cases heard.header with
  | none => rfl
  | some header =>
      dsimp only
      unfold ontoHeader
      split
      · rfl
      · split <;> rfl

@[simp] theorem onto_returnCode (heard : Heard) (res : AtcRes) :
    (heard.onto res).returnCode = heard.returnCodeOf res := by
  rw [onto, returnCodeOf]
  cases heard.header with
  | none => rfl
  | some header =>
      dsimp only
      by_cases hack : header.type = atcAck
      · have hcounts : ¬ header.Counts := fun h => h.ne_ack hack
        rw [if_pos hack, ontoMsg_of_not_counts hcounts, ontoHeader, if_pos hack]
        exact returnCode_setReturnCode _ _
      · rw [if_neg hack]
        by_cases hcounts : header.Counts
        · rw [if_pos hcounts, ontoHeader, if_neg hack, if_pos hcounts, AtcRes.returnCode, ontoMsg]
          rcases hcounts with htype | htype
          · rw [if_pos htype]
            cases heard.body with
            | nil => rfl
            | cons message rest =>
                rw [List.map_cons, readAt_storeItems_cons (by decide)
                  (by rw [length_decodePlane]; decide)]
                simp only [firstWord, htype, if_true]
          · have hplanes : ¬ header.type = atcPlanes := by
              rw [htype]
              exact atcAirports_ne_atcPlanes
            rw [if_neg hplanes, if_pos htype]
            cases heard.body with
            | nil => rfl
            | cons message rest =>
                rw [List.map_cons, readAt_storeItems_cons (by decide)
                  (by rw [decodeAirport, length_airportBytes]; decide)]
                simp only [firstWord, hplanes, if_false]
                rw [decodeAirport, airportBytes, List.append_assoc, readAt, List.drop_zero,
                  List.take_left' (length_int32LE _), int32OfLE_int32LE]
                rfl
        · rw [if_neg hcounts, ontoMsg_of_not_counts hcounts, ontoHeader, if_neg hack,
            if_neg hcounts]
          rfl

section Words

variable {heard : Heard} {header : Header} (h : heard.header = some header) (res : AtcRes)
include h

theorem typeOf_some : heard.typeOf res = header.type := by
  rw [typeOf, h]

theorem lenOf_ack (hack : header.type = atcAck) : heard.lenOf res = 0 := by
  rw [lenOf, h]
  exact if_pos hack

theorem lenOf_counts (hcounts : header.Counts) :
    heard.lenOf res = header.payload.toUInt32 := by
  rw [lenOf, h]
  exact (if_neg hcounts.ne_ack).trans (if_pos hcounts)

theorem lenOf_unknown (unknown : header.Unknown) : heard.lenOf res = res.len := by
  rw [lenOf, h]
  exact (if_neg unknown.1).trans (if_neg unknown.2)

theorem returnCodeOf_cons (hcounts : header.Counts) {message : Bytes} {rest : List Bytes}
    (hbody : heard.body = message :: rest) :
    heard.returnCodeOf res = firstWord header message := by
  rw [returnCodeOf, h, hbody]
  exact (if_neg hcounts.ne_ack).trans (if_pos hcounts)

theorem returnCodeOf_unknown (unknown : header.Unknown) :
    heard.returnCodeOf res = res.returnCode := by
  rw [returnCodeOf, h]
  exact (if_neg unknown.1).trans (if_neg unknown.2)

end Words

end Heard

end AirTraffic.Protocol
