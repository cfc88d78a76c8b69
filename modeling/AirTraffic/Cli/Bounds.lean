/-
  Cli/Bounds.lean --- what a peer can make the client write.

  WHAT THIS FILE IS FOR.  The count of a response comes off the wire and nothing
  compares it with the size of an array: `_atc_read_planes` and
  `_atc_read_airports` store as many elements as it says, and `get_airplanes` and
  `get_airports` copy as many to the caller.  Their counts are one union, so that
  each of them also copies what the other kind of response counted, or an earlier
  one.  `stays_in_bounds_iff` says for which headers all of these writes stay
  inside the arrays.
-/
import AirTraffic.Cli.Calls

set_option autoImplicit false

namespace AirTraffic.Cli

open AirTraffic.Foundation AirTraffic.Storage AirTraffic.Atcd AirTraffic.Protocol
open AirTraffic.Server

/-! ## The writes -/

/-- The indices of the elements that `atc_request` stores in an array of the
response, for a response of the type of the array. -/
def indicesRead {σ : Type} (transport : Transport σ) (type : Int32) (stack : Stack)
    (req : AtcReq) (link : σ) : List Nat :=
  let (sent, link) := sendRequest transport stack req link
  if sent = -1 then []
  else
    let (received, buffer, link) := transport.recv stack.header.toList link
    if received = -1 then []
    else if (Header.ofBytes buffer).type = type then
      storedIndices transport (rounds (Header.ofBytes buffer).payload) 0 stack.body.toList link
    else []

/-- Everything a call stores in the response or copies to its caller lies within
the arrays. -/
structure InBounds (stack : Stack) (conn : AtcConn) (link : Link) (call : ApiCall) : Prop where
  planes : ∀ req, call.req conn.req = some req →
    ∀ idx ∈ indicesRead Link.clientEnd atcPlanes stack req link, idx < maxPlanes
  airports : ∀ req, call.req conn.req = some req →
    ∀ idx ∈ indicesRead Link.clientEnd atcAirports stack req link, idx < maxAirports
  copiedPlanes : ∀ count buff, (Over.call Link.clientEnd stack conn link call).1 =
    .planes count buff → ∀ idx < buff.length, idx < maxPlanes
  copiedAirports : ∀ count buff, (Over.call Link.clientEnd stack conn link call).1 =
    .airports count buff → ∀ idx < buff.length, idx < maxAirports

/-! ## The peer's bytes -/

/-- The header the client reads: the first bytes of the stream, with the end of
the buffer as it was where the stream is shorter. -/
def peerHeader (stack : Stack) (stream : Bytes) : Header :=
  Header.ofBytes (Link.receive stream stack.header.toList).2.1

/-- The first message of the body that the client reads. -/
def peerMessage (stack : Stack) (stream : Bytes) : Bytes :=
  (Link.receive (stream.drop atcpHeaderLen) stack.body.toList).2.1

/-- The counts that the arrays have room for.  `get_airports` copies nothing when
the word it takes for the return code is -1. -/
structure CountsFit (stack : Stack) (res : AtcRes) (stream : Bytes) (call : ApiCall) : Prop where
  planes : (peerHeader stack stream).type = atcPlanes →
    (peerHeader stack stream).payload.toInt ≤ maxPlanes
  airports : (peerHeader stack stream).type = atcAirports →
    (peerHeader stack stream).payload.toInt ≤ maxAirports
  /-- `get_airplanes` goes by the count it had before when it does not know the type. -/
  stalePlanes : call = .getAirplanes → (peerHeader stack stream).Unknown →
    res.len.toInt32.toInt ≤ maxPlanes
  /-- So does `get_airports`. -/
  staleAirports : call = .getAirports → (peerHeader stack stream).Unknown →
    res.returnCode ≠ -1 → res.len.toInt32.toInt ≤ maxAirports
  /-- A response of planes to `get_airports`. -/
  crossed : call = .getAirports → (peerHeader stack stream).type = atcPlanes →
    int32OfLE (readAt (decodePlane (peerMessage stack stream)) 0 4) ≠ -1 →
    (peerHeader stack stream).payload.toInt ≤ maxAirports

theorem rounds_le {max : Int32} {n : Nat} : rounds max ≤ n ↔ max.toInt ≤ n := by
  unfold rounds
  exact Int.toNat_le

theorem forall_lt_iff {n m : Nat} : (∀ idx < n, idx < m) ↔ n ≤ m := by
  constructor
  · intro h
    by_contra hlt
    exact absurd (h m (by omega)) (Nat.lt_irrefl m)
  · intro h idx hidx
    omega

/-- A receive from a stream never fails, and the buffer keeps its length. -/
theorem clientEnd_recv {buffer : Bytes} (hbuffer : buffer.length < 2 ^ 31) (link : Link) :
    (Link.clientEnd.recv buffer link).1 ≠ -1 ∧
      (Link.clientEnd.recv buffer link).2.1.length = buffer.length := by
  have hgot : (link.toClient.take buffer.length).length ≤ buffer.length := by simp
  refine ⟨ofNat_ne_neg_one (Nat.lt_of_le_of_lt hgot hbuffer), ?_⟩
  show (writeAt buffer 0 (link.toClient.take buffer.length)).length = buffer.length
  rw [length_writeAt]
  omega

section Peer

variable (stack : Stack) (req : AtcReq) (toServer stream : Bytes)

/-- The header comes in, whatever there is of it. -/
theorem recvHeader_link :
    ∃ count buffer,
      Link.clientEnd.recv stack.header.toList { toServer := toServer, toClient := stream } =
        (count, buffer, { toServer := toServer, toClient := stream.drop atcpHeaderLen }) ∧
      count ≠ -1 ∧ Header.ofBytes buffer = peerHeader stack stream := by
  have hlength : stack.header.toList.length < 2 ^ 31 := by
    rw [stack.header.toList_length]
    decide
  have hok := (clientEnd_recv hlength
    { toServer := toServer, toClient := stream }).1
  have hdrop : stream.drop stack.header.toList.length = stream.drop atcpHeaderLen := by
    rw [stack.header.toList_length]
  refine ⟨_, _, ?_, hok, rfl⟩
  rw [← hdrop]
  rfl

/-- The request goes out. -/
theorem sendRequest_clientEnd (link : Link) :
    sendRequest Link.clientEnd stack req link =
      (0, { link with toServer :=
        link.toServer ++ (atcReqToWire req stack.message.toList).wire.take atcpMsgLen }) := rfl

/-- The header is heard, and then the body. -/
theorem heard_link :
    heard Link.clientEnd stack req { toServer := toServer, toClient := stream } =
      { header := some (peerHeader stack stream)
        body :=
          takeMessages Link.clientEnd (peerHeader stack stream).messages stack.body.toList
            { toServer := toServer ++ (atcReqToWire req stack.message.toList).wire.take atcpMsgLen
              toClient := stream.drop atcpHeaderLen } } := by
  have hsent : ¬ (0 : Int32) = -1 := by decide
  obtain ⟨count, buffer, hrecv, hok, hheader⟩ := recvHeader_link stack
    (toServer ++ (atcReqToWire req stack.message.toList).wire.take atcpMsgLen) stream
  simp only [heard, sendRequest_clientEnd, hsent, if_false, heardResponse, hrecv, hok, hheader]

theorem length_body_link (link : Link) (left : Nat) :
    (takeMessages Link.clientEnd left stack.body.toList link).length = left := by
  refine length_takeMessages (fun buffer link hbuffer => ?_) left link stack.body.toList_length
  have hlt : buffer.length < 2 ^ 31 := by
    rw [hbuffer]
    decide
  obtain ⟨hok, hlength⟩ := clientEnd_recv hlt link
  exact ⟨hok, hlength.trans hbuffer⟩

/-- The first message is the one at the front of the stream. -/
theorem head_body_link {left : Nat} (hleft : 0 < left) :
    (takeMessages Link.clientEnd left stack.body.toList
      { toServer := toServer, toClient := stream.drop atcpHeaderLen }).head? =
        some (peerMessage stack stream) := by
  obtain ⟨rest, rfl⟩ : ∃ rest, left = rest + 1 := ⟨left - 1, by omega⟩
  have hlength : stack.body.toList.length < 2 ^ 31 := by
    rw [stack.body.toList_length]
    decide
  have hok := (clientEnd_recv hlength
    { toServer := toServer, toClient := stream.drop atcpHeaderLen }).1
  simp only [takeMessages, hok, if_false, List.head?_cons]
  rfl

/-- The reader stores one element for each that is counted. -/
theorem indicesRead_link (type : Int32) :
    indicesRead Link.clientEnd type stack req { toServer := toServer, toClient := stream } =
      if (peerHeader stack stream).type = type then
        List.range' 0 (rounds (peerHeader stack stream).payload)
      else [] := by
  have hsent : ¬ (0 : Int32) = -1 := by decide
  obtain ⟨count, buffer, hrecv, hok, hheader⟩ := recvHeader_link stack
    (toServer ++ (atcReqToWire req stack.message.toList).wire.take atcpMsgLen) stream
  simp only [indicesRead, sendRequest_clientEnd, hsent, if_false, hrecv, hok, hheader,
    storedIndices_eq, length_body_link]

theorem indicesRead_lt_iff (type : Int32) (n : Nat) :
    (∀ idx ∈ indicesRead Link.clientEnd type stack req
        { toServer := toServer, toClient := stream }, idx < n) ↔
      ((peerHeader stack stream).type = type → (peerHeader stack stream).payload.toInt ≤ n) := by
  rw [indicesRead_link]
  by_cases htype : (peerHeader stack stream).type = type
  · simp only [htype, if_true, forall_const, List.mem_range'_1, Nat.zero_le, Nat.zero_add,
      true_and]
    exact forall_lt_iff.trans rounds_le
  · simp [htype]

end Peer

/-! ## The copies -/

theorem length_planesReply (res : AtcRes) :
    (planesReply res).2.length = if res.type = atcAck then 0 else rounds res.len.toInt32 := by
  unfold planesReply
  split
  · rfl
  · simp [resPlanes]

theorem length_airportsReply (res : AtcRes) :
    (airportsReply res).2.length = if res.returnCode = -1 then 0 else rounds res.len.toInt32 := by
  unfold airportsReply
  split
  · rfl
  · simp [resAirports]

section Copies

variable {stack : Stack} {res : AtcRes} {toServer stream : Bytes} {req : AtcReq}

/-- `get_airplanes` copies no more than the reader stored, unless it does not know
the type. -/
theorem copiedPlanes_iff
    (hplanes : (peerHeader stack stream).type = atcPlanes →
      (peerHeader stack stream).payload.toInt ≤ maxPlanes)
    (hairports : (peerHeader stack stream).type = atcAirports →
      (peerHeader stack stream).payload.toInt ≤ maxAirports) :
    (planesReply ((heard Link.clientEnd stack req
        { toServer := toServer, toClient := stream }).onto res)).2.length ≤ maxPlanes ↔
      ((peerHeader stack stream).Unknown → res.len.toInt32.toInt ≤ maxPlanes) := by
  have hheard := congrArg Heard.header (heard_link stack req toServer stream)
  rw [length_planesReply, Heard.onto_type, Heard.onto_len, Heard.typeOf_some hheard]
  rcases (peerHeader stack stream).cases with hack | hcounts | unknown
  · rw [if_pos hack]
    exact ⟨fun _ unknown => absurd hack unknown.1, fun _ => Nat.zero_le _⟩
  · rw [if_neg hcounts.ne_ack, Heard.lenOf_counts hheard res hcounts, Int32.toInt32_toUInt32,
      rounds_le]
    have hle : (peerHeader stack stream).payload.toInt ≤ maxPlanes := by
      rcases hcounts with htype | htype
      · exact hplanes htype
      · exact Int.le_trans (hairports htype) (by decide)
    exact ⟨fun _ unknown => absurd hcounts unknown.2, fun _ => hle⟩
  · rw [if_neg unknown.1, Heard.lenOf_unknown hheard res unknown, rounds_le]
    exact ⟨fun h _ => h, fun h => h unknown⟩

/-- `get_airports` copies what a response counts, of whichever kind. -/
theorem copiedAirports_iff
    (hairports : (peerHeader stack stream).type = atcAirports →
      (peerHeader stack stream).payload.toInt ≤ maxAirports) :
    (airportsReply ((heard Link.clientEnd stack req
        { toServer := toServer, toClient := stream }).onto res)).2.length ≤ maxAirports ↔
      ((peerHeader stack stream).Unknown → res.returnCode ≠ -1 →
          res.len.toInt32.toInt ≤ maxAirports) ∧
        ((peerHeader stack stream).type = atcPlanes →
          int32OfLE (readAt (decodePlane (peerMessage stack stream)) 0 4) ≠ -1 →
          (peerHeader stack stream).payload.toInt ≤ maxAirports) := by
  have hheard := congrArg Heard.header (heard_link stack req toServer stream)
  have hbody := congrArg Heard.body (heard_link stack req toServer stream)
  rw [length_airportsReply, Heard.onto_returnCode, Heard.onto_len]
  generalize hheader : peerHeader stack stream = header at *
  generalize heard Link.clientEnd stack req { toServer := toServer, toClient := stream } = got
    at *
  rcases header.cases with hack | hcounts | unknown
  · have hplanes : ¬ header.type = atcPlanes := fun heq => atcPlanes_ne_atcAck (heq.symm.trans hack)
    have hzero : rounds (0 : UInt32).toInt32 = 0 := by decide
    rw [Heard.lenOf_ack hheard res hack, hzero, ite_self]
    exact ⟨fun _ => ⟨fun unknown => absurd hack unknown.1, fun heq => absurd heq hplanes⟩,
      fun _ => Nat.zero_le _⟩
  · rw [Heard.lenOf_counts hheard res hcounts, Int32.toInt32_toUInt32]
    have hknown : ¬ header.Unknown := fun unknown => unknown.2 hcounts
    have hmessages : header.messages = rounds header.payload := if_pos hcounts
    by_cases hsmall : header.payload.toInt ≤ maxAirports
    · have hle : rounds header.payload ≤ maxAirports := rounds_le.mpr hsmall
      refine ⟨fun _ => ⟨fun unknown => absurd unknown hknown, fun _ _ => hsmall⟩, fun _ => ?_⟩
      split
      · exact Nat.zero_le _
      · exact hle
    · -- more than two elements: there is a first message, and it decides
      have htype : header.type = atcPlanes := by
        rcases hcounts with htype | htype
        · exact htype
        · exact absurd (hairports htype) hsmall
      have hmore : ¬ rounds header.payload ≤ maxAirports := fun hle => hsmall (rounds_le.mp hle)
      have hpos : 0 < header.messages := by omega
      have hfirst := head_body_link stack
        (toServer ++ (atcReqToWire req stack.message.toList).wire.take atcpMsgLen) stream hpos
      obtain ⟨rest, hcons⟩ := List.head?_eq_some_iff.mp hfirst
      rw [Heard.returnCodeOf_cons hheard res hcounts (hbody.trans hcons), Heard.firstWord,
        if_pos htype]
      by_cases hword : int32OfLE (readAt (decodePlane (peerMessage stack stream)) 0 4) = -1
      · simp [hword, hknown]
      · simp [hword, hknown, htype, hsmall, hmore]
  · have hplanes : ¬ header.type = atcPlanes := fun heq => unknown.2 (Or.inl heq)
    rw [Heard.lenOf_unknown hheard res unknown, Heard.returnCodeOf_unknown hheard res unknown]
    by_cases hcode : res.returnCode = -1
    · simp [hcode, hplanes]
    · rw [if_neg hcode, rounds_le]
      simp [hcode, hplanes, unknown]

end Copies

/-- **What stays in bounds.**  Everything a call stores and copies lies within the
arrays exactly if the counts it goes by fit them. -/
theorem stays_in_bounds_iff (stack : Stack) (conn : AtcConn) (toServer stream : Bytes)
    (call : ApiCall) :
    InBounds stack conn { toServer := toServer, toClient := stream } call ↔
      ((call.req conn.req).isSome = true → CountsFit stack conn.res stream call) := by
  cases hreq : call.req conn.req with
  | none =>
      refine ⟨fun _ h => absurd h (by simp), fun _ => ?_⟩
      have hreply : (Over.call Link.clientEnd stack conn
          { toServer := toServer, toClient := stream } call).1 = call.refusal := by
        rw [call_eq, hreq]
      refine
        { planes := fun req h => absurd (hreq.symm.trans h) (by simp)
          airports := fun req h => absurd (hreq.symm.trans h) (by simp)
          copiedPlanes := fun count buff h => ?_
          copiedAirports := fun count buff h => ?_ }
      · cases call <;> simp [ApiCall.refusal] at hreply <;> rw [hreply] at h <;>
          exact absurd h (by simp)
      · cases call <;> simp [ApiCall.refusal] at hreply <;> rw [hreply] at h <;>
          exact absurd h (by simp)
  | some req =>
      have hreply := (@call_heard _ Link.clientEnd stack conn
        { toServer := toServer, toClient := stream } _ _ hreq).1
      have hread := indicesRead_lt_iff stack req toServer stream
      constructor
      · intro inside _
        have hplanes := (hread atcPlanes maxPlanes).mp (inside.planes req hreq)
        have hairports := (hread atcAirports maxAirports).mp (inside.airports req hreq)
        have hcopied : call = .getAirports → _ := fun heq =>
          (copiedAirports_iff hairports).mp (forall_lt_iff.mp
            (inside.copiedAirports _ _ (by rw [hreply, heq, ApiCall.reply])))
        exact
          { planes := hplanes
            airports := hairports
            stalePlanes := fun heq => (copiedPlanes_iff hplanes hairports).mp
              (forall_lt_iff.mp (inside.copiedPlanes _ _ (by rw [hreply, heq, ApiCall.reply])))
            staleAirports := fun heq => (hcopied heq).1
            crossed := fun heq => (hcopied heq).2 }
      · intro h
        have fits := h rfl
        refine
          { planes := fun req' h => ?_
            airports := fun req' h => ?_
            copiedPlanes := fun count buff h => ?_
            copiedAirports := fun count buff h => ?_ }
        · obtain rfl := Option.some.inj (hreq.symm.trans h)
          exact (hread atcPlanes maxPlanes).mpr fits.planes
        · obtain rfl := Option.some.inj (hreq.symm.trans h)
          exact (hread atcAirports maxAirports).mpr fits.airports
        · rw [hreply] at h
          cases call with
          | getAirplanes =>
              obtain ⟨_, rfl⟩ := ApiReply.planes.inj h
              exact forall_lt_iff.mpr ((copiedPlanes_iff fits.planes fits.airports).mpr
                (fits.stalePlanes rfl))
          | getCrashed | getLanded | getAirports | createPlane | set =>
              exact absurd h (by simp [ApiCall.reply])
        · rw [hreply] at h
          cases call with
          | getAirports =>
              obtain ⟨_, rfl⟩ := ApiReply.airports.inj h
              exact forall_lt_iff.mpr ((copiedAirports_iff fits.airports).mpr
                ⟨fits.staleAirports rfl, fits.crossed rfl⟩)
          | getAirplanes | getCrashed | getLanded | createPlane | set =>
              exact absurd h (by simp [ApiCall.reply])

/-- A header that counts 51 planes, with nothing behind it. -/
def crowdedHeader : Bytes := int32BE atcPlanes ++ int32BE 51

/-- A connection on which nothing was asked yet. -/
def freshConn : AtcConn where
  req := { type := AtcReqType.join.code, plane := zeroPlane }
  res := zeroRes

/-- The reader stores a plane behind the last one of the array. -/
theorem crowdedHeader_overflows :
    ¬ InBounds Stack.zero freshConn { toServer := [], toClient := crowdedHeader }
      .getAirplanes := by
  intro inside
  have hoverflow : maxPlanes ∈ indicesRead Link.clientEnd atcPlanes Stack.zero
      { freshConn.req with type := AtcReqType.getPlanes.code }
      { toServer := [], toClient := crowdedHeader } := by
    decide +kernel
  exact absurd (inside.planes _ rfl maxPlanes hoverflow) (Nat.lt_irrefl maxPlanes)

end AirTraffic.Cli
