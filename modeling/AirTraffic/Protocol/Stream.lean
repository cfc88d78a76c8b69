/-
  Protocol/Stream.lean --- one side reads what the other wrote.

  WHAT THIS FILE IS FOR.  Over a `Link`, the loop that writes the body of a
  response appends one message for each element (`writeItems_link`), and the loop
  that reads it takes exactly these and stores what they decode to
  (`readItems_link`).  With the headers this gives `readResponse_writeResponse`:
  the client takes exactly the bytes of the response and ends up with the same
  type and the same active payload (`SamePayload`).
-/
import AirTraffic.Protocol.Codec
import AirTraffic.Protocol.Proto

set_option autoImplicit false

namespace AirTraffic.Protocol

open AirTraffic.Foundation AirTraffic.Atcd

/-! ## Arrays in memory -/

/-- The memory after the items were stored `stride` apart, from an index on. -/
def storeItems (stride : Nat) : Nat → List Bytes → Bytes → Bytes
  | _, [], msg => msg
  | idx, item :: rest, msg => storeItems stride (idx + 1) rest (writeAt msg (idx * stride) item)

/-- What lies before the first item stored is kept. -/
theorem readAt_storeItems_before {stride : Nat} {items : List Bytes} {idx a n : Nat}
    {msg : Bytes} (hbelow : a + n ≤ idx * stride) (hold : a + n ≤ msg.length) :
    readAt (storeItems stride idx items msg) a n = readAt msg a n := by
  induction items generalizing idx msg with
  | nil => rfl
  | cons item rest ih =>
      have hnext : idx * stride ≤ (idx + 1) * stride :=
        Nat.mul_le_mul_right stride (Nat.le_succ idx)
      rw [storeItems, ih (by omega) (by rw [length_writeAt]; omega),
        readAt_writeAt_before item hbelow hold]

/-- The items stored are found at their places. -/
theorem readAt_storeItems {stride size : Nat} (hsize : size ≤ stride) {items : List Bytes}
    (hlen : ∀ item ∈ items, item.length = size) (idx : Nat) {k : Nat} (msg : Bytes)
    {item : Bytes} (hk : items[k]? = some item) :
    readAt (storeItems stride idx items msg) ((idx + k) * stride) size = item := by
  induction items generalizing idx k msg with
  | nil => simp at hk
  | cons head rest ih =>
      have hhead : head.length = size := hlen head List.mem_cons_self
      cases k with
      | zero =>
          have hitem : head = item := by simpa using hk
          have hnext : (idx + 1) * stride = idx * stride + stride := Nat.succ_mul idx stride
          have hself := readAt_writeAt_self msg (idx * stride) head
          rw [Nat.add_zero, storeItems, readAt_storeItems_before (by omega)
            (by rw [length_writeAt]; omega), ← hitem, ← hhead]
          exact hself
      | succ k =>
          have hshift : idx + (k + 1) = idx + 1 + k := by omega
          rw [storeItems, hshift]
          exact ih (fun other hmem => hlen other (List.mem_cons_of_mem head hmem)) (idx + 1)
            (writeAt msg (idx * stride) head) (by simpa using hk)

/-! ## Loops over a link -/

/-- The messages a loop of `_atc_write_response` sends: one for each element, and
each with the format of its element in front. -/
theorem writeItems_link {encode : Nat → Bytes → Bytes} {format : Nat → Bytes} {width : Nat}
    (hencode : ∀ idx buffer, buffer.length = atcpMsgLen →
      (encode idx buffer).length = atcpMsgLen ∧
        readAt (encode idx buffer) 0 width = format idx) :
    ∀ (left idx : Nat) {buffer : Bytes} (link : Link), buffer.length = atcpMsgLen →
      ∃ messages : List Bytes, messages.length = left ∧
        (∀ message ∈ messages, message.length = atcpMsgLen) ∧
        (∀ k message, messages[k]? = some message →
          readAt message 0 width = format (idx + k)) ∧
        writeItems Link.serverEnd encode left idx buffer link =
          (true, { link with toClient := link.toClient ++ messages.flatten }) := by
  intro left
  induction left with
  | zero =>
      intro idx buffer link hbuffer
      exact ⟨[], rfl, by simp, by simp, by simp [writeItems]⟩
  | succ left ih =>
      intro idx buffer link hbuffer
      obtain ⟨hlen, hformat⟩ := hencode idx buffer hbuffer
      obtain ⟨messages, hcount, hlens, hformats, hrest⟩ := ih (idx + 1)
        { link with toClient := link.toClient ++ encode idx buffer } hlen
      refine ⟨encode idx buffer :: messages, by rw [List.length_cons, hcount], ?_, ?_, ?_⟩
      · intro message hmem
        rcases List.mem_cons.mp hmem with rfl | hmem
        · exact hlen
        · exact hlens message hmem
      · intro k message hk
        cases k with
        | zero =>
            have hmessage : encode idx buffer = message := by simpa using hk
            rw [← hmessage, hformat, Nat.add_zero]
        | succ k =>
            have hshift : idx + (k + 1) = idx + 1 + k := by omega
            rw [hformats k message (by simpa using hk), hshift]
      · have htake : (encode idx buffer).take atcpMsgLen = encode idx buffer :=
          List.take_of_length_le (Nat.le_of_eq hlen)
        have hsent : ¬ (0 : Int32) = -1 := by decide
        have hstep : writeItems Link.serverEnd encode (left + 1) idx buffer link =
            writeItems Link.serverEnd encode left (idx + 1) (encode idx buffer)
              { link with toClient := link.toClient ++ encode idx buffer } := by
          simp only [writeItems, htake, Link.serverEnd, hsent, if_false]
        rw [hstep, hrest, List.flatten_cons, List.append_assoc]

/-- The loop that reads takes its messages off the stream. -/
theorem readItems_link (decode : Bytes → Bytes) (stride : Nat) {messages : List Bytes}
    (hlens : ∀ message ∈ messages, message.length = atcpMsgLen) (toServer rest : Bytes)
    (idx : Nat) {buffer : Bytes} (res : AtcRes) (hbuffer : buffer.length = atcpMsgLen) :
    readItems Link.clientEnd decode stride messages.length idx buffer res
        { toServer := toServer, toClient := messages.flatten ++ rest } =
      (true, { res with msg := storeItems stride idx (messages.map decode) res.msg },
        { toServer := toServer, toClient := rest }) := by
  induction messages generalizing idx buffer res with
  | nil => rfl
  | cons message later ih =>
      have hmessage : message.length = atcpMsgLen := hlens message List.mem_cons_self
      have hreceive := Link.receive_append message (later.flatten ++ rest) buffer
        (hmessage.trans hbuffer.symm)
      have hfull : ¬ Int32.ofNat buffer.length = -1 := by
        rw [hbuffer]
        decide
      have hlater := ih (fun other hmem => hlens other (List.mem_cons_of_mem message hmem))
        (idx + 1)
        { res with msg := writeAt res.msg (idx * stride) (decode message) } hmessage
      have hstep : readItems Link.clientEnd decode stride (later.length + 1) idx buffer res
            { toServer := toServer, toClient := message ++ (later.flatten ++ rest) } =
          readItems Link.clientEnd decode stride later.length (idx + 1) message
            { res with msg := writeAt res.msg (idx * stride) (decode message) }
            { toServer := toServer, toClient := later.flatten ++ rest } := by
        simp only [readItems, Link.clientEnd, hreceive, hfull, if_false]
      rw [List.length_cons, List.flatten_cons, List.append_assoc, hstep, hlater,
        List.map_cons, storeItems]

/-! ## Records through the loops -/

theorem length_decodePlane (wire : Bytes) : (decodePlane wire).length = sizeofPlane :=
  AtcPlane.length_bytes _

theorem length_airportBytes (airport : AtcAirport) : (airportBytes airport).length = 11 := by
  simp [airportBytes]

theorem airportAt_eq {msg : Bytes} {idx : Nat} {airport : AtcAirport}
    (h : readAt msg (idx * sizeofAirport) 11 = airportBytes airport) :
    airportAt msg idx = airport := by
  have hfield : ∀ a n, a + n ≤ 11 →
      readAt msg (idx * sizeofAirport + a) n = readAt (airportBytes airport) a n :=
    fun a n ha => by rw [← h, readAt_readAt msg ha]
  have hx : int32OfLE (readAt msg (idx * sizeofAirport) 4) = airport.x := by
    rw [← Nat.add_zero (idx * sizeofAirport), hfield 0 4 (by decide)]
    simp [airportBytes, readAt]
  have hy : int32OfLE (readAt msg (idx * sizeofAirport + 4) 4) = airport.y := by
    rw [hfield 4 4 (by decide)]
    simp [airportBytes, readAt]
  have hid : vectorAt msg (idx * sizeofAirport + 8) 3 = airport.id := by
    apply vectorAt_eq
    rw [hfield 8 3 (by decide)]
    simp [airportBytes, readAt, List.drop_append, List.drop_of_length_le,
      List.take_of_length_le]
  rw [airportAt, hx, hy, hid]

theorem encodePlane_spec (msg : Bytes) (idx : Nat) {buffer : Bytes}
    (h : buffer.length = atcpMsgLen) :
    (encodePlane msg idx buffer).length = atcpMsgLen ∧
      readAt (encodePlane msg idx buffer) 0 38 = planeFormat (planeAt msg idx) := by
  rw [encodePlane, atcPlaneToWire_wire _ h]
  constructor
  · simp [atcpMsgLen]
  · simp [readAt]

theorem encodeAirport_spec (msg : Bytes) (idx : Nat) {buffer : Bytes}
    (h : buffer.length = atcpMsgLen) :
    (encodeAirport msg idx buffer).length = atcpMsgLen ∧
      readAt (encodeAirport msg idx buffer) 0 11 = airportFormat (airportAt msg idx) := by
  have hself := readAt_writeAt_self buffer 0 (airportFormat (airportAt msg idx))
  rw [length_airportFormat] at hself
  rw [encodeAirport, atcAirportToWire_eq]
  refine ⟨?_, hself⟩
  simp [h, atcpMsgLen]

/-! ## Responses -/

/-- The type and the active payload of a response have arrived: the return code,
or the count and the records. -/
structure SamePayload (sent got : AtcRes) : Prop where
  type : got.type = sent.type
  code : sent.type = atcAck → got.returnCode = sent.returnCode
  count : sent.type ≠ atcAck → got.len = sent.len
  planes : sent.type = atcPlanes → ∀ idx < rounds sent.len.toInt32,
    planeAt got.msg idx = overWire (planeAt sent.msg idx)
  airports : sent.type = atcAirports → ∀ idx < rounds sent.len.toInt32,
    airportAt got.msg idx = airportAt sent.msg idx

@[simp] theorem returnCode_setReturnCode (res : AtcRes) (code : Int32) :
    (res.setReturnCode code).returnCode = code := by
  have hself := readAt_writeAt_self res.msg 0 (int32LE code)
  rw [length_int32LE] at hself
  rw [AtcRes.returnCode, AtcRes.setReturnCode, hself, int32OfLE_int32LE]

theorem readHeader_ack {sent : AtcRes} (h : sent.type = atcAck) (res : AtcRes) :
    SamePayload sent (readHeader res sent.type (headerPayload sent)) := by
  have hother : ∀ {type : Int32}, type ≠ atcAck → sent.type ≠ type :=
    fun hne heq => hne (heq.symm.trans h)
  rw [readHeader, headerPayload, if_pos h, if_pos h]
  exact
    { type := rfl
      code := fun _ => returnCode_setReturnCode _ _
      count := fun hne => absurd h hne
      planes := fun heq => absurd heq (hother (by decide))
      airports := fun heq => absurd heq (hother (by decide)) }

theorem readHeader_count {sent : AtcRes} (h : sent.type ≠ atcAck) (res : AtcRes) :
    readHeader res sent.type (headerPayload sent) =
      { res with type := sent.type, len := sent.len } := by
  rw [readHeader, headerPayload, if_neg h, if_neg h, UInt32.toUInt32_toInt32]

/-- The header goes out, and then the body of its type. -/
theorem atcWriteResponse_link {sent : AtcRes} (htype : KnownType sent.type) (stack : Stack)
    (link : Link) :
    atcWriteResponse Link.serverEnd stack sent link =
      let link := { link with toClient := link.toClient ++ headerFormat sent }
      if sent.type = atcAck then (0, link)
      else if sent.type = atcPlanes then
        atcWritePlanes Link.serverEnd stack.body.toList sent link
      else atcWriteAirports Link.serverEnd stack.body.toList sent link := by
  have hsent : ¬ (0 : Int32) = -1 := by decide
  have hheader := atcResToHeader_eq htype stack.header.toList_length
  simp only [atcWriteResponse, hheader]
  simp only [Link.serverEnd, hsent, if_false]
  by_cases hack : sent.type = atcAck
  · simp only [hack, if_true]
  · by_cases hplanes : sent.type = atcPlanes
    · simp only [hplanes, if_true]
    · have hairports := (htype.resolve_left hack).resolve_left hplanes
      simp only [hairports, if_true]

/-- The header comes in, and then the body of its type. -/
theorem atcReadResponse_link {sent : AtcRes} (htype : KnownType sent.type) (stack : Stack)
    (res : AtcRes) (toServer body : Bytes) :
    atcReadResponse Link.clientEnd stack res
        { toServer := toServer, toClient := headerFormat sent ++ body } =
      let link : Link := { toServer := toServer, toClient := body }
      let counted := { res with type := sent.type, len := sent.len }
      if sent.type = atcAck then
        (0, readHeader res sent.type (headerPayload sent), link)
      else if sent.type = atcPlanes then
        atcReadPlanes Link.clientEnd stack.body.toList counted link
      else atcReadAirports Link.clientEnd stack.body.toList counted link := by
  have hlen := stack.header.toList_length
  have hreceive : Link.receive (headerFormat sent ++ body) stack.header.toList =
      (8, headerFormat sent, body) := by
    rw [Link.receive_append _ _ _ (by rw [length_headerFormat, hlen]), hlen]
    rfl
  have height : ¬ (8 : Int32) = -1 := by decide
  have hread := atcHeaderToRes_headerFormat htype res
  have hrecv : Link.clientEnd.recv stack.header.toList
      { toServer := toServer, toClient := headerFormat sent ++ body } =
      (8, headerFormat sent, { toServer := toServer, toClient := body }) := by
    simp only [Link.clientEnd, hreceive]
  have hkind : (readHeader res sent.type (headerPayload sent)).type = sent.type := by
    unfold readHeader
    split <;> rfl
  simp only [atcReadResponse, hrecv, height, if_false, hread, hkind]
  by_cases hack : sent.type = atcAck
  · simp only [hack, if_true]
  · rw [readHeader_count hack]
    by_cases hplanes : sent.type = atcPlanes
    · simp only [hplanes, if_true]
    · have hairports := (htype.resolve_left hack).resolve_left hplanes
      simp only [hairports, if_true]

/-- Planes through both loops. -/
theorem readPlanes_writePlanes (sent res : AtcRes) (link : Link) (hcount : res.len = sent.len)
    {writeBuffer readBuffer : Bytes} (hwrite : writeBuffer.length = atcpMsgLen)
    (hread : readBuffer.length = atcpMsgLen) :
    ∃ body got, atcWritePlanes Link.serverEnd writeBuffer sent link =
        (sent.len.toInt32, { link with toClient := link.toClient ++ body }) ∧
      (∀ toServer, atcReadPlanes Link.clientEnd readBuffer res
          { toServer := toServer, toClient := body } =
        (sent.len.toInt32, got, { toServer := toServer, toClient := [] })) ∧
      got.type = res.type ∧ got.len = res.len ∧
      ∀ idx < rounds sent.len.toInt32,
        planeAt got.msg idx = overWire (planeAt sent.msg idx) := by
  obtain ⟨messages, hlength, hlens, hformats, hwritten⟩ := writeItems_link
    (fun idx _ h => encodePlane_spec sent.msg idx h)
    (rounds sent.len.toInt32) 0 link hwrite
  have hitems : ∀ toServer, readItems Link.clientEnd decodePlane sizeofPlane
        (rounds sent.len.toInt32) 0 readBuffer res
        { toServer := toServer, toClient := messages.flatten } =
      (true, { res with msg := storeItems sizeofPlane 0 (messages.map decodePlane) res.msg },
        { toServer := toServer, toClient := [] }) := by
    intro toServer
    have := readItems_link decodePlane sizeofPlane hlens toServer [] 0 res hread
    rwa [List.append_nil, hlength] at this
  refine ⟨messages.flatten,
    { res with msg := storeItems sizeofPlane 0 (messages.map decodePlane) res.msg },
    ?_, ?_, rfl, rfl, ?_⟩
  · simp only [atcWritePlanes, hwritten, if_true]
  · intro toServer
    simp only [atcReadPlanes, hcount, hitems, if_true]
  · intro idx hidx
    obtain ⟨message, hmessage⟩ : ∃ message, messages[idx]? = some message :=
      ⟨_, List.getElem?_eq_getElem (by rw [hlength]; exact hidx)⟩
    have hlens' : ∀ item ∈ messages.map decodePlane, item.length = sizeofPlane := by
      intro item hmem
      obtain ⟨other, _, rfl⟩ := List.mem_map.mp hmem
      exact length_decodePlane other
    have hstored := readAt_storeItems (Nat.le_refl _) hlens' 0 res.msg
      (by rw [List.getElem?_map, hmessage]; rfl)
    have hformat := hformats idx message hmessage
    rw [Nat.zero_add] at hstored hformat
    rw [planeAt, hstored, decodePlane, AtcPlane.ofBytes_bytes, atcWireToPlane_eq hformat]

/-- Airports through both loops. -/
theorem readAirports_writeAirports (sent res : AtcRes) (link : Link)
    (hcount : res.len = sent.len) {writeBuffer readBuffer : Bytes}
    (hwrite : writeBuffer.length = atcpMsgLen) (hread : readBuffer.length = atcpMsgLen) :
    ∃ body got, atcWriteAirports Link.serverEnd writeBuffer sent link =
        (sent.len.toInt32, { link with toClient := link.toClient ++ body }) ∧
      (∀ toServer, atcReadAirports Link.clientEnd readBuffer res
          { toServer := toServer, toClient := body } =
        (sent.len.toInt32, got, { toServer := toServer, toClient := [] })) ∧
      got.type = res.type ∧ got.len = res.len ∧
      ∀ idx < rounds sent.len.toInt32,
        airportAt got.msg idx = airportAt sent.msg idx := by
  obtain ⟨messages, hlength, hlens, hformats, hwritten⟩ := writeItems_link
    (fun idx _ h => encodeAirport_spec sent.msg idx h)
    (rounds sent.len.toInt32) 0 link hwrite
  have hitems : ∀ toServer, readItems Link.clientEnd decodeAirport sizeofAirport
        (rounds sent.len.toInt32) 0 readBuffer res
        { toServer := toServer, toClient := messages.flatten } =
      (true,
        { res with msg := storeItems sizeofAirport 0 (messages.map decodeAirport) res.msg },
        { toServer := toServer, toClient := [] }) := by
    intro toServer
    have := readItems_link decodeAirport sizeofAirport hlens toServer [] 0 res hread
    rwa [List.append_nil, hlength] at this
  refine ⟨messages.flatten,
    { res with msg := storeItems sizeofAirport 0 (messages.map decodeAirport) res.msg },
    ?_, ?_, rfl, rfl, ?_⟩
  · simp only [atcWriteAirports, hwritten, if_true]
  · intro toServer
    simp only [atcReadAirports, hcount, hitems, if_true]
  · intro idx hidx
    obtain ⟨message, hmessage⟩ : ∃ message, messages[idx]? = some message :=
      ⟨_, List.getElem?_eq_getElem (by rw [hlength]; exact hidx)⟩
    have hsize : 11 ≤ sizeofAirport := by decide
    have hlens' : ∀ item ∈ messages.map decodeAirport, item.length = 11 := by
      intro item hmem
      obtain ⟨other, _, rfl⟩ := List.mem_map.mp hmem
      exact length_airportBytes _
    have hstored := readAt_storeItems hsize hlens' 0 res.msg
      (by rw [List.getElem?_map, hmessage]; rfl)
    have hformat := hformats idx message hmessage
    rw [Nat.zero_add] at hstored hformat
    rw [decodeAirport, atcWireToAirport_eq hformat] at hstored
    exact airportAt_eq hstored

/-- **The client reads the response the server wrote.**  `stream` is what the
response puts on the way, and the client takes all of it. -/
theorem readResponse_writeResponse {sent : AtcRes} (htype : KnownType sent.type)
    (serverStack clientStack : Stack) (toServer : Bytes) (res : AtcRes) :
    ∃ stream written response got,
      atcWriteResponse Link.serverEnd serverStack sent
          { toServer := toServer, toClient := [] } =
        (written, { toServer := toServer, toClient := stream }) ∧
      atcReadResponse Link.clientEnd clientStack res
          { toServer := toServer, toClient := stream } =
        (response, got, { toServer := toServer, toClient := [] }) ∧
      SamePayload sent got := by
  have hother : ∀ {type type' : Int32}, type ≠ type' → sent.type = type → sent.type ≠ type' :=
    fun hne heq heq' => hne (heq.symm.trans heq')
  rw [atcWriteResponse_link htype]
  have hread := atcReadResponse_link htype clientStack res toServer
  rcases htype with hack | hplanes | hairports
  · refine ⟨headerFormat sent, 0, 0, _, ?_, ?_, readHeader_ack hack res⟩
    · simp only [hack, if_true, List.nil_append]
    · have := hread []
      rw [List.append_nil] at this
      rw [this, if_pos hack]
  · have hnack : sent.type ≠ atcAck := hother (by decide) hplanes
    obtain ⟨body, got, hwrite, hgot, hkind, hlen, hitems⟩ := readPlanes_writePlanes sent
      { res with type := sent.type, len := sent.len }
      { toServer := toServer, toClient := headerFormat sent } rfl
      serverStack.body.toList_length clientStack.body.toList_length
    refine ⟨headerFormat sent ++ body, sent.len.toInt32, sent.len.toInt32, got, ?_, ?_, ?_⟩
    · simp only [hplanes, if_true, List.nil_append]
      exact hwrite
    · rw [hread body, if_neg hnack, if_pos hplanes]
      exact hgot toServer
    · exact
        { type := hkind
          code := fun heq => absurd heq hnack
          count := fun _ => hlen
          planes := fun _ => hitems
          airports := fun heq => absurd heq (hother (by decide) hplanes) }
  · have hnack : sent.type ≠ atcAck := hother (by decide) hairports
    have hnplanes : sent.type ≠ atcPlanes := hother (by decide) hairports
    obtain ⟨body, got, hwrite, hgot, hkind, hlen, hitems⟩ := readAirports_writeAirports sent
      { res with type := sent.type, len := sent.len }
      { toServer := toServer, toClient := headerFormat sent } rfl
      serverStack.body.toList_length clientStack.body.toList_length
    refine ⟨headerFormat sent ++ body, sent.len.toInt32, sent.len.toInt32, got, ?_, ?_, ?_⟩
    · simp only [hnack, hnplanes, if_false, List.nil_append]
      exact hwrite
    · rw [hread body, if_neg hnack, if_neg hnplanes]
      exact hgot toServer
    · exact
        { type := hkind
          code := fun heq => absurd heq hnack
          count := fun _ => hlen
          planes := fun heq => absurd heq hnplanes
          airports := fun _ => hitems }

end AirTraffic.Protocol
