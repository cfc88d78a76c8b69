/-
  Protocol/Delivery.lean --- responses over a socket.

  WHAT THIS FILE IS FOR.  A `Link` takes every byte it is given, a socket may take a
  few at a time and may fail.  What `transport_send` makes of this is all that the
  writers of `proto.c` see: a call over a socket returns what it would return over a
  link and leaves the same bytes on the stream, or it returns -1 and leaves a proper
  prefix of them (`Follows`).  It holds of one send (`socketEnd_send_follows`), of
  the loops over planes and airports (`writeItems_follows`), and of a whole response
  (`atcWriteResponse_follows`).  So what was written without a failure is read in
  full (`response_delivered`).
-/
import AirTraffic.Transport.Socket
import AirTraffic.Protocol.Stream

set_option autoImplicit false

namespace AirTraffic.Protocol

open AirTraffic.Foundation AirTraffic.Atcd AirTraffic.Transport.Socket

variable {σ : Type}

/-- The transport over a socket; `recv` is that of the system, with `MSG_WAITALL`. -/
def socketEnd (send : Bytes → σ → Int64 × σ) (recv : Bytes → σ → Int64 × Bytes × σ) :
    Transport σ where
  send data socket :=
    -- as much fuel as the loop can need
    match transportSend send (data.length + 1) data (UInt64.ofNat data.length) socket with
    | some (status, last) => (status, last.socket)
    | none => (-1, socket)
  recv buffer socket :=
    let (count, buffer, socket) := recv buffer socket
    (count.toInt32, buffer, socket)

/-- What `send` takes goes onto a stream. -/
def Streams (send : Bytes → σ → Int64 × σ) (wire : σ → Bytes) : Prop :=
  ∀ data socket, wire (send data socket).2 =
    wire socket ++ data.take (send data socket).1.toInt.toNat

/-- A call over a transport against the same call over a link: the same result and
the same stream, or a failure and a part of the stream. -/
def Follows {ρ : Type} (wire : σ → Bytes) (failed : ρ) (got : ρ × σ) (link : ρ × Link) : Prop :=
  got.1 = link.1 ∧ wire got.2 = link.2.toClient ∨
    got.1 = failed ∧ wire got.2 <+: link.2.toClient ∧ wire got.2 ≠ link.2.toClient

/-- A transport whose sends follow those of a link. -/
def SendFollows (transport : Transport σ) (wire : σ → Bytes) : Prop :=
  ∀ (data : Bytes) (socket : σ) (link : Link), data.length < 2 ^ 31 →
    wire socket = link.toClient →
      Follows wire (-1) (transport.send data socket) (Link.serverEnd.send data link)

/-! ## One send -/

/-- The slices taken are what has gone onto the stream. -/
theorem wire_transportSend {send : Bytes → σ → Int64 × σ} {wire : σ → Bytes}
    (streams : Streams send wire) {fuel : Nat} {buffer : Bytes} {size : UInt64} {socket : σ}
    {status : Int32} {last : SendLoop σ}
    (h : transportSend send fuel buffer size socket = some (status, last)) :
    wire last.socket = wire socket ++ last.accepted := by
  obtain ⟨l, hloop, hl⟩ := Option.map_eq_some_iff.mp h
  obtain ⟨_, rfl⟩ := Prod.mk.inj hl
  refine iterate_keeps (fun l => wire l.socket = wire socket ++ l.accepted) ?_ hloop ?_
  · intro l hwire _
    have hround := streams
      (readAt buffer l.totalSent.toInt.toNat (toSize l.bytesleft).toNat) l.socket
    rw [hwire, List.append_assoc] at hround
    simpa [SendLoop.next, SendLoop.accepted, SendCall.accepted] using hround
  · simp [SendLoop.start, SendLoop.accepted]

/-- **A socket follows a link.** -/
theorem socketEnd_send_follows {send : Bytes → σ → Int64 × σ} {wire : σ → Bytes}
    (law : SendLaw send) (streams : Streams send wire)
    (recv : Bytes → σ → Int64 × Bytes × σ) : SendFollows (socketEnd send recv) wire := by
  intro data socket link small hwire
  obtain ⟨status, last, hend, hrun⟩ := exists_transportSend law small socket
  have hsend := hrun (data.length + 1) (Nat.lt_succ_self _)
  have hstream := wire_transportSend streams hsend
  have hgot : (socketEnd send recv).send data socket = (status, last.socket) := by
    simp only [socketEnd, hsend]
  have hlink : Link.serverEnd.send data link =
      (0, { link with toClient := link.toClient ++ data }) := rfl
  rw [hgot, hlink, Follows]
  dsimp only
  rw [hstream, hwire, List.prefix_append_right_inj, ne_eq, List.append_right_inj]
  rcases hend with ⟨hstatus, _, hall⟩ | ⟨hstatus, broken⟩
  · exact Or.inl ⟨hstatus, hall⟩
  · refine Or.inr ⟨hstatus, broken.delivered, fun heq => ?_⟩
    exact absurd broken.short (by rw [heq]; exact Nat.lt_irrefl _)

/-! ## Responses -/

/-- What a link has been given stays in front. -/
theorem toClient_writeItems (encode : Nat → Bytes → Bytes) (left : Nat) :
    ∀ (idx : Nat) (buffer : Bytes) (link : Link),
      link.toClient <+: (writeItems Link.serverEnd encode left idx buffer link).2.toClient := by
  induction left with
  | zero => exact fun idx buffer link => List.prefix_refl _
  | succ left ih =>
      intro idx buffer link
      have hsent : ¬ (0 : Int32) = -1 := by decide
      have hrest := ih (idx + 1) (encode idx buffer)
        { link with toClient := link.toClient ++ (encode idx buffer).take atcpMsgLen }
      simp only [writeItems, Link.serverEnd, hsent, if_false]
      exact (List.prefix_append _ _).trans hrest

/-- A part of a stream is a proper part of a stream that goes on. -/
theorem proper_of_prefix {part stream later : Bytes} (hpart : part <+: stream)
    (hne : part ≠ stream) (hlater : stream <+: later) : part <+: later ∧ part ≠ later := by
  refine ⟨hpart.trans hlater, fun heq => hne ?_⟩
  have hle := hlater.length_le
  rw [← heq] at hle
  exact hpart.eq_of_length (Nat.le_antisymm hpart.length_le hle)

section

variable {transport : Transport σ} {wire : σ → Bytes}

/-- The loops of `_atc_write_planes` and `_atc_write_airports`. -/
theorem writeItems_follows (follows : SendFollows transport wire)
    (encode : Nat → Bytes → Bytes) (left : Nat) :
    ∀ (idx : Nat) (buffer : Bytes) (socket : σ) (link : Link), wire socket = link.toClient →
      Follows wire false (writeItems transport encode left idx buffer socket)
        (writeItems Link.serverEnd encode left idx buffer link) := by
  induction left with
  | zero => exact fun idx buffer socket link hwire => Or.inl ⟨rfl, hwire⟩
  | succ left ih =>
      intro idx buffer socket link hwire
      have hsmall : ((encode idx buffer).take atcpMsgLen).length < 2 ^ 31 := by
        have hle := List.length_take_le atcpMsgLen (encode idx buffer)
        rw [atcpMsgLen] at hle ⊢
        omega
      have hsent : ¬ (0 : Int32) = -1 := by decide
      have hsend := follows _ socket link hsmall hwire
      have hlink : writeItems Link.serverEnd encode (left + 1) idx buffer link =
          writeItems Link.serverEnd encode left (idx + 1) (encode idx buffer)
            (Link.serverEnd.send ((encode idx buffer).take atcpMsgLen) link).2 := by
        simp only [writeItems, Link.serverEnd, hsent, if_false]
      rw [hlink]
      rcases hsend with ⟨hstatus, hstream⟩ | ⟨hstatus, hpart, hne⟩
      · have hgo : ¬ (transport.send ((encode idx buffer).take atcpMsgLen) socket).1 = -1 := by
          rw [hstatus]
          exact hsent
        have hstep : writeItems transport encode (left + 1) idx buffer socket =
            writeItems transport encode left (idx + 1) (encode idx buffer)
              (transport.send ((encode idx buffer).take atcpMsgLen) socket).2 := by
          simp only [writeItems, hgo, if_false]
        rw [hstep]
        exact ih (idx + 1) (encode idx buffer) _ _ hstream
      · have hstep : writeItems transport encode (left + 1) idx buffer socket =
            (false, (transport.send ((encode idx buffer).take atcpMsgLen) socket).2) := by
          simp only [writeItems, hstatus, if_true]
        rw [hstep]
        have hproper := proper_of_prefix hpart hne
          (toClient_writeItems encode left (idx + 1) (encode idx buffer) _)
        exact Or.inr ⟨rfl, hproper⟩

/-- `_atc_write_planes` and `_atc_write_airports` -/
theorem writeBody_follows (follows : SendFollows transport wire) (encode : Nat → Bytes → Bytes)
    (buffer : Bytes) (max : Int32) {socket : σ} {link : Link}
    (hwire : wire socket = link.toClient) :
    Follows wire (-1)
      (if (writeItems transport encode (rounds max) 0 buffer socket).1 then max else -1,
        (writeItems transport encode (rounds max) 0 buffer socket).2)
      (if (writeItems Link.serverEnd encode (rounds max) 0 buffer link).1 then max else -1,
        (writeItems Link.serverEnd encode (rounds max) 0 buffer link).2) := by
  rcases writeItems_follows follows encode (rounds max) 0 buffer socket link hwire with
    ⟨hdone, hstream⟩ | ⟨hdone, hproper⟩
  · exact Or.inl ⟨by rw [hdone], hstream⟩
  · exact Or.inr ⟨by rw [hdone]; rfl, hproper⟩

/-- What a link has been given before a response stays in front. -/
theorem toClient_atcWriteResponse {sent : AtcRes} (htype : KnownType sent.type) (stack : Stack)
    (link : Link) :
    link.toClient ++ headerFormat sent <+:
      (atcWriteResponse Link.serverEnd stack sent link).2.toClient := by
  have hbody := fun encode => toClient_writeItems encode (rounds sent.len.toInt32) 0
    stack.body.toList { link with toClient := link.toClient ++ headerFormat sent }
  rw [atcWriteResponse_link htype]
  dsimp only
  split
  · exact List.prefix_refl _
  · split
    · exact hbody (encodePlane sent.msg)
    · exact hbody (encodeAirport sent.msg)

/-- **A response over a socket.**  Either `_atc_write_response` returns what it returns
over a link, with the same bytes on the stream, or it returns -1 and a proper prefix
of them is. -/
theorem atcWriteResponse_follows (follows : SendFollows transport wire) {sent : AtcRes}
    (htype : KnownType sent.type) (stack : Stack) {socket : σ} {link : Link}
    (hwire : wire socket = link.toClient) :
    Follows wire (-1) (atcWriteResponse transport stack sent socket)
      (atcWriteResponse Link.serverEnd stack sent link) := by
  have hfront := toClient_atcWriteResponse htype stack link
  have hheader := atcResToHeader_eq htype stack.header.toList_length
  have hsmall : (headerFormat sent).length < 2 ^ 31 := by
    rw [length_headerFormat]
    decide
  have hsend := follows (headerFormat sent) socket link hsmall hwire
  have hsent : ¬ (0 : Int32) = -1 := by decide
  rcases hsend with ⟨hstatus, hstream⟩ | ⟨hstatus, hpart, hne⟩
  · have hgo : ¬ (transport.send (headerFormat sent) socket).1 = -1 := by
      rw [hstatus]
      exact hsent
    rw [atcWriteResponse_link htype]
    simp only [atcWriteResponse, hheader, hgo, if_false]
    by_cases hack : sent.type = atcAck
    · rw [if_pos hack, if_pos hack]
      exact Or.inl ⟨rfl, hstream⟩
    · rw [if_neg hack, if_neg hack]
      by_cases hplanes : sent.type = atcPlanes
      · rw [if_pos hplanes, if_pos hplanes]
        exact writeBody_follows follows _ _ _ hstream
      · have hairports := (htype.resolve_left hack).resolve_left hplanes
        rw [if_neg hplanes, if_neg hplanes, if_pos hairports]
        exact writeBody_follows follows _ _ _ hstream
  · have hstop : atcWriteResponse transport stack sent socket =
        (-1, (transport.send (headerFormat sent) socket).2) := by
      simp only [atcWriteResponse, hheader, hstatus, if_true]
    rw [hstop]
    exact Or.inr ⟨rfl, proper_of_prefix hpart hne hfront⟩

end

/-- A response that was written to a socket without a failure is read in full. -/
theorem response_delivered {send : Bytes → σ → Int64 × σ} {wire : σ → Bytes} (law : SendLaw send)
    (streams : Streams send wire) (recv : Bytes → σ → Int64 × Bytes × σ) {sent : AtcRes}
    (htype : KnownType sent.type) (serverStack clientStack : Stack) {socket : σ}
    (fresh : wire socket = []) (toServer : Bytes) (res : AtcRes)
    (written : (atcWriteResponse (socketEnd send recv) serverStack sent socket).1 ≠ -1) :
    ∃ response got,
      atcReadResponse Link.clientEnd clientStack res
          { toServer := toServer
            toClient :=
              wire (atcWriteResponse (socketEnd send recv) serverStack sent socket).2 } =
        (response, got, { toServer := toServer, toClient := [] }) ∧
      SamePayload sent got := by
  obtain ⟨stream, status, response, got, hwrite, hread, hsame⟩ :=
    readResponse_writeResponse htype serverStack clientStack toServer res
  have hfollows := atcWriteResponse_follows (socketEnd_send_follows law streams recv) htype
    serverStack (show wire socket = (Link.mk toServer []).toClient from fresh)
  rw [hwrite] at hfollows
  rcases hfollows with ⟨_, hstream⟩ | ⟨hfailed, _⟩
  · rw [hstream]
    exact ⟨response, got, hread, hsame⟩
  · exact absurd hfailed written

end AirTraffic.Protocol
