/-
  Protocol/Framing.lean --- responses one after the other.

  WHAT THIS FILE IS FOR.  A response has no length of its own on the wire: how many
  messages follow its header is in the header.  That is enough.  What
  `_atc_write_response` sends for a response is never the beginning of anything else
  that it sends (`responseBytes_append`), so a stream of responses can be cut in one
  way only, whatever the stacks were that they were written from
  (`responses_decode_uniquely`).
-/
import AirTraffic.Protocol.Meeting
import AirTraffic.Protocol.Residue

set_option autoImplicit false

namespace AirTraffic.Protocol

open AirTraffic.Foundation AirTraffic.Atcd

/-- The bytes that `_atc_write_response` sends. -/
def responseBytes (stack : Stack) (sent : AtcRes) : Bytes :=
  (atcWriteResponse Link.serverEnd stack sent Link.empty).2.toClient

/-- Two responses that say the same: the type, and the return code or the records. -/
structure SameResponse (a b : AtcRes) : Prop where
  type : a.type = b.type
  code : a.type = atcAck → a.returnCode = b.returnCode
  count : a.type ≠ atcAck → a.len = b.len
  planes : a.type = atcPlanes → ∀ idx < rounds a.len.toInt32,
    overWire (planeAt a.msg idx) = overWire (planeAt b.msg idx)
  airports : a.type = atcAirports → ∀ idx < rounds a.len.toInt32,
    airportAt a.msg idx = airportAt b.msg idx

/-- What arrives says what was sent. -/
theorem SamePayload.same {a b got : AtcRes} (ha : SamePayload a got) (hb : SamePayload b got) :
    SameResponse a b := by
  have htype : a.type = b.type := ha.type.symm.trans hb.type
  have hcount : a.type ≠ atcAck → a.len = b.len := fun h =>
    (ha.count h).symm.trans (hb.count (htype ▸ h))
  refine
    { type := htype
      code := fun h => (ha.code h).symm.trans (hb.code (htype ▸ h))
      count := hcount
      planes := ?_
      airports := ?_ }
  · intro h idx hidx
    have hlen := hcount (by rw [h]; decide)
    exact (ha.planes h idx hidx).symm.trans (hb.planes (htype ▸ h) idx (hlen ▸ hidx))
  · intro h idx hidx
    have hlen := hcount (by rw [h]; decide)
    exact (ha.airports h idx hidx).symm.trans (hb.airports (htype ▸ h) idx (hlen ▸ hidx))

/-- What is read from is not empty. -/
theorem Proc.Feeds.ne_nil {ρ τ : Type} {status : Status} {buffer stream : Bytes}
    {reader : Int32 → Bytes → Proc ρ} {writer : Proc τ} {a : ρ} {b : τ}
    (feeds : Feeds status (.recv buffer reader) writer a b stream) : stream ≠ [] := by
  cases feeds with
  | message sized whole rest =>
      intro hnil
      have hdata := (List.append_eq_nil_iff.mp hnil).1
      exact absurd sized.pos (by rw [hdata]; exact Nat.lt_irrefl 0)

/-- There are some bytes, and the client takes exactly these, whatever follows. -/
theorem readResponse_responseBytes {sent : AtcRes} (htype : KnownType sent.type)
    (stack clientStack : Stack) (res : AtcRes) :
    responseBytes stack sent ≠ [] ∧ ∃ response got, SamePayload sent got ∧ ∀ rest,
      atcReadResponse Link.clientEnd clientStack res
          { toServer := [], toClient := responseBytes stack sent ++ rest } =
        (response, got, { toServer := [], toClient := rest }) := by
  obtain ⟨response, got, written, stream, hsame, hfeeds⟩ :=
    response_feeds htype stack clientStack res
  have hqueue := hfeeds queueStatus queueStatus_sends
  have hbytes : responseBytes stack sent = stream := by
    rw [responseBytes, run_writeResponseProc]
    exact congrArg (fun sent => sent.2.toClient) (hqueue.run_link [] [] []).1
  rw [hbytes]
  refine ⟨Proc.Feeds.ne_nil hqueue, response, got, hsame, fun rest => ?_⟩
  rw [run_readResponseProc, (hqueue.run_link [] [] rest).2]

/-- **No response is the beginning of another.** -/
theorem responseBytes_append {a b : AtcRes} (ha : KnownType a.type) (hb : KnownType b.type)
    {stack stack' : Stack} {rest rest' : Bytes}
    (h : responseBytes stack a ++ rest = responseBytes stack' b ++ rest') :
    SameResponse a b ∧ rest = rest' := by
  obtain ⟨_, _, got, hsame, hread⟩ := readResponse_responseBytes ha stack stack zeroRes
  obtain ⟨_, _, got', hsame', hread'⟩ := readResponse_responseBytes hb stack' stack zeroRes
  -- both are what the client makes of the same bytes
  have hboth := (hread rest).symm.trans (h ▸ hread' rest')
  obtain ⟨_, hgot⟩ := Prod.mk.inj hboth
  obtain ⟨rfl, hlink⟩ := Prod.mk.inj hgot
  exact ⟨hsame.same hsame', congrArg Link.toClient hlink⟩

/-- The bytes of several responses. -/
def responsesBytes (sent : List (Stack × AtcRes)) : Bytes :=
  sent.flatMap fun s => responseBytes s.1 s.2

/-- **A stream of responses is cut in one way only.** -/
theorem responses_decode_uniquely {sent sent' : List (Stack × AtcRes)}
    (known : ∀ s ∈ sent, KnownType s.2.type) (known' : ∀ s ∈ sent', KnownType s.2.type)
    (h : responsesBytes sent = responsesBytes sent') :
    List.Forall₂ (fun s s' => SameResponse s.2 s'.2) sent sent' := by
  have hsome : ∀ {s : Stack × AtcRes} {rest : List (Stack × AtcRes)}, KnownType s.2.type →
      responsesBytes (s :: rest) ≠ [] := by
    intro s rest htype hnil
    exact (readResponse_responseBytes htype s.1 s.1 zeroRes).1 (List.append_eq_nil_iff.mp hnil).1
  induction sent generalizing sent' with
  | nil =>
      cases sent' with
      | nil => exact .nil
      | cons s' rest' => exact absurd h.symm (hsome (known' s' List.mem_cons_self))
  | cons s rest ih =>
      cases sent' with
      | nil => exact absurd h (hsome (known s List.mem_cons_self))
      | cons s' rest' =>
          obtain ⟨hsame, hrest⟩ := responseBytes_append (known s List.mem_cons_self)
            (known' s' List.mem_cons_self) h
          exact .cons hsame (ih (fun other hmem => known other (List.mem_cons_of_mem s hmem))
            (fun other hmem => known' other (List.mem_cons_of_mem s' hmem)) hrest)

/-- One plane and an acknowledgement, from buffers that hold the byte. -/
def planeAndAck (byte : UInt8) : List (Stack × AtcRes) :=
  [(Stack.filled byte, { zeroRes with type := atcPlanes, len := 1 }),
    (Stack.filled byte, { zeroRes with type := atcAck })]

theorem responses_decode_uniquely_planeAndAck :
    responsesBytes (planeAndAck 0) = responsesBytes (planeAndAck 1) ∧
      List.Forall₂ (fun s s' => SameResponse s.2 s'.2) (planeAndAck 0) (planeAndAck 1) := by
  have hbytes : responsesBytes (planeAndAck 0) = responsesBytes (planeAndAck 1) := by
    decide +kernel
  have known : ∀ byte, ∀ s ∈ planeAndAck byte, KnownType s.2.type := by
    intro byte s hmem
    simp only [planeAndAck, List.mem_cons, List.not_mem_nil, or_false] at hmem
    rcases hmem with rfl | rfl
    · exact Or.inr (Or.inl rfl)
    · exact Or.inl rfl
  exact ⟨hbytes, responses_decode_uniquely (known 0) (known 1) hbytes⟩

end AirTraffic.Protocol
