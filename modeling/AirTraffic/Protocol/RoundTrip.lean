/-
  Protocol/RoundTrip.lean --- what is encoded is decoded, wherever it lies.

  WHAT THIS FILE IS FOR.  Every record is encoded in a buffer of any length and
  decoded where it was put: all of its fields come back, and the decoder leaves
  its pointer where the encoder left it (`decoders_undo_encoders`).  The request
  encoder clears more than its buffer holds, so its buffer is whatever it needs.
-/
import AirTraffic.Protocol.Stream

set_option autoImplicit false

namespace AirTraffic.Protocol

open AirTraffic.Foundation AirTraffic.Atcd

/-- One plane has the fields of another one.  Struct padding is no field. -/
structure SameFields (sent got : AtcPlane) : Prop where
  id : got.id = sent.id
  x : got.x = sent.x
  y : got.y = sent.y
  z : got.z = sent.z
  time : got.time = sent.time
  heading : got.heading = sent.heading
  elevation : got.elevation = sent.elevation
  speed : got.speed = sent.speed
  status : got.status = sent.status

/-- Every field of a plane whose time fits arrives. -/
theorem sameFields_overWire {plane : AtcPlane} (fits : TimeFits plane) :
    SameFields plane (overWire plane) := by
  rw [overWire_of_timeFits fits]
  exact
    { id := rfl, x := rfl, y := rfl, z := rfl, time := rfl, heading := rfl
      elevation := rfl, speed := rfl, status := rfl }

/-! ## Planes and airports -/

/-- The front of what was written is read back. -/
theorem readAt_writeAt_front (wire : Bytes) (ptr : Nat) (front back : Bytes) :
    readAt (writeAt wire ptr (front ++ back)) ptr front.length = front := by
  have hinside : ptr + front.length ≤ ptr + (front ++ back).length := by
    rw [List.length_append]
    omega
  rw [readAt_writeAt_inside wire (Nat.le_refl ptr) hinside, Nat.sub_self, readAt,
    List.drop_zero, List.take_left]

theorem atcWireToPlane_atcPlaneToWire (plane : AtcPlane) (w : Writer) :
    atcWireToPlane (atcPlaneToWire plane w).wire w.ptr =
      (overWire plane, (atcPlaneToWire plane w).ptr) := by
  have hread := readAt_writeAt_front w.wire w.ptr (planeFormat plane) (zeros 26)
  rw [length_planeFormat] at hread
  rw [atcPlaneToWire_eq]
  exact atcWireToPlane_eq hread

theorem atcWireToAirport_atcAirportToWire (airport : AtcAirport) (wire : Bytes) :
    atcWireToAirport (atcAirportToWire airport { wire := wire, ptr := 0 }).wire 0 =
      (airport, (atcAirportToWire airport { wire := wire, ptr := 0 }).ptr) := by
  have hread := readAt_writeAt_self wire 0 (airportFormat airport)
  rw [length_airportFormat] at hread
  rw [atcAirportToWire_eq]
  exact atcWireToAirport_eq hread

/-! ## Requests -/

theorem carriesPlane_iff (type : Int32) :
    carriesPlane type = true ↔ ∃ cmd, type = (AtcReqType.ofCommand cmd).code := by
  constructor
  · intro hcarries
    obtain ⟨cmd, hcmd⟩ := Option.isSome_iff_exists.mp hcarries
    obtain ⟨reqType, hof, hcommand⟩ := Option.bind_eq_some_iff.mp hcmd
    obtain rfl := AtcReqType.code_of_ofCode hof
    refine ⟨cmd, ?_⟩
    cases reqType <;> simp only [AtcReqType.command, Option.some.injEq, reduceCtorEq] at hcommand
      <;> subst hcommand <;> rfl
  · rintro ⟨cmd, rfl⟩
    rw [carriesPlane, AtcReqType.ofCode_code, Option.bind_some, AtcReqType.command_ofCommand]
    rfl

/-- A request that was encoded in any buffer is read back. -/
theorem atcWireToReq_atcReqToWire (req : AtcReq) (wire : Bytes) :
    atcWireToReq (atcReqToWire req wire).wire =
      (reqOverWire req, (atcReqToWire req wire).ptr) := by
  have hfront := readAt_writeAt_front wire 0 (reqFormat req) (zeros 4)
  have hself := readAt_writeAt_self wire 0 (reqFormat req)
  rw [length_reqFormat] at hfront hself
  rw [atcReqToWire_eq]
  by_cases hcarries : carriesPlane req.type = true
  · rw [if_pos hcarries, atcWireToReq_eq hfront, if_pos hcarries]
  · rw [if_neg hcarries, atcWireToReq_eq hself, if_neg hcarries]

/-! ## Headers -/

theorem atcHeaderToRes_atcResToHeader {sent : AtcRes} (htype : KnownType sent.type)
    (wire : Bytes) (res : AtcRes) :
    atcHeaderToRes res (atcResToHeader sent wire).2 =
      ((atcResToHeader sent wire).1, readHeader res sent.type (headerPayload sent)) := by
  have hself := readAt_writeAt_self wire 0 (headerFormat sent)
  rw [length_headerFormat] at hself
  rw [atcResToHeader_writeAt htype, atcHeaderToRes_eq htype hself]

/-- A header has the type of a response, and its return code or its count. -/
structure SameHeader (sent got : AtcRes) : Prop where
  type : got.type = sent.type
  code : sent.type = atcAck → got.returnCode = sent.returnCode
  count : sent.type ≠ atcAck → got.len = sent.len

theorem sameHeader_readHeader (sent res : AtcRes) :
    SameHeader sent (readHeader res sent.type (headerPayload sent)) := by
  by_cases hack : sent.type = atcAck
  · have payload := readHeader_ack hack res
    exact { type := payload.type, code := payload.code, count := payload.count }
  · rw [readHeader_count hack]
    exact { type := rfl, code := fun heq => absurd heq hack, count := fun _ => rfl }

/-- **Decoders undo encoders.**  Planes, airports, requests and headers come back
as they were, and each decoder takes the bytes its encoder made. -/
theorem decoders_undo_encoders :
    (∀ (plane : AtcPlane) (w : Writer), TimeFits plane →
      ∃ got, atcWireToPlane (atcPlaneToWire plane w).wire w.ptr =
          (got, (atcPlaneToWire plane w).ptr) ∧
        SameFields plane got) ∧
    (∀ (airport : AtcAirport) (wire : Bytes),
      atcWireToAirport (atcAirportToWire airport { wire := wire, ptr := 0 }).wire 0 =
        (airport, (atcAirportToWire airport { wire := wire, ptr := 0 }).ptr)) ∧
    (∀ (req : AtcReq) (wire : Bytes),
      ∃ got, atcWireToReq (atcReqToWire req wire).wire = (got, (atcReqToWire req wire).ptr) ∧
        got.type = req.type ∧
        (∀ cmd, req.type = (AtcReqType.ofCommand cmd).code → TimeFits req.plane →
          SameFields req.plane got.plane) ∧
        ((∀ cmd, req.type ≠ (AtcReqType.ofCommand cmd).code) → got.plane = zeroPlane)) ∧
    ∀ (sent res : AtcRes) (wire : Bytes), KnownType sent.type →
      ∃ got, atcHeaderToRes res (atcResToHeader sent wire).2 =
          ((atcResToHeader sent wire).1, got) ∧
        SameHeader sent got := by
  refine ⟨?_, atcWireToAirport_atcAirportToWire, ?_, ?_⟩
  · intro plane w fits
    exact ⟨overWire plane, atcWireToPlane_atcPlaneToWire plane w, sameFields_overWire fits⟩
  · intro req wire
    refine ⟨reqOverWire req, atcWireToReq_atcReqToWire req wire, rfl, ?_, ?_⟩
    · intro cmd htype fits
      have hcarries : carriesPlane req.type = true := (carriesPlane_iff req.type).mpr ⟨cmd, htype⟩
      rw [reqOverWire, if_pos hcarries]
      exact sameFields_overWire fits
    · intro hother
      have hcarries : ¬ carriesPlane req.type = true := by
        intro hcarries
        obtain ⟨cmd, htype⟩ := (carriesPlane_iff req.type).mp hcarries
        exact hother cmd htype
      rw [reqOverWire, if_neg hcarries]
  · intro sent res wire htype
    exact ⟨_, atcHeaderToRes_atcResToHeader htype wire res, sameHeader_readHeader sent res⟩

/-- A plane south of the map, in the air after 2038. -/
def latePlane : AtcPlane :=
  { zeroPlane with x := 3999, y := -1, time := 4000000000, elevation := -30, status := flying }

theorem decoders_undo_encoders_latePlane :
    (∃ got, atcWireToPlane (atcPlaneToWire latePlane { wire := [], ptr := 3 }).wire 3 =
        (got, 41) ∧ SameFields latePlane got) ∧
      (∃ got, atcWireToReq
          (atcReqToWire { type := AtcReqType.ascend.code, plane := latePlane } []).wire =
            (got, 42) ∧ SameFields latePlane got.plane) ∧
      (∃ got, atcWireToReq
          (atcReqToWire { type := AtcReqType.leave.code, plane := latePlane } []).wire =
            (got, 4) ∧ got.plane = zeroPlane) ∧
      ∃ got, atcHeaderToRes { type := 0, len := 0, msg := [] }
          (atcResToHeader { type := atcPlanes, len := 4294967295, msg := [] } []).2 = (8, got) ∧
        got.len = 4294967295 := by
  obtain ⟨hplanes, _, hreqs, hheaders⟩ := decoders_undo_encoders
  have fits : TimeFits latePlane := by decide
  obtain ⟨ascend, hascend, _, hplane, _⟩ :=
    hreqs { type := AtcReqType.ascend.code, plane := latePlane } []
  obtain ⟨leave, hleave, _, _, hzero⟩ :=
    hreqs { type := AtcReqType.leave.code, plane := latePlane } []
  obtain ⟨got, hheader, same⟩ := hheaders { type := atcPlanes, len := 4294967295, msg := [] }
    { type := 0, len := 0, msg := [] } [] (Or.inr (Or.inl rfl))
  exact ⟨hplanes latePlane { wire := [], ptr := 3 } fits,
    ⟨ascend, hascend, hplane .climb rfl fits⟩,
    ⟨leave, hleave, hzero fun cmd => by cases cmd <;> decide⟩,
    got, hheader, same.count (by decide)⟩

end AirTraffic.Protocol
