/-
  Server/Serve.lean --- the response to each request.

  WHAT THIS FILE IS FOR.  One specification of `serve` for each kind of request:
  a command is `set`, a poll is `get_airplanes` with its planes laid out in the
  response, and the rest acknowledge.  From these: every response has one of the
  three types, and a worker on a file that holds a fleet always answers.
-/
import AirTraffic.Server.Handler
import AirTraffic.Protocol.Stream

set_option autoImplicit false

namespace AirTraffic.Server

open AirTraffic.Foundation AirTraffic.Storage AirTraffic.Atcd AirTraffic.Protocol

/-! ## Responses -/

/-- An acknowledgement. -/
def ackRes (code : Int32) : AtcRes := { zeroRes with type := atcAck }.setReturnCode code

/-- The response to a poll. -/
def planesRes (poll : PollResult) : AtcRes :=
  let msg := writeAt (writeAt (zeros sizeofMsg) 0 (int32LE 0)) 0 (planesMemory poll.buffer)
  if poll.result = -1 then
    AtcRes.setReturnCode { type := atcPlanes, len := 0, msg := msg } (-1)
  else { type := atcPlanes, len := poll.result.toUInt32, msg := msg }

/-- The response to a request for the airports. -/
def airportsRes : AtcRes :=
  { type := atcAirports
    len := 2
    msg := writeAt (writeAt (zeros sizeofMsg) 0 (int32LE 0)) 0 (airportsMemory airports) }

/-- The planes of a response. -/
def resPlanes (res : AtcRes) : List AtcPlane :=
  (List.range (rounds res.len.toInt32)).map (planeAt res.msg)

/-- The airports of a response. -/
def resAirports (res : AtcRes) : List AtcAirport :=
  (List.range (rounds res.len.toInt32)).map (airportAt res.msg)

@[simp] theorem ackRes_type (code : Int32) : (ackRes code).type = atcAck := rfl

@[simp] theorem ackRes_returnCode (code : Int32) : (ackRes code).returnCode = code :=
  returnCode_setReturnCode _ _

/-- The return code set last stands. -/
theorem setReturnCode_setReturnCode (res : AtcRes) (first second : Int32) :
    (res.setReturnCode first).setReturnCode second = res.setReturnCode second := by
  have hover := writeAt_writeAt_front res.msg 0 (int32LE first)
    (int32LE second) (by simp)
  have hdrop : (int32LE first).drop (int32LE second).length = [] :=
    List.drop_eq_nil_of_le (by simp)
  rw [hdrop, List.append_nil] at hover
  rw [AtcRes.setReturnCode, AtcRes.setReturnCode, AtcRes.setReturnCode, hover]

theorem planesRes_type (poll : PollResult) : (planesRes poll).type = atcPlanes := by
  unfold planesRes
  dsimp only
  split <;> rfl

theorem rounds_ofNat {n : Nat} (h : n < 2 ^ 31) : rounds (Int32.ofNat n) = n := by
  rw [rounds, Int32.toInt_ofNat_of_lt h, Int.toNat_natCast]

/-- Record `k` of a memory of records of one size. -/
theorem readAt_flatMap {α : Type} {size : Nat} {memory : α → Bytes}
    (hsize : ∀ a, (memory a).length = size) {items : List α} {k : Nat} {item : α}
    (hk : items[k]? = some item) :
    readAt (items.flatMap memory) (k * size) size = memory item := by
  induction items generalizing k with
  | nil => simp at hk
  | cons head rest ih =>
      rw [List.flatMap_cons]
      cases k with
      | zero =>
          have hitem : head = item := by simpa using hk
          rw [Nat.zero_mul, readAt, List.drop_zero, hitem, List.take_left' (hsize item)]
      | succ k =>
          have hrest : rest[k]? = some item := by simpa using hk
          have hnext : (k + 1) * size = (memory head).length + k * size := by
            rw [hsize, Nat.succ_mul, Nat.add_comm]
          rw [hnext, readAt, List.drop_append, List.drop_eq_nil_of_le (by omega),
            Nat.add_sub_cancel_left, List.nil_append]
          exact ih hrest

/-- The planes of a poll are the planes of the response to it. -/
theorem resPlanes_planesRes {poll : PollResult}
    (hcount : poll.result = Int32.ofNat poll.buffer.length)
    (hmax : poll.buffer.length ≤ maxPlanes) : resPlanes (planesRes poll) = poll.buffer := by
  have hlt : poll.buffer.length < 2 ^ 31 := Nat.lt_of_le_of_lt hmax (by decide)
  have hok : poll.result ≠ -1 := hcount ▸ ofNat_ne_neg_one hlt
  have hrounds : rounds (planesRes poll).len.toInt32 = poll.buffer.length := by
    unfold planesRes
    simp only [hok, if_false]
    rw [Int32.toInt32_toUInt32, hcount, rounds_ofNat hlt]
  rw [resPlanes, hrounds]
  apply List.ext_getElem?
  intro k
  rw [List.getElem?_map]
  by_cases hk : k < poll.buffer.length
  · have hget : poll.buffer[k]? = some poll.buffer[k] := List.getElem?_eq_getElem hk
    have hplane := readAt_flatMap AtcPlane.length_bytes hget
    have hlength : (planesMemory poll.buffer).length = poll.buffer.length * sizeofPlane := by
      rw [planesMemory, List.length_flatMap]
      simp
    have hend : k * sizeofPlane + sizeofPlane ≤ 0 + (planesMemory poll.buffer).length := by
      rw [hlength, Nat.zero_add, ← Nat.succ_mul]
      exact Nat.mul_le_mul_right _ hk
    rw [List.getElem?_range hk, hget, Option.map_some, planeAt, planesRes]
    simp only [hok, if_false]
    rw [readAt_writeAt_inside _ (Nat.zero_le _) hend, Nat.sub_zero, planesMemory, hplane,
      AtcPlane.ofBytes_bytes]
  · have hrange : (List.range poll.buffer.length)[k]? = none := by simpa using hk
    rw [hrange, List.getElem?_eq_none (Nat.le_of_not_lt hk)]
    rfl

theorem resAirports_airportsRes : resAirports airportsRes = airports := by
  decide +kernel

section Handler

variable [Platform]

/-! ## Requests -/

omit [Platform] in
theorem settledRes_zero (res : AtcRes) : settledRes 0 res = res := by
  have hzero : ¬ (0 : Int32) = -1 := by decide
  rw [settledRes, if_neg hzero]

/-- The handler of a command is `set` with the command of the request. -/
theorem replyHandler_command {type : AtcReqType} {cmd : AtcCommand} (h : type.command = some cmd)
    (moment : Moment) (plane : AtcPlane) (worker : Worker) :
    replyHandler moment { req := { type := type.code, plane := plane }, res := zeroRes } worker =
      replySet cmd moment { req := { type := type.code, plane := plane }, res := ackRes 0 }
        worker := by
  simp only [replyHandler, setCode, AtcReqType.ofCode_code, ackRes]
  cases type <;> simp only [AtcReqType.command, Option.some.injEq, reduceCtorEq] at h <;>
    subst h <;> rfl

theorem serve_command {type : AtcReqType} {cmd : AtcCommand} (h : type.command = some cmd)
    (moment : Moment) (plane : AtcPlane) (worker : Worker) :
    serve moment { type := type.code, plane := plane } worker =
      some (ackRes (if (set cmd.code plane moment.now worker.disk).1 = -1 then -1 else 0),
        { worker with disk := (set cmd.code plane moment.now worker.disk).2.2 }) := by
  rw [serve, replyHandler_command h, replySet]
  simp only [Option.map_some, settledRes_zero]
  by_cases hres : (set cmd.code plane moment.now worker.disk).1 = -1
  · simp only [hres, if_true, setCode, ackRes, setReturnCode_setReturnCode]
  · simp only [hres, if_false]

theorem serve_getPlanes (moment : Moment) (plane : AtcPlane) (worker : Worker) :
    serve moment { type := AtcReqType.getPlanes.code, plane := plane } worker =
      (getAirplanes moment.now worker.counters worker.disk).map fun poll =>
        (planesRes poll, { counters := poll.counters, disk := poll.disk }) := by
  have hcase : replyHandler moment
        { req := { type := AtcReqType.getPlanes.code, plane := plane }, res := zeroRes }
        worker =
      replyPlanes moment
        { req := { type := AtcReqType.getPlanes.code, plane := plane }, res := ackRes 0 }
        worker := by
    simp only [replyHandler, setCode, AtcReqType.ofCode_code, ackRes]
  rw [serve, hcase, replyPlanes]
  cases getAirplanes moment.now worker.counters worker.disk with
  | none => rfl
  | some poll =>
      simp only [Option.map_some, settledRes_zero, planesRes, ackRes, AtcRes.setReturnCode,
        zeroRes]

theorem serve_createPlane (moment : Moment) (plane : AtcPlane) (worker : Worker) :
    serve moment { type := AtcReqType.createPlane.code, plane := plane } worker =
      some (ackRes 0, { worker with
        disk := createPlane moment.chance moment.now worker.counters worker.disk }) := by
  rw [serve, replyHandler]
  simp only [setCode, AtcReqType.ofCode_code, Option.map_some, settledRes_zero, ackRes]

theorem serve_getAirports (moment : Moment) (plane : AtcPlane) (worker : Worker) :
    serve moment { type := AtcReqType.getAirports.code, plane := plane } worker =
      some (airportsRes, worker) := by
  have hcount : (2 : Int32).toUInt32 = 2 := rfl
  rw [serve, replyHandler]
  simp only [setCode, AtcReqType.ofCode_code, Option.map_some, settledRes_zero, replyAirports,
    getAirports, airportsRes, AtcRes.setReturnCode, zeroRes, hcount]

theorem serve_getLanded (moment : Moment) (plane : AtcPlane) (worker : Worker) :
    serve moment { type := AtcReqType.getLanded.code, plane := plane } worker =
      some (ackRes (getLanded worker.counters), worker) := by
  rw [serve, replyHandler]
  simp only [setCode, AtcReqType.ofCode_code, Option.map_some, settledRes_zero,
    setReturnCode_setReturnCode, ackRes]

theorem serve_getCrashed (moment : Moment) (plane : AtcPlane) (worker : Worker) :
    serve moment { type := AtcReqType.getCrashed.code, plane := plane } worker =
      some (ackRes (getCrashed worker.counters), worker) := by
  rw [serve, replyHandler]
  simp only [setCode, AtcReqType.ofCode_code, Option.map_some, settledRes_zero,
    setReturnCode_setReturnCode, ackRes]

theorem serve_join (moment : Moment) (plane : AtcPlane) (worker : Worker) :
    serve moment { type := AtcReqType.join.code, plane := plane } worker =
      some (ackRes 0, worker) := by
  rw [serve, replyHandler]
  simp only [setCode, AtcReqType.ofCode_code, Option.map_some, settledRes_zero, ackRes]

theorem serve_leave (moment : Moment) (plane : AtcPlane) (worker : Worker) :
    serve moment { type := AtcReqType.leave.code, plane := plane } worker =
      some (ackRes (-1), worker) := by
  have hrefused : settledRes (-1) (ackRes 0) = ackRes (-1) := by
    have htype : { ackRes 0 with type := atcAck } = ackRes 0 := rfl
    rw [settledRes, if_pos rfl, htype, ackRes, setReturnCode_setReturnCode, ackRes]
  rw [← hrefused, serve, replyHandler]
  simp only [setCode, AtcReqType.ofCode_code, Option.map_some, ackRes]

theorem serve_unknown {req : AtcReq} (h : AtcReqType.ofCode req.type = none)
    (moment : Moment) (worker : Worker) :
    serve moment req worker = some (ackRes 0, worker) := by
  rw [serve, replyHandler]
  simp only [setCode, h, Option.map_some, settledRes_zero, ackRes]

omit [Platform] in
theorem known_of_served {answer : Option (AtcRes × Worker)} {expected : AtcRes × Worker}
    {res : AtcRes} {worker : Worker} (h : answer = some (res, worker))
    (hserve : answer = some expected) (known : KnownType expected.1.type) :
    KnownType res.type := by
  obtain rfl := Option.some.inj (hserve.symm.trans h)
  exact known

/-- Every response has one of the three types. -/
theorem serve_known {moment : Moment} {req : AtcReq} {worker worker' : Worker} {res : AtcRes}
    (h : serve moment req worker = some (res, worker')) : KnownType res.type := by
  cases htype : AtcReqType.ofCode req.type with
  | none => exact known_of_served h (serve_unknown htype moment worker) (Or.inl rfl)
  | some type =>
      obtain ⟨code, plane⟩ := req
      obtain rfl := AtcReqType.code_of_ofCode htype
      cases hcmd : type.command with
      | some cmd => exact known_of_served h (serve_command hcmd moment plane worker) (Or.inl rfl)
      | none =>
          cases type with
          | getPlanes =>
              rw [serve_getPlanes] at h
              obtain ⟨poll, _, hpoll⟩ := Option.map_eq_some_iff.mp h
              obtain ⟨rfl, rfl⟩ := Prod.mk.inj hpoll
              exact Or.inr (Or.inl (planesRes_type poll))
          | getAirports =>
              exact known_of_served h (serve_getAirports moment plane worker)
                (Or.inr (Or.inr rfl))
          | getLanded => exact known_of_served h (serve_getLanded moment plane worker) (Or.inl rfl)
          | getCrashed =>
              exact known_of_served h (serve_getCrashed moment plane worker) (Or.inl rfl)
          | createPlane =>
              exact known_of_served h (serve_createPlane moment plane worker) (Or.inl rfl)
          | join => exact known_of_served h (serve_join moment plane worker) (Or.inl rfl)
          | leave => exact known_of_served h (serve_leave moment plane worker) (Or.inl rfl)
          | speedUp | speedDown | turnLeft | turnRight | ascend | descend =>
              exact absurd hcmd (by simp [AtcReqType.command])

/-! ## Requests on a list of planes -/

omit [Platform] in
theorem carriesPlane_code {type : AtcReqType} {cmd : AtcCommand}
    (h : type.command = some cmd) : carriesPlane type.code = true := by
  rw [carriesPlane, AtcReqType.ofCode_code, Option.bind_some, h]
  rfl

/-- On a file that lists planes a worker answers every request, and the file
lists planes afterwards. -/
theorem serve_lists (moment : Moment) {req : AtcReq} (worker : Worker) {file : Bytes}
    {fleet : List AtcPlane} (hdisk : worker.disk = Disk.sound file)
    (lists : Lists file fleet) (named : carriesPlane req.type = true → req.plane.Named) :
    ∃ res worker' file' fleet', serve moment req worker = some (res, worker') ∧
      worker'.disk = Disk.sound file' ∧ Lists file' fleet' := by
  cases htype : AtcReqType.ofCode req.type with
  | none => exact ⟨_, _, file, fleet, serve_unknown htype moment worker, hdisk, lists⟩
  | some type =>
      obtain ⟨code, plane⟩ := req
      obtain rfl := AtcReqType.code_of_ofCode htype
      cases hcmd : type.command with
      | some cmd =>
          obtain ⟨file', hset, lists', _⟩ := set_lists lists
            (named (carriesPlane_code hcmd)) cmd.code moment.now
          refine ⟨_, _, file', _, serve_command hcmd moment plane worker, ?_, lists'⟩
          rw [hdisk]
          exact hset
      | none =>
          cases type with
          | getPlanes =>
              obtain ⟨poll, file', fleet', hpoll, hdisk', lists', _⟩ :=
                getAirplanes_lists lists moment.now worker.counters
              have hserve := serve_getPlanes moment plane worker
              rw [hdisk, hpoll, Option.map_some] at hserve
              exact ⟨_, _, file', fleet', hserve, hdisk', lists'⟩
          | createPlane =>
              obtain ⟨file', fleet', hcreate, lists', _⟩ := createPlane_lists lists
                moment.chance moment.now worker.counters
              refine ⟨_, _, file', fleet', serve_createPlane moment plane worker, ?_, lists'⟩
              rw [hdisk]
              exact hcreate
          | getAirports =>
              exact ⟨_, _, file, fleet, serve_getAirports moment plane worker, hdisk, lists⟩
          | getLanded =>
              exact ⟨_, _, file, fleet, serve_getLanded moment plane worker, hdisk, lists⟩
          | getCrashed =>
              exact ⟨_, _, file, fleet, serve_getCrashed moment plane worker, hdisk, lists⟩
          | join => exact ⟨_, _, file, fleet, serve_join moment plane worker, hdisk, lists⟩
          | leave => exact ⟨_, _, file, fleet, serve_leave moment plane worker, hdisk, lists⟩
          | speedUp | speedDown | turnLeft | turnRight | ascend | descend =>
              exact absurd hcmd (by simp [AtcReqType.command])

end Handler

end AirTraffic.Server
