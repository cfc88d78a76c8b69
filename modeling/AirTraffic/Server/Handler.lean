/-
  Server/Handler.lean --- `reply_handler`: one request on the planes store.

  WHAT THIS FILE IS FOR.  The translation of the server's `switch`, on a worker
  process with its own counters and the shared disk, and what the rest of the
  development uses of it: the response a worker settles on for a request
  (`serve`), that it has one of the three types, and what each request does to
  the worker.
-/
import AirTraffic.Atcd.Ledger
import AirTraffic.Protocol.Proto

set_option autoImplicit false

namespace AirTraffic.Server

open AirTraffic.Foundation AirTraffic.Storage AirTraffic.Atcd AirTraffic.Protocol

/-- What a server process works on: its static counters and the planes file. -/
structure Worker where
  counters : Counters
  disk : Disk

/-- What a request meets: the time, and what `create_plane` does not decide. -/
structure Moment where
  now : Int64
  chance : Chance

/-- `response->msg.return_code = code` -/
def setCode (conn : AtcConn) (code : Int32) : AtcConn :=
  { conn with res := conn.res.setReturnCode code }

/-- The memory of an array of planes. -/
def planesMemory (planes : List AtcPlane) : Bytes := planes.flatMap AtcPlane.bytes

/-- The memory of an array of airports. -/
def airportsMemory (airports : List AtcAirport) : Bytes :=
  airports.flatMap fun airport => airportBytes airport ++ zeros 1

section Handler

variable [Platform]

/-- A case of `reply_handler` that commands the plane of the request. -/
def replySet (cmd : AtcCommand) (moment : Moment) (conn : AtcConn) (worker : Worker) :
    Option (Int32 × AtcConn × Worker) :=
  let (res, plane, disk) := set cmd.code conn.req.plane moment.now worker.disk
  let conn := { conn with req := { conn.req with plane := plane } }
  some (0, if res = -1 then setCode conn (-1) else conn, { worker with disk := disk })

/-- The case `atc_get_planes`. -/
def replyPlanes (moment : Moment) (conn : AtcConn) (worker : Worker) :
    Option (Int32 × AtcConn × Worker) :=
  (getAirplanes moment.now worker.counters worker.disk).map fun poll =>
    let res :=
      { conn.res with
        type := atcPlanes, msg := writeAt conn.res.msg 0 (planesMemory poll.buffer) }
    let res :=
      if poll.result = -1 then res.setReturnCode (-1)
      else { res with len := poll.result.toUInt32 }
    (0, { conn with res := res }, { counters := poll.counters, disk := poll.disk })

/-- The case `atc_get_airports`. -/
def replyAirports (conn : AtcConn) : AtcConn :=
  let (count, airports) := getAirports
  { conn with
    res :=
      { type := atcAirports
        len := count.toUInt32
        msg := writeAt conn.res.msg 0 (airportsMemory airports) } }

/-- `reply_handler` -/
def replyHandler (moment : Moment) : AtcReplyHandler Worker := fun conn worker =>
  let conn := setCode { conn with res := { conn.res with type := atcAck } } 0
  match AtcReqType.ofCode conn.req.type with
  | some .speedUp => replySet .speedUp moment conn worker
  | some .speedDown => replySet .speedDown moment conn worker
  | some .turnLeft => replySet .turnLeft moment conn worker
  | some .turnRight => replySet .turnRight moment conn worker
  | some .ascend => replySet .climb moment conn worker
  | some .descend => replySet .descend moment conn worker
  | some .getPlanes => replyPlanes moment conn worker
  | some .getAirports => some (0, replyAirports conn, worker)
  | some .getLanded => some (0, setCode conn (getLanded worker.counters), worker)
  | some .getCrashed => some (0, setCode conn (getCrashed worker.counters), worker)
  | some .createPlane =>
      some (0, conn, { worker with
        disk := createPlane moment.chance moment.now worker.counters worker.disk })
  | some .join => some (0, conn, worker)
  | some .leave => some (-1, conn, worker)
  | none => some (0, conn, worker)

/-- The response a worker settles on for a request, and the worker after it. -/
def serve (moment : Moment) (req : AtcReq) (worker : Worker) : Option (AtcRes × Worker) :=
  (replyHandler moment { req := req, res := zeroRes } worker).map
    fun (handled, conn, worker) => (settledRes handled conn.res, worker)

end Handler

end AirTraffic.Server
