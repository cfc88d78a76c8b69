/-
  Cli/PollFailure.lean --- a poll that fails at the server.

  WHAT THIS FILE IS FOR.  `get_airplanes` of `atcd.c` returns -1 when the store
  fails it.  `reply_handler` puts that into `msg.return_code` of a response whose
  type is already `atc_planes`, and the header of such a response has only room
  for `len.planes`, which is zero.  So the client is told of an empty sky
  (`getAirplanes_failed`), wherever the store failed and whatever was read before.
-/
import AirTraffic.Cli.Proxy

set_option autoImplicit false

namespace AirTraffic.Cli

open AirTraffic.Foundation AirTraffic.Storage AirTraffic.Atcd AirTraffic.Protocol
open AirTraffic.Server

/-- The response to a poll that failed counts no planes. -/
theorem planesRes_failed {poll : PollResult} (hfailed : poll.result = -1) :
    (planesRes poll).len = 0 ∧ resPlanes (planesRes poll) = [] := by
  have hlen : (planesRes poll).len = 0 := by
    unfold planesRes
    simp only [hfailed, if_true]
    rfl
  refine ⟨hlen, ?_⟩
  rw [resPlanes, hlen]
  rfl

section PollFailure

variable [Platform]

/-- **A poll that fails at the server counts zero planes at the client.** -/
theorem getAirplanes_failed {trip : Trip} {r : Remote} {poll : PollResult}
    (hlink : r.link = Link.empty)
    (hpoll : Atcd.getAirplanes trip.moment.now r.worker.counters r.worker.disk = some poll)
    (hfailed : poll.result = -1) :
    ∃ r', getAirplanes trip r = some ((0, []), r') ∧
      Answered r' { counters := poll.counters, disk := poll.disk } := by
  obtain ⟨hlen, hnone⟩ := planesRes_failed hfailed
  have hserve := serve_getPlanes trip.moment zeroPlane r.worker
  rw [hpoll, Option.map_some] at hserve
  obtain ⟨r', hask, answered, arrives⟩ := askFor_served hlink rfl hserve fun _ plane hmem => by
    rw [hnone] at hmem
    exact absurd hmem (by simp)
  have htype := planesRes_type poll
  have hack : (planesRes poll).type ≠ atcAck := by
    rw [htype]
    decide
  refine ⟨r', ?_, answered⟩
  rw [getAirplanes, hask, Option.map_some]
  simp only [arrives.type, hack, if_false, arrives.count hack, hlen, arrives.planes htype, hnone]
  rfl

end PollFailure

/-- A request at time zero, on zeroed stacks. -/
def zeroTrip : Trip where
  moment := { now := 0, chance := Chance.zero }
  clientStack := Stack.zero
  serverStack := Stack.zero

/-- A client of a worker on a store with one plane.  Four system calls succeed,
which open the file and read the plane; the fifth one fails. -/
def brokenStore : Remote where
  conn := { req := { type := 0, plane := zeroPlane }, res := zeroRes }
  worker :=
    { counters := {}
      disk :=
        { file := (Atcd.createPlane Chance.zero 0 {} (Disk.sound [])).file
          faults := [false, false, false, false, true] } }
  link := Link.empty

theorem brokenStore_fails :
    ((@Atcd.getAirplanes x86 0 brokenStore.worker.counters brokenStore.worker.disk).map fun poll =>
      (poll.result, poll.buffer.length)) = some (-1, 1) := by
  decide +kernel

theorem getAirplanes_failed_brokenStore :
    ∃ (_ : Platform) (r' : Remote), getAirplanes zeroTrip brokenStore = some ((0, []), r') := by
  obtain ⟨poll, hpoll, heq⟩ := Option.map_eq_some_iff.mp brokenStore_fails
  have hfailed : poll.result = -1 := congrArg Prod.fst heq
  obtain ⟨r', hcount, _⟩ := @getAirplanes_failed x86 zeroTrip brokenStore poll rfl hpoll hfailed
  exact ⟨x86, r', hcount⟩

/-- The client is not told that its poll failed. -/
theorem brokenStore_goes_unnoticed :
    ¬ ∀ (_ : Platform) (trip : Trip) (r : Remote) (poll : PollResult), r.link = Link.empty →
      Atcd.getAirplanes trip.moment.now r.worker.counters r.worker.disk = some poll →
      poll.result = -1 → ∃ buff r', getAirplanes trip r = some ((-1, buff), r') := by
  intro hreported
  obtain ⟨poll, hpoll, heq⟩ := Option.map_eq_some_iff.mp brokenStore_fails
  have hfailed : poll.result = -1 := congrArg Prod.fst heq
  obtain ⟨buff, r', hclient⟩ := hreported x86 zeroTrip brokenStore poll rfl hpoll hfailed
  have hcount : ((@getAirplanes x86 zeroTrip brokenStore).map fun a => a.1.1) = some 0 := by
    decide +kernel
  rw [hclient] at hcount
  exact absurd hcount (by simp)

end AirTraffic.Cli
