/-
  Server/Position.lean --- where a command leaves a plane.

  WHAT THIS FILE IS FOR.  A poll moves its copy of a plane to the present but
  leaves the time of the copy alone; `set` then overwrites the time before it
  works out how long the plane has been flying, which is no time at all.  So the
  row that a command stores has the position of the poll and the time of the
  command, and the motion in between is lost.  `position_kept_iff` says when
  that makes no difference.
-/
import AirTraffic.Server.Fresh

set_option autoImplicit false

namespace AirTraffic.Server

open AirTraffic.Foundation AirTraffic.Storage AirTraffic.Atcd AirTraffic.Protocol

section Position

variable [Platform]

/-- How far east a plane is at a time, before it is brought back onto the map. -/
def eastAt (plane : AtcPlane) (time : Int64) : Int32 :=
  castInt (Platform.single.sum
    (flown Platform.single (cos plane.heading) plane.speed (elapsed plane time)) plane.x.toInt)

/-- How far north a plane is at a time, before it is brought back onto the map. -/
def northAt (plane : AtcPlane) (time : Int64) : Int32 :=
  castInt (Platform.double.sum
    (flown Platform.double (sin plane.heading) plane.speed (elapsed plane time)) plane.y.toInt)

/-- One plane at one time and another one at another time are at one place: they
have one altitude, and are whole turns of the map apart. -/
structure SamePlace (plane : AtcPlane) (t₁ : Int64) (row : AtcPlane) (t₂ : Int64) :
    Prop where
  x : 4000 ∣ (eastAt plane t₁).toInt - (eastAt row t₂).toInt
  y : 4000 ∣ (northAt plane t₁).toInt - (northAt row t₂).toInt
  z : altitudeAt plane t₁ = altitudeAt row t₂

theorem samePlace_iff (plane : AtcPlane) (t₁ : Int64) (row : AtcPlane) (t₂ : Int64) :
    ((advance plane t₁).x = (advance row t₂).x ∧
        (advance plane t₁).y = (advance row t₂).y ∧
        (advance plane t₁).z = (advance row t₂).z) ↔
      SamePlace plane t₁ row t₂ := by
  have hlen : maxLen.toInt = 4000 := by decide
  have hheight : maxHeight.toInt = 4000 := by decide
  have hx : ∀ p t, (advance p t).x = remFix (eastAt p t) maxLen := fun _ _ => rfl
  have hy : ∀ p t, (advance p t).y = remFix (northAt p t) maxHeight := fun _ _ => rfl
  have hz : ∀ p t, (advance p t).z = altitudeAt p t := fun _ _ => rfl
  rw [hx, hx, hy, hy, hz, hz, remFix_eq_iff (by decide), remFix_eq_iff (by decide), hlen,
    hheight]
  exact ⟨fun ⟨x, y, z⟩ => ⟨x, y, z⟩, fun same => ⟨same.x, same.y, same.z⟩⟩

/-- A client obtains the flying plane `plane` from a poll at `t₁`; at `t₂`, when
`row` is what the store has for that plane and would be above ground, an accepted
command on the copy leads from `before` to `after`. -/
def CommandAfterPoll (start : Int64) (plane row : AtcPlane) (cmd : AtcCommand)
    (t₁ t₂ : Int64) (before after : World) : Prop :=
  ∃ (w polled : World) (poll command : Event) (trace : List (Event × World)),
    Reachable Step (World.initial start) w ∧
    (plane ∈ w.planes ∧ plane.status = flying) ∧
    (Step w poll polled ∧ poll.moment.now = t₁ ∧
      Returned w poll polled (overWire (advance plane t₁))) ∧
    Run Step polled trace before ∧
    (before.rowFor plane.id = some row ∧ ¬ altitudeAt row t₂ < 0) ∧
    Step before command after ∧ command.client = poll.client ∧
    command.moment.now = t₂ ∧ command.action = .command cmd (overWire (advance plane t₁)) ∧
    Accepted before command

/-- The store has, for the plane of a row, the time `t` and the position that
`calculate_position` gives for the row at that time. -/
def StoredAt (row : AtcPlane) (t : Int64) (w : World) : Prop :=
  ∃ stored, w.rowFor row.id = some stored ∧ stored.time = t ∧
    stored.x = (advance row t).x ∧ stored.y = (advance row t).y ∧
    stored.z = (advance row t).z

/-- The row that a command stores has the position of the poll. -/
theorem CommandAfterPoll.stored {start : Int64} {plane row : AtcPlane} {cmd : AtcCommand}
    {t₁ t₂ : Int64} {before after : World}
    (h : CommandAfterPoll start plane row cmd t₁ t₂ before after) :
    row.id = plane.id ∧
      ∃ stored, after.rowFor plane.id = some stored ∧ stored.time = t₂ ∧
        stored.x = (advance plane t₁).x ∧ stored.y = (advance plane t₁).y ∧
        stored.z = (advance plane t₁).z := by
  obtain ⟨w, polled, poll, command, trace, reached, _, ⟨hpoll, rfl, _⟩, run, ⟨hrow, _⟩,
    hcommand, _, rfl, haction, haccepted⟩ := h
  have invPolled := (inv_of_reachable reached).step hpoll
  have invBefore : before.Inv :=
    Run.invariant World.Inv (fun _ _ _ inv step => inv.step step) run invPolled
  obtain ⟨hobtained, hplanes⟩ := hcommand.command invBefore haction
  obtain ⟨stored, happly⟩ := (accepted_iff invBefore haction hobtained).mp haccepted
  have heq := applyCommand_eq happly
  have hput : after.planes = put AtcPlane.id stored before.planes := by rw [hplanes, happly]
  have hid : stored.id = plane.id := heq ▸ rfl
  have hfound := find?_put stored before.planes
  rw [hid, ← hput] at hfound
  have htime : stored.time = command.moment.now := heq ▸ rfl
  have hx : stored.x = (advance plane poll.moment.now).x := heq ▸ rfl
  have hy : stored.y = (advance plane poll.moment.now).y := heq ▸ rfl
  have hz : stored.z = (advance plane poll.moment.now).z := heq ▸ rfl
  exact ⟨by simpa using List.find?_some hrow, stored, hfound, htime, hx, hy, hz⟩

end Position

/-! ## A plane that flies east -/

/-- The draws of a plane that flies east. -/
def eastbound : Chance where
  rand := fun i => if i = 9 then 2 else 0
  pad := List.Vector.replicate 2 0

/-- The plane, as it is made. -/
def eastPlane : AtcPlane := newPlane eastbound 0

/-- It is polled after one second and commanded after two. -/
theorem exists_commandAfterPoll :
    ∃ before after, @CommandAfterPoll exactX86 0 eastPlane eastPlane .climb 1 2 before after := by
  let _ : Platform := exactX86
  let copy := overWire (advance eastPlane 1)
  let create : Event :=
    { client := 0, moment := { now := 0, chance := eastbound }, action := .create }
  have hplay : ((@Board.play exactX86 checkPlays (Board.initial 0) [create]).any fun b =>
      decide (b.planes = [eastPlane]) &&
        decide ((0, copy) ∈ b.shown (request 0 1 .poll)) &&
        (b.step (request 0 1 .poll)).any fun b =>
          decide (b.planes = [eastPlane]) &&
            (b.step (request 0 2 (.command .climb copy))).isSome) = true := by
    decide +kernel
  obtain ⟨trace, w, run, clean, hgood, _⟩ := exists_run plays_of_check hplay
  obtain ⟨hw, hrest⟩ := (Bool.and_eq_true _ _).mp hgood
  obtain ⟨hplanes, hreturned⟩ := (Bool.and_eq_true _ _).mp hw
  obtain ⟨_, hpoll, hrest⟩ := (Option.any_eq_true _ _).mp hrest
  obtain ⟨polled, step₁, rfl⟩ := clean.simulates hpoll
  obtain ⟨hpolled, hcommand⟩ := (Bool.and_eq_true _ _).mp hrest
  obtain ⟨_, hcommand⟩ := Option.isSome_iff_exists.mp hcommand
  have cleanPolled := clean.step step₁
  obtain ⟨after, step₂, _⟩ := cleanPolled.simulates hcommand
  have hfleet : w.planes = [eastPlane] := of_decide_eq_true hplanes
  have hrow : polled.planes = [eastPlane] := of_decide_eq_true hpolled
  obtain ⟨_, _, _, hseen⟩ := step₁.1.clean clean step₁.2
  have haccepted := accepted_of_step cleanPolled.toInv step₂.1 rfl (by decide +kernel)
  exact ⟨polled, after, w, polled, request 0 1 .poll, request 0 2 (.command .climb copy), [],
    ⟨trace, run.mono fun _ _ _ step => step.1.1⟩, ⟨by rw [hfleet]; simp, rfl⟩,
    ⟨step₁.1, rfl, _, hseen, of_decide_eq_true hreturned⟩, .nil polled,
    ⟨by rw [World.rowFor, hrow]; rfl, by decide +kernel⟩, step₂.1, rfl, rfl, rfl, haccepted⟩

/-! ## Commands -/

/-- **When a command keeps the position of its plane.**  The row stored by `set`
is where the plane is at the time of the command exactly if that is where the
copy was at the time of the poll. -/
theorem position_kept_iff [Platform] {start : Int64} {plane row : AtcPlane} {cmd : AtcCommand}
    {t₁ t₂ : Int64} {before after : World}
    (h : CommandAfterPoll start plane row cmd t₁ t₂ before after) :
    StoredAt row t₂ after ↔ SamePlace plane t₁ row t₂ := by
  obtain ⟨hid, stored, hstored, htime, hx, hy, hz⟩ := h.stored
  rw [← samePlace_iff, StoredAt, hid, hstored, ← hx, ← hy, ← hz]
  constructor
  · rintro ⟨other, hother, _, hplace⟩
    obtain rfl := Option.some.inj hother
    exact hplace
  · intro hplace
    exact ⟨stored, rfl, htime, hplace⟩

theorem position_kept_iff_eastPlane :
    ∃ (_ : Platform) (before after : World),
      CommandAfterPoll 0 eastPlane eastPlane .climb 1 2 before after ∧
        (StoredAt eastPlane 2 after ↔ SamePlace eastPlane 1 eastPlane 2) := by
  obtain ⟨before, after, h⟩ := exists_commandAfterPoll
  exact ⟨exactX86, before, after, h, @position_kept_iff exactX86 _ _ _ _ _ _ _ _ h⟩

/-- The second between the poll and the command is lost, although nothing is rounded. -/
theorem climb_moves_eastPlane :
    ∃ (_ : Platform) (before after : World), Platform.IsExact ∧
      CommandAfterPoll 0 eastPlane eastPlane .climb 1 2 before after ∧
        ¬ StoredAt eastPlane 2 after := by
  obtain ⟨before, after, h⟩ := exists_commandAfterPoll
  refine ⟨exactX86, before, after, isExact_exactX86, h, ?_⟩
  obtain ⟨_, stored, hstored, _, hx, _⟩ := @CommandAfterPoll.stored exactX86 _ _ _ _ _ _ _ _ h
  rintro ⟨other, hother, _, hplace, _⟩
  obtain rfl := Option.some.inj (hstored.symm.trans hother)
  have hmoved : (@advance exactX86 eastPlane 1).x ≠ (@advance exactX86 eastPlane 2).x := by
    decide +kernel
  exact hmoved (hx.symm.trans hplace)

end AirTraffic.Server
