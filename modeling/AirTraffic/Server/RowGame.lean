/-
  Server/RowGame.lean --- the game, one row at a time.

  WHAT THIS FILE IS FOR.  While several workers use the planes file, a poll is not one
  step: between two rows of it other workers store planes, and the poll stores planes
  itself.  What is one step is what is done to one row: a plane is stored by
  `create_plane` or `set`, a poll settles a plane that came down, a poll takes a
  plane that is in the air.  This is the game in these steps, with what they keep
  (`RowGame.Inv.step`, `Spared.step`).  `Workers.lean` shows that the workers play it.
-/
import AirTraffic.Server.Board

set_option autoImplicit false

namespace AirTraffic.Server

open AirTraffic.Foundation AirTraffic.Storage AirTraffic.Atcd AirTraffic.Protocol

/-- The poll of a worker: its time, and the planes in the buffer of the response. -/
structure RowPoll where
  now : Int64
  buffer : List AtcPlane

/-- The planes stored, the poll of each worker, and the planes obtained so far. -/
structure RowGame where
  planes : List AtcPlane
  polls : Nat → RowPoll
  seen : List (Nat × AtcPlane)

/-- What is done to one row, and by which worker. -/
inductive RowEvent where
  | create (chance : Chance) (now : Int64)
  | command (cmd : AtcCommand) (copy : AtcPlane) (now : Int64)
  | poll (p : Nat) (now : Int64)
  | settle (p : Nat) (plane : AtcPlane)
  | take (p : Nat) (plane : AtcPlane)
  | answer (p : Nat)

/-- The game before the first request, with these planes stored. -/
def RowGame.initial (planes : List AtcPlane) : RowGame where
  planes := planes
  polls := fun _ => { now := 0, buffer := [] }
  seen := []

/-- A client asks for it. -/
def RowEvent.FromClient : RowEvent → Prop
  | .create _ _ | .command _ _ _ => True
  | _ => False

/-- The plane that an event stores for a client has this id. -/
def RowEvent.Touches (id : List.Vector UInt8 6) : RowEvent → Prop
  | .create chance now => (newPlane chance now).id = id
  | .command _ copy _ => copy.id = id
  | _ => False

section RowGame

variable [Platform]

/-- The steps on one row. -/
inductive RowStep : RowGame → RowEvent → RowGame → Prop
  | create {g : RowGame} {chance : Chance} (now : Int64) (hpad : chance.pad.head = 0) :
      RowStep g (.create chance now)
        { g with planes := put AtcPlane.id (newPlane chance now) g.planes }
  | command {g : RowGame} {cmd : AtcCommand} {copy stored : AtcPlane} {now : Int64}
      (offers : copy ∈ g.seen.map Prod.snd)
      (h : commanded cmd.code (overWire copy) now = some stored) :
      RowStep g (.command cmd copy now) { g with planes := put AtcPlane.id stored g.planes }
  | poll (g : RowGame) (p : Nat) (now : Int64) :
      RowStep g (.poll p now)
        { g with polls := Function.update g.polls p { now := now, buffer := [] } }
  | settle {g : RowGame} {p : Nat} {plane : AtcPlane} (hmem : plane ∈ g.planes)
      (hdown : ComesDown (g.polls p).now plane) :
      RowStep g (.settle p plane)
        { g with planes := put AtcPlane.id (settle plane (g.polls p).now) g.planes }
  | take {g : RowGame} {p : Nat} {plane : AtcPlane} (hmem : plane ∈ g.planes)
      (hstays : StaysUp (g.polls p).now plane) (room : (g.polls p).buffer.length < maxPlanes) :
      RowStep g (.take p plane)
        { g with
          polls := Function.update g.polls p
            { g.polls p with
              buffer := (g.polls p).buffer ++ [advance plane (g.polls p).now] } }
  | answer (g : RowGame) (p : Nat) :
      RowStep g (.answer p)
        { g with seen := g.seen ++ (g.polls p).buffer.map fun plane => (p, overWire plane) }

/-! ## Every plane is airworthy -/

/-- What a stored plane looks like. -/
structure InFile (plane : AtcPlane) : Prop where
  named : plane.Named
  status : plane.Down ∨ plane.status = flying
  worthy : plane.status = flying → Airworthy plane

/-- What the steps on rows keep. -/
structure RowGame.Inv (g : RowGame) : Prop where
  distinct : (g.planes.map AtcPlane.id).Nodup
  planes : ∀ plane ∈ g.planes, InFile plane
  buffer : ∀ p, ∀ plane ∈ (g.polls p).buffer, Obtained (overWire plane)
  seen : ∀ copy ∈ g.seen, Obtained copy.2

variable {g g' : RowGame} {e : RowEvent}

theorem inFile_newPlane {chance : Chance} (hpad : chance.pad.head = 0) (now : Int64) :
    InFile (newPlane chance now) where
  named := named_newPlane hpad now
  status := Or.inr rfl
  worthy := fun _ => airworthy_newPlane chance now

theorem inFile_settle {plane : AtcPlane} (stored : InFile plane) (now : Int64) :
    InFile (settle plane now) where
  named := stored.named.congr rfl rfl
  status := Or.inl (down_settle plane now)
  worthy := fun hflying => absurd hflying (down_settle plane now).not_flying

/-- What `set` stores for a plane that was obtained. -/
theorem inFile_commanded {cmd : Int32} {copy stored : AtcPlane} {now : Int64}
    (obtained : Obtained copy) (h : commanded cmd (overWire copy) now = some stored) :
    InFile stored := by
  obtain ⟨hid, hpad⟩ := commanded_id_pad h
  rw [commanded_eq obtained] at h
  obtain ⟨hflying, hworthy, _⟩ := stored_of_obtained obtained h
  exact
    { named := (overWire_named obtained.named.free).congr hid hpad
      status := Or.inr hflying
      worthy := fun _ => hworthy }

/-- What a poll takes. -/
theorem InFile.obtained_advance {plane : AtcPlane} {now : Int64} (stored : InFile plane)
    (hstays : StaysUp now plane) : Obtained (overWire (advance plane now)) where
  flying := hstays.1
  worthy := airworthy_overWire
    (airworthy_advance (stored.worthy hstays.1).toInTrim hstays.2)
  named := overWire_named (by rw [advance_id]; exact stored.named.free)

/-- Storing one more plane. -/
theorem RowGame.Inv.put (inv : g.Inv) {plane : AtcPlane} (stored : InFile plane) :
    RowGame.Inv { g with planes := put AtcPlane.id plane g.planes } where
  distinct := nodup_map_key_put inv.distinct
  planes := by
    intro other hmem
    rcases (mem_put inv.distinct).mp hmem with rfl | ⟨hother, _⟩
    · exact stored
    · exact inv.planes other hother
  buffer := inv.buffer
  seen := inv.seen

/-- Changing the poll of one worker. -/
theorem RowGame.Inv.update (inv : g.Inv) (p : Nat) {poll : RowPoll}
    (hpoll : ∀ plane ∈ poll.buffer, Obtained (overWire plane)) :
    RowGame.Inv { g with polls := Function.update g.polls p poll } where
  distinct := inv.distinct
  planes := inv.planes
  buffer := by
    intro q
    dsimp only
    by_cases hq : q = p
    · rw [hq, Function.update_self]
      exact hpoll
    · rw [Function.update_of_ne hq]
      exact inv.buffer q
  seen := inv.seen

theorem RowGame.Inv.step (inv : g.Inv) (step : RowStep g e g') : g'.Inv := by
  cases step with
  | create now hpad => exact inv.put (inFile_newPlane hpad now)
  | command offers h =>
      obtain ⟨copy, hcopy, rfl⟩ := List.mem_map.mp offers
      exact inv.put (inFile_commanded (inv.seen copy hcopy) h)
  | poll p now => exact inv.update p fun plane hmem => absurd hmem List.not_mem_nil
  | settle hmem hdown => exact inv.put (inFile_settle (inv.planes _ hmem) _)
  | @take p plane hmem hstays room =>
      refine inv.update p fun other hother => ?_
      rcases List.mem_append.mp hother with hold | hnew
      · exact inv.buffer p other hold
      · rw [List.mem_singleton.mp hnew]
        exact (inv.planes plane hmem).obtained_advance hstays
  | answer p =>
      refine ⟨inv.distinct, inv.planes, inv.buffer, ?_⟩
      intro copy hmem
      rcases List.mem_append.mp hmem with hold | hnew
      · exact inv.seen copy hold
      · obtain ⟨plane, hplane, rfl⟩ := List.mem_map.mp hnew
        exact inv.buffer p plane hplane

/-- No plane is lost, and none changes its place. -/
theorem RowStep.ids_kept (step : RowStep g e g') :
    g.planes.map AtcPlane.id <+: g'.planes.map AtcPlane.id := by
  have hput : ∀ plane : AtcPlane,
      g.planes.map AtcPlane.id <+: (put AtcPlane.id plane g.planes).map AtcPlane.id := by
    intro plane
    rw [map_key_put]
    split
    · exact List.prefix_refl _
    · exact List.prefix_append _ _
  cases step with
  | create | command | settle => exact hput _
  | poll | take | answer => exact List.prefix_refl _

theorem rowInv_initial {planes : List AtcPlane} (distinct : (planes.map AtcPlane.id).Nodup)
    (stored : ∀ plane ∈ planes, InFile plane) : (RowGame.initial planes).Inv where
  distinct := distinct
  planes := stored
  buffer := fun _ _ hmem => absurd hmem List.not_mem_nil
  seen := fun _ hmem => absurd hmem List.not_mem_nil

/-! ## A plane that nobody commands -/

/-- The row is as it was, or one poll has settled it. -/
def SettledOnce (row plane : AtcPlane) : Prop :=
  plane = row ∨ ∃ now, ComesDown now row ∧ plane = settle row now

/-- The plane is the row as it is in the air at some time. -/
def TakenFrom (row plane : AtcPlane) : Prop := ∃ now, StaysUp now row ∧ plane = advance row now

/-- What holds while no client stores a plane with the id of the row. -/
structure Spared (row : AtcPlane) (g : RowGame) : Prop where
  planes : ∀ plane ∈ g.planes, plane.id = row.id → SettledOnce row plane
  listed : row.id ∈ g.planes.map AtcPlane.id
  buffer : ∀ p, ∀ plane ∈ (g.polls p).buffer, plane.id = row.id → TakenFrom row plane
  seen : ∀ copy ∈ g.seen, copy.2.id = row.id →
    ∃ plane, TakenFrom row plane ∧ copy.2 = overWire plane

variable {row : AtcPlane}

/-- A flying plane with the id is the row itself. -/
theorem SettledOnce.eq_of_flying {plane : AtcPlane} (h : SettledOnce row plane)
    (hflying : plane.status = flying) : plane = row := by
  rcases h with rfl | ⟨now, _, rfl⟩
  · rfl
  · exact absurd hflying (down_settle row now).not_flying

/-- Storing one more plane. -/
theorem Spared.put (spared : Spared row g) (inv : g.Inv) {plane : AtcPlane}
    (h : plane.id = row.id → SettledOnce row plane) :
    Spared row { g with planes := put AtcPlane.id plane g.planes } where
  planes := by
    intro other hmem hid
    rcases (mem_put inv.distinct).mp hmem with rfl | ⟨hother, _⟩
    · exact h hid
    · exact spared.planes other hother hid
  listed := by
    rw [map_key_put]
    split
    · exact spared.listed
    · exact List.mem_append_left _ spared.listed
  buffer := spared.buffer
  seen := spared.seen

theorem Spared.update (spared : Spared row g) (p : Nat) {poll : RowPoll}
    (hpoll : ∀ plane ∈ poll.buffer, plane.id = row.id → TakenFrom row plane) :
    Spared row { g with polls := Function.update g.polls p poll } where
  planes := spared.planes
  listed := spared.listed
  buffer := by
    intro q
    dsimp only
    by_cases hq : q = p
    · rw [hq, Function.update_self]
      exact hpoll
    · rw [Function.update_of_ne hq]
      exact spared.buffer q
  seen := spared.seen

/-- **A step that stores no plane with its id leaves a row as it was, or settles it.** -/
theorem Spared.step (spared : Spared row g) (inv : g.Inv) (step : RowStep g e g')
    (h : ¬ e.Touches row.id) : Spared row g' := by
  cases step with
  | create now hpad => exact spared.put inv fun hid => absurd hid h
  | command offers hstored =>
      obtain ⟨hid, _⟩ := commanded_id_pad hstored
      exact spared.put inv fun hsame => absurd (hid.symm.trans hsame) h
  | poll p now => exact spared.update p fun plane hmem => absurd hmem List.not_mem_nil
  | @settle p plane hmem hdown =>
      refine spared.put inv fun hid => Or.inr ?_
      obtain rfl := (spared.planes plane hmem hid).eq_of_flying hdown.1
      exact ⟨_, hdown, rfl⟩
  | @take p plane hmem hstays room =>
      refine spared.update p fun other hother hid => ?_
      rcases List.mem_append.mp hother with hold | hnew
      · exact spared.buffer p other hold hid
      · obtain rfl := List.mem_singleton.mp hnew
        obtain rfl := (spared.planes plane hmem hid).eq_of_flying hstays.1
        exact ⟨_, hstays, rfl⟩
  | answer p =>
      refine ⟨spared.planes, spared.listed, spared.buffer, ?_⟩
      intro copy hmem hid
      rcases List.mem_append.mp hmem with hold | hnew
      · exact spared.seen copy hold hid
      · obtain ⟨plane, hplane, rfl⟩ := List.mem_map.mp hnew
        exact ⟨plane, spared.buffer p plane hplane hid, rfl⟩

theorem spared_initial {planes : List AtcPlane} (distinct : (planes.map AtcPlane.id).Nodup)
    (hmem : row ∈ planes) : Spared row (RowGame.initial planes) where
  planes := fun _ hplane hid => Or.inl (List.inj_on_of_nodup_map distinct hplane hmem hid)
  listed := List.mem_map_of_mem hmem
  buffer := fun _ _ h => absurd h List.not_mem_nil
  seen := fun _ h => absurd h List.not_mem_nil

end RowGame

end AirTraffic.Server
