/-
  Server/Scene.lean --- two workers at their system calls.

  WHAT THIS FILE IS FOR.  `Workers.lean` says what a system call of a worker may do.
  Here is what it can do: from where two workers are in their calls, while all others
  are idle, the next call of one of them, and where both of them are behind it.  The
  worker that makes no call stays where it is (`WorkerStep.station_of_ne`).  A
  `sto_set` that has its lock goes on to its end (`Staged.write`).
-/
import AirTraffic.Storage.Drain
import AirTraffic.Server.Workers

set_option autoImplicit false

namespace AirTraffic.Server

open AirTraffic.Foundation AirTraffic.Storage AirTraffic.Atcd AirTraffic.Protocol

/-! ## Stations -/

/-- Where a worker is in its calls. -/
structure Station where
  phase : Storage.Phase
  held : Option LockMode
  set : SetRun
  reader : Reader
  counters : Counters
  poll : PollRun

def Workers.station (w : Workers) (p : Nat) : Station where
  phase := w.store.control.phase p
  held := w.store.control.held p
  set := w.store.set p
  reader := (w.store.scan p).reader
  counters := w.counters p
  poll := w.poll p

/-- Two workers are at these stations, and all others are idle. -/
structure Scene (p q : Nat) (a b : Station) (fleet : List AtcPlane) (seen : List (Nat × AtcPlane))
    (w : Workers) : Prop where
  ne : p ≠ q
  here : w.station p = a
  there : w.station q = b
  others : ∀ r, r ≠ p → r ≠ q → (w.station r).phase = .idle ∧ (w.station r).held = none
  holds : Holds w.store.file fleet
  seen : w.seen = seen

/-- A reader behind a plane of the file. -/
def readerBehind (plane : AtcPlane) (i : Nat) : Reader where
  pos := i * planesDb.rowSize + stoKeySize + sizeofPlane
  cursor := i + 1
  key := plane.key
  row := plane.bytes

/-- The row that a reader finds. -/
theorem fetch_holds {file : Bytes} {fleet : List AtcPlane} (holds : Holds file fleet) {r : Reader}
    {plane : AtcPlane} (hplane : fleet[r.cursor]? = some plane)
    (hkey : r.key.length = stoKeySize) (hrow : r.row.length = sizeofPlane) :
    fetch planesDb true file r = (48, readerBehind plane r.cursor) := by
  have hn := holds.length_file
  have hlt := (List.getElem?_eq_some_iff.mp hplane).1
  have hat : rowAt planesDb file r.cursor = rowOf plane := by
    have hget := getElem?_rowsOf fits_planes hn r.cursor
    rw [holds.rows, List.getElem?_map, hplane, if_pos hlt] at hget
    exact (Option.some.inj hget).symm
  have ready : Ready planesDb true file r.cursor (r.on file) := ⟨rfl, rfl, hkey, fun _ => hrow⟩
  have hfetch := fetchNextRecord_row hn hlt ready
  rw [fetch, hfetch, afterRow, hat]
  rfl

section Scene

variable [Platform] {allowed : RowEvent → Prop} {p q r : Nat} {a b : Station}
  {fleet : List AtcPlane} {seen : List (Nat × AtcPlane)} {w w' : Workers} {deed : Deed}

/-- **A worker that makes no call stays where it is.** -/
theorem WorkerStep.station_of_ne (step : WorkerStep w (p, deed) w') (hr : r ≠ p) :
    w'.station r = w.station r := by
  have hstore : ∀ {op : Op} {store : Store Nat}, StoreStep planesDb w.store (p, op) store →
      store.control.phase r = w.store.control.phase r ∧
        store.control.held r = w.store.control.held r ∧
        store.set r = w.store.set r ∧ store.scan r = w.store.scan r := by
    intro op store step
    obtain ⟨hphase, hset, hscan⟩ := step.others hr
    exact ⟨hphase, (step.control.others hr).2, hset, hscan⟩
  cases step with
  | create room opens =>
      obtain ⟨hphase, hheld, hset, hscan⟩ := hstore opens.step
      simp only [Workers.station, hphase, hheld, hset, hscan]
  | command offers h opens =>
      obtain ⟨hphase, hheld, hset, hscan⟩ := hstore opens.step
      simp only [Workers.station, hphase, hheld, hset, hscan]
  | settle down opens =>
      obtain ⟨hphase, hheld, hset, hscan⟩ := hstore opens.step
      simp only [Workers.station, hphase, hheld, hset, hscan]
  | poll now step =>
      obtain ⟨hphase, hheld, hset, hscan⟩ := hstore step
      simp only [Workers.station, hphase, hheld, hset, hscan, Function.update_of_ne hr]
  | next up step =>
      obtain ⟨hphase, hheld, hset, hscan⟩ := hstore step
      simp only [Workers.station, hphase, hheld, hset, hscan, Function.update_of_ne hr]
  | fails step =>
      obtain ⟨hphase, hheld, hset, hscan⟩ := hstore step
      simp only [Workers.station, hphase, hheld, hset, hscan, Function.update_of_ne hr]
  | answer step =>
      obtain ⟨hphase, hheld, hset, hscan⟩ := hstore step
      simp only [Workers.station, hphase, hheld, hset, hscan, Function.update_of_ne hr]
  | call step =>
      obtain ⟨hphase, hheld, hset, hscan⟩ := hstore step
      simp only [Workers.station, hphase, hheld, hset, hscan]

omit [Platform] in
theorem Scene.swap (scene : Scene p q a b fleet seen w) : Scene q p b a fleet seen w where
  ne := scene.ne.symm
  here := scene.there
  there := scene.here
  others := fun r hq hp => scene.others r hp hq
  holds := scene.holds
  seen := scene.seen

omit [Platform] in
/-- The lock is free if the other worker does not hold one against it. -/
theorem Scene.free (scene : Scene p q a b fleet seen w) {mode : LockMode}
    (h : ∀ other, b.held = some other → ¬ mode.Conflicts other) :
    Free w.store.control.held p mode := by
  rintro r ⟨hr, other, hother, hconflict⟩
  by_cases hq : r = q
  · subst hq
    have hheld : b.held = some other := by rw [← scene.there]; exact hother
    exact h other hheld hconflict
  · have hnone : w.store.control.held r = none := (scene.others r hr hq).2
    exact absurd (hnone.symm.trans hother) (by simp)

omit [Platform] in
/-- Only the other worker can be waiting for the exclusive lock in a scan. -/
theorem Scene.oneUpgrade (scene : Scene p q a b fleet seen w) {op : Op}
    (h : op = .lockFile → a.phase = .setLock true → b.phase ≠ .setWait true) :
    OneUpgrade w.store.control (p, op) := by
  intro hop hset r hr hwait
  by_cases hq : r = q
  · subst hq
    refine h hop (by rw [← scene.here]; exact hset) ?_
    rw [← scene.there]
    exact hwait
  · exact absurd ((scene.others r hr hq).1.symm.trans hwait) (by simp)

/-! ## Calls that can be made -/

/-- The workers come to a scene. -/
def Staged (allowed : RowEvent → Prop) (start : Bytes) (p q : Nat) (a b : Station)
    (fleet : List AtcPlane) (seen : List (Nat × AtcPlane)) : Prop :=
  ∃ trace w, Run (SharedStep allowed) (Workers.initial start) trace w ∧
    Scene p q a b fleet seen w

/-- Nobody is in a call. -/
def Station.initial : Station where
  phase := .idle
  held := none
  set := .start [] []
  reader := Reader.open (zeros stoKeySize) []
  counters := {}
  poll := { now := 0, buffer := [], failed := false }

variable {start : Bytes}

theorem staged_initial (holds : Holds start fleet) (hne : p ≠ q) :
    Staged allowed start p q .initial .initial fleet [] :=
  ⟨[], _, .nil _, hne, rfl, rfl, fun _ _ _ => ⟨rfl, rfl⟩, holds, rfl⟩

theorem Staged.swap (staged : Staged allowed start p q a b fleet seen) :
    Staged allowed start q p b a fleet seen := by
  obtain ⟨trace, w, run, scene⟩ := staged
  exact ⟨trace, w, run, scene.swap⟩

/-- A run of one worker leads from one scene to the next. -/
theorem Staged.goes {a' : Station} {fleet' : List AtcPlane} {seen' : List (Nat × AtcPlane)}
    (staged : Staged allowed start p q a b fleet seen)
    (goes : ∀ w, Scene p q a b fleet seen w → ∃ more w', Run (SharedStep allowed) w more w' ∧
      (∀ r, r ≠ p → w'.station r = w.station r) ∧ w'.station p = a' ∧
      Holds w'.store.file fleet' ∧ w'.seen = seen') :
    Staged allowed start p q a' b fleet' seen' := by
  obtain ⟨trace, w, run, scene⟩ := staged
  obtain ⟨more, w', run', hothers, hhere, holds, hseen⟩ := goes w scene
  refine ⟨_, w', run.append run', scene.ne, hhere, ?_, fun r hp hq => ?_, holds, hseen⟩
  · rw [hothers q scene.ne.symm]
    exact scene.there
  · rw [hothers r hp]
    exact scene.others r hp hq

/-- So does one step. -/
theorem Staged.step {a' : Station} {fleet' : List AtcPlane} {seen' : List (Nat × AtcPlane)}
    (deed : Deed) (staged : Staged allowed start p q a b fleet seen)
    (goes : ∀ w, Scene p q a b fleet seen w → ∃ w', WorkerStep w (p, deed) w' ∧
      w'.station p = a' ∧ Holds w'.store.file fleet' ∧ w'.seen = seen')
    (one : deed.op = .lockFile → a.phase = .setLock true → b.phase ≠ .setWait true)
    (hpads : deed.PadsClean) (hrequest : ∀ e, deed.request = some e → allowed e) :
    Staged allowed start p q a' b fleet' seen' := by
  refine staged.goes fun w scene => ?_
  obtain ⟨w', step, hhere, holds, hseen⟩ := goes w scene
  exact ⟨_, w', .cons ⟨step, scene.oneUpgrade one, hpads, hrequest⟩ (.nil w'),
    fun _ hr => step.station_of_ne hr, hhere, holds, hseen⟩

/-- `sto_query` of a poll. -/
theorem Staged.poll (staged : Staged allowed start p q a b fleet seen) (now : Int64)
    (idle : a.phase = .idle) :
    Staged allowed start p q
      { a with
        phase := .getLock
        reader := Reader.open (zeros stoKeySize) (zeros sizeofPlane)
        counters := { a.counters with crashedCount := 0, landedCount := 0 }
        poll := { now := now, buffer := [], failed := false } } b fleet seen := by
  refine staged.step (.poll now) (fun w scene => ?_) (by simp [Deed.op]) trivial
    (by simp [Deed.request])
  have hphase : w.store.control.phase p = .idle :=
    (congrArg Station.phase scene.here).trans idle
  refine ⟨_, .poll now (.openScan (zeros sizeofPlane) (.openScan hphase) move_phase_self)
    move_phase_self (by dsimp only; rw [Function.update_self]), ?_, scene.holds, scene.seen⟩
  rw [← scene.here]
  simp [Workers.station, ScanRun.start, move_phase_self, move_held_self]

omit [Platform] in
/-- `sto_query` of a request that stores a plane. -/
theorem Scene.opensSet (scene : Scene p q a b fleet seen w) (idle : a.phase = .idle)
    (plane : AtcPlane) :
    ∃ store, OpensSet w.store p false plane store ∧ store.file = w.store.file ∧
      ({ w with store := store } : Workers).station p =
        { a with phase := .setLock false, set := .start plane.bytes plane.bytes } := by
  have hphase : w.store.control.phase p = .idle :=
    (congrArg Station.phase scene.here).trans idle
  refine ⟨_, ⟨.openSet plane.bytes plane.bytes (.openSet hphase) move_phase_self,
    move_phase_self, by dsimp only; rw [Function.update_self]⟩, rfl, ?_⟩
  rw [← scene.here]
  simp [Workers.station, move_phase_self, move_held_self]

/-- `create_plane`. -/
theorem Staged.create (staged : Staged allowed start p q a b fleet seen) {chance : Chance}
    (now : Int64) (hpad : chance.pad.head = 0) (hallowed : allowed (.create chance now))
    (idle : a.phase = .idle) (room : a.counters.planesCount ≠ Int32.ofNat maxPlanes) :
    Staged allowed start p q
      { a with
        phase := .setLock false
        set := .start (newPlane chance now).bytes (newPlane chance now).bytes } b fleet seen := by
  refine staged.step (.create chance now) (fun w scene => ?_) (by simp [Deed.op]) hpad
    (by simpa [Deed.request] using hallowed)
  obtain ⟨store, opens, hfile, hstation⟩ := scene.opensSet idle (newPlane chance now)
  have hroom : (w.counters p).planesCount ≠ Int32.ofNat maxPlanes := by
    have hcounters : w.counters p = a.counters := congrArg Station.counters scene.here
    rwa [hcounters]
  exact ⟨_, .create hroom opens, hstation, hfile ▸ scene.holds, scene.seen⟩

/-- `set`. -/
theorem Staged.command (staged : Staged allowed start p q a b fleet seen) {cmd : AtcCommand}
    {copy stored : AtcPlane} {now : Int64} (hallowed : allowed (.command cmd copy now))
    (offers : copy ∈ seen.map Prod.snd)
    (hstored : commanded cmd.code (overWire copy) now = some stored) (idle : a.phase = .idle) :
    Staged allowed start p q
      { a with phase := .setLock false, set := .start stored.bytes stored.bytes } b fleet
      seen := by
  refine staged.step (.command cmd copy now) (fun w scene => ?_) (by simp [Deed.op]) trivial
    (by simpa [Deed.request] using hallowed)
  obtain ⟨store, opens, hfile, hstation⟩ := scene.opensSet idle stored
  exact ⟨_, .command (scene.seen ▸ offers) hstored opens, hstation, hfile ▸ scene.holds,
    scene.seen⟩

/-- A lock call that is granted. -/
theorem Staged.lock (staged : Staged allowed start p q a b fleet seen)
    {before wait after : Storage.Phase} {mode : LockMode} (call : LockCall before mode wait after)
    (hphase : a.phase = before) (free : ∀ other, b.held = some other → ¬ mode.Conflicts other)
    (one : b.phase ≠ .setWait true) :
    Staged allowed start p q { a with phase := after, held := some mode } b fleet seen := by
  refine staged.step (.call .lockFile) (fun w scene => ?_) (fun _ _ => one) trivial
    (by simp [Deed.request])
  have step : LockStep w.store.control (p, .lockFile) _ :=
    .granted ((congrArg Station.phase scene.here).trans hphase) call (scene.free free)
  refine ⟨_, .call (.lock step) (by simp) (by simp) (by simp) (by simp), ?_, scene.holds,
    scene.seen⟩
  rw [← scene.here]
  simp [Workers.station, move_phase_self, move_held_self]

/-- One that has to wait. -/
theorem Staged.block (staged : Staged allowed start p q a b fleet seen)
    {before wait after : Storage.Phase} {mode : LockMode} (call : LockCall before mode wait after)
    (hphase : a.phase = before) (none : a.held = none) {other : LockMode}
    (busy : b.held = some other) (conflict : mode.Conflicts other) (one : b.phase ≠ .setWait true) :
    Staged allowed start p q { a with phase := wait } b fleet seen := by
  refine staged.step (.call .lockFile) (fun w scene => ?_) (fun _ _ => one) trivial
    (by simp [Deed.request])
  have hbusy : ¬ Free w.store.control.held p mode := fun free =>
    free q ⟨scene.ne.symm, other, (congrArg Station.held scene.there).trans busy, conflict⟩
  have hheld : w.store.control.held p = a.held := congrArg Station.held scene.here
  have hlive : ¬ WouldDeadlock w.store.control.held w.store.control.request p mode :=
    not_wouldDeadlock_of_none (hheld.trans none)
  have step : LockStep w.store.control (p, .lockFile) _ :=
    .blocked ((congrArg Station.phase scene.here).trans hphase) call hbusy hlive
  refine ⟨_, .call (.lock step) (by simp) (by simp) (by simp) (by simp), ?_, scene.holds,
    scene.seen⟩
  rw [← scene.here]
  simp [Workers.station, move_phase_self, move_held_self]

/-- While nobody is in the middle of a `sto_set`, the planes of the scene are stored. -/
theorem Staged.exists_quiet (staged : Staged allowed start p q a b fleet seen)
    (ha : ∀ nested, a.phase ≠ .writing nested) (hb : ∀ nested, b.phase ≠ .writing nested) :
    ∃ trace w, Run (SharedStep allowed) (Workers.initial start) trace w ∧ w.Quiet ∧
      w.seen = seen ∧ Holds w.store.file fleet := by
  obtain ⟨trace, w, run, scene⟩ := staged
  refine ⟨trace, w, run, fun r nested hwrites => ?_, scene.seen, scene.holds⟩
  by_cases hp : r = p
  · exact ha nested ((congrArg Station.phase scene.here).symm.trans (hp ▸ hwrites))
  · by_cases hq : r = q
    · exact hb nested ((congrArg Station.phase scene.there).symm.trans (hq ▸ hwrites))
    · exact absurd ((scene.others r hp hq).1.symm.trans hwrites) (by simp)

/-- The end of the wait. -/
theorem Staged.wake (staged : Staged allowed start p q a b fleet seen)
    {before wait after : Storage.Phase} {mode : LockMode} (call : LockCall before mode wait after)
    (hphase : a.phase = wait) (free : ∀ other, b.held = some other → ¬ mode.Conflicts other) :
    Staged allowed start p q { a with phase := after, held := some mode } b fleet seen := by
  refine staged.step (.call .wakeUp) (fun w scene => ?_) (by simp [Deed.op]) trivial
    (by simp [Deed.request])
  have step : LockStep w.store.control (p, .wakeUp) _ :=
    .woken ((congrArg Station.phase scene.here).trans hphase) call (scene.free free)
  refine ⟨_, .call (.wake step) (by simp) (by simp) (by simp) (by simp), ?_, scene.holds,
    scene.seen⟩
  rw [← scene.here]
  simp [Workers.station, move_phase_self, move_held_self]

/-- `sto_get` reads a row. -/
theorem Staged.read (staged : Staged allowed start p q a b fleet seen) {plane : AtcPlane}
    (hphase : a.phase = .reading) (hplane : fleet[a.reader.cursor]? = some plane)
    (hkey : a.reader.key.length = stoKeySize) (hrow : a.reader.row.length = sizeofPlane) :
    Staged allowed start p q
      { a with phase := .row, reader := readerBehind plane a.reader.cursor } b fleet seen := by
  refine staged.step (.call .readRow) (fun w scene => ?_) (by simp [Deed.op]) trivial
    (by simp [Deed.request])
  have hreader : (w.store.scan p).reader = a.reader := congrArg Station.reader scene.here
  have hfetch : fetch planesDb true w.store.file (w.store.scan p).reader =
      (48, readerBehind plane a.reader.cursor) := by
    rw [hreader]
    exact fetch_holds scene.holds hplane hkey hrow
  have hsome : (48 : Int32) ≠ 0 ∧ (48 : Int32) ≠ -1 := by decide
  have step : LockStep w.store.control (p, .readRow) _ :=
    .readRow ((congrArg Station.phase scene.here).trans hphase)
  refine ⟨_, .call (.readRow step move_phase_self (by rw [hfetch]; exact hsome.1)
    (by rw [hfetch]; exact hsome.2)) (by simp) (by simp)
    (fun _ => by dsimp only; rw [move_phase_self]; simp) (by simp), ?_, scene.holds, scene.seen⟩
  rw [hfetch, ← scene.here]
  simp [Workers.station, ScanRun.took, move_phase_self, move_held_self]

/-- `sto_get` finds the end of the file. -/
theorem Staged.readEnd (staged : Staged allowed start p q a b fleet seen)
    (hphase : a.phase = .reading) (hend : fleet.length ≤ a.reader.cursor) :
    Staged allowed start p q { a with phase := .atEnd } b fleet seen := by
  refine staged.step (.call .readRow) (fun w scene => ?_) (by simp [Deed.op]) trivial
    (by simp [Deed.request])
  have hreader : (w.store.scan p).reader = a.reader := congrArg Station.reader scene.here
  have hzero : (fetch planesDb true w.store.file (w.store.scan p).reader).1 = 0 := by
    refine fetch_behind true ?_
    calc w.store.file.length
        ≤ fleet.length * planesDb.rowSize :=
          scene.holds.length_file ▸ fileLength_le fits_planes _
      _ ≤ (w.store.scan p).reader.cursor * planesDb.rowSize :=
          Nat.mul_le_mul_right _ (hreader ▸ hend)
  have step : LockStep w.store.control (p, .readRow) _ :=
    .readEnd ((congrArg Station.phase scene.here).trans hphase)
  refine ⟨_, .call (.readEnd step move_phase_self hzero) (by simp) (by simp)
    (fun _ => by dsimp only; rw [move_phase_self]; simp) (by simp), ?_, scene.holds, scene.seen⟩
  rw [← scene.here]
  simp [Workers.station, move_phase_self, move_held_self]

/-- The `sto_query` of `_crashed_or_landed`. -/
theorem Staged.settle (staged : Staged allowed start p q a b fleet seen) {plane : AtcPlane}
    (hphase : a.phase = .row) (hrow : a.reader.row = plane.bytes)
    (down : ComesDown a.poll.now plane) :
    Staged allowed start p q
      { a with
        phase := .setLock true
        set := .start (Atcd.settle plane a.poll.now).bytes (Atcd.settle plane a.poll.now).bytes }
      b fleet seen := by
  refine staged.step .settle (fun w scene => ?_) (by simp [Deed.op]) trivial
    (by simp [Deed.request])
  have hhand : w.inHand p = plane := by
    have hreader : (w.store.scan p).reader = a.reader := congrArg Station.reader scene.here
    rw [Workers.inHand, hreader, hrow, AtcPlane.ofBytes_bytes]
  have hpoll : w.poll p = a.poll := congrArg Station.poll scene.here
  have step : LockStep w.store.control (p, .openFile) _ :=
    .openNested ((congrArg Station.phase scene.here).trans hphase)
  refine ⟨_, .settle (by rw [hhand, hpoll]; exact down) ⟨.openSet _ _ step move_phase_self,
    move_phase_self, by dsimp only; rw [Function.update_self]⟩, ?_, scene.holds, scene.seen⟩
  rw [hhand, hpoll, ← scene.here]
  simp [Workers.station, move_phase_self, move_held_self]

/-- The body of the loop, on a plane that is in the air. -/
def Station.took (a : Station) (plane : AtcPlane) : Station :=
  { a with
    phase := .getLock
    counters :=
      (pollRow a.poll.now
        { query := a.reader.on [], buffer := a.poll.buffer, counters := a.counters }).counters
    poll := { a.poll with buffer := a.poll.buffer ++ [advance plane a.poll.now] } }

theorem Staged.take (staged : Staged allowed start p q a b fleet seen) {plane : AtcPlane}
    (hphase : a.phase = .row) (hrow : a.reader.row = plane.bytes)
    (stays : StaysUp a.poll.now plane) (room : a.poll.buffer.length < maxPlanes) :
    Staged allowed start p q (a.took plane) b fleet seen := by
  refine staged.step .next (fun w scene => ?_) (by simp [Deed.op]) trivial (by simp [Deed.request])
  have hreader : (w.store.scan p).reader = a.reader := congrArg Station.reader scene.here
  have hcounters : w.counters p = a.counters := congrArg Station.counters scene.here
  have hhand : w.inHand p = plane := by
    rw [Workers.inHand, hreader, hrow, AtcPlane.ofBytes_bytes]
  have hpoll : w.poll p = a.poll := congrArg Station.poll scene.here
  have up : ¬ ComesDown (w.poll p).now (w.inHand p) := by
    rw [hhand, hpoll]
    exact fun down => stays.2 down.2
  have hbuffer := rowPoll_buffer (by rw [hreader, hrow]; exact AtcPlane.length_bytes plane) up
  rw [hhand, hpoll, if_pos ⟨stays, room⟩] at hbuffer
  have step : LockStep w.store.control (p, .nextRow) _ :=
    .next ((congrArg Station.phase scene.here).trans hphase)
  refine ⟨_, .next up (.next step), ?_, scene.holds, scene.seen⟩
  rw [hbuffer, Workers.rowPoll, hreader, hcounters, hpoll, Station.took, ← scene.here]
  simp [Workers.station, move_phase_self, move_held_self]

/-- `_release_lock` at the end of the file. -/
theorem Staged.unlock (staged : Staged allowed start p q a b fleet seen)
    (hphase : a.phase = .atEnd) :
    Staged allowed start p q { a with phase := .scanned, held := none } b fleet seen := by
  refine staged.step (.call .unlockFile) (fun w scene => ?_) (by simp [Deed.op]) trivial
    (by simp [Deed.request])
  have step : LockStep w.store.control (p, .unlockFile) _ :=
    .unlock ((congrArg Station.phase scene.here).trans hphase)
  refine ⟨_, .call (.unlock step) (by simp) (by simp) (by simp) (by simp), ?_, scene.holds,
    scene.seen⟩
  rw [← scene.here]
  simp [Workers.station, move_phase_self, move_held_self]

/-- `get_airplanes` returns its planes. -/
theorem Staged.answer (staged : Staged allowed start p q a b fleet seen)
    (hphase : a.phase = .scanned) (sound : a.poll.failed = false) :
    Staged allowed start p q
      { a with
        phase := .idle
        held := none
        counters :=
          { a.counters with planesCount := Int32.ofNat a.poll.buffer.length } } b fleet
      (seen ++ a.poll.buffer.map fun plane => (p, overWire plane)) := by
  refine staged.step .answer (fun w scene => ?_) (by simp [Deed.op]) trivial
    (by simp [Deed.request])
  have hpoll : w.poll p = a.poll := congrArg Station.poll scene.here
  have hscanned : w.store.control.phase p = .scanned :=
    (congrArg Station.phase scene.here).trans hphase
  refine ⟨_, .answer (.closeScan (.closeScan hscanned) hscanned) hscanned, ?_, scene.holds, ?_⟩
  · rw [hpoll, sound, ← scene.here]
    simp [Workers.station, move_phase_self, move_held_self]
  · dsimp only
    rw [hpoll, sound, scene.seen]
    rfl

/-! ## A `sto_set` to its end -/

/-- A worker has gone on with its `sto_set`, and nothing else has happened. -/
structure Writes (p : Nat) (w w' : Workers) : Prop where
  others : ∀ r, r ≠ p → w'.station r = w.station r
  here : w'.station p = { w.station p with set := w'.store.set p }
  seen : w'.seen = w.seen
  rest : (w'.store.set p).rest planesDb w'.store.file =
    (w.store.set p).rest planesDb w.store.file

/-- An access of the file. -/
theorem Writes.access {nested : Bool} (writes : Writes p w w')
    (hphase : w.store.control.phase p = .writing nested)
    (more : ∀ res, (w'.store.set p).stage ≠ .wrote res) :
    ∃ u, SharedStep allowed w' (p, .call .useFile) u ∧ Writes p w u ∧
      u.store.set p = ((w'.store.set p).access planesDb w'.store.file).1 ∧
      u.store.file = ((w'.store.set p).access planesDb w'.store.file).2 := by
  have hwrites : w'.store.control.phase p = .writing nested :=
    (congrArg Station.phase writes.here).trans hphase
  have step : WorkerStep w' (p, .call .useFile) _ :=
    .call (.access (.access hwrites) more) (by simp) (by simp) (by simp) (by simp)
  have hset : ∀ run : SetRun, Function.update w'.store.set p run p = run :=
    fun run => Function.update_self ..
  refine ⟨_, ⟨step, by simp [OneUpgrade, Deed.op], trivial, by simp [Deed.request]⟩, ⟨?_, ?_,
    writes.seen, ?_⟩, hset _, rfl⟩
  · intro r hr
    rw [step.station_of_ne hr]
    exact writes.others r hr
  · have hhere := writes.here
    simp only [Workers.station, Station.mk.injEq] at hhere
    simp [Workers.station, move_phase_self, move_held_self, hhere, hphase]
  · dsimp only
    rw [hset, SetRun.rest_access (by decide)]
    exact writes.rest

/-- It comes to its result. -/
theorem exists_wrote {nested : Bool} (hphase : w.store.control.phase p = .writing nested) :
    ∃ more u, Run (SharedStep allowed) w more u ∧ Writes p w u ∧
      ∃ res, (u.store.set p).stage = .wrote res := by
  refine Run.exists_final (wellFounded_lt (α := ℕ ×ₗ ℕ))
    (fun u => toLex ((u.store.set p).stage.left,
      (u.store.set p).stage.unseen planesDb u.store.file))
    (Writes p w) (fun u => ∃ res, (u.store.set p).stage = .wrote res) ?_ w
    ⟨fun _ _ => rfl, rfl, rfl, rfl⟩
  intro w' writes hmore
  have more : ∀ res, (w'.store.set p).stage ≠ .wrote res := fun res hres => hmore ⟨res, hres⟩
  obtain ⟨u, step, hwrites, hset, hfile⟩ := writes.access hphase more
  refine ⟨_, u, step, hwrites, ?_⟩
  rw [hset, hfile]
  have hsize : 0 < planesDb.rowSize := by decide
  rcases left_access hsize (w'.store.set p) w'.store.file more with hless | ⟨hsame, heq, hless⟩
  · exact Prod.Lex.toLex_lt_toLex.mpr (Or.inl hless)
  · exact Prod.Lex.toLex_lt_toLex.mpr (Or.inr ⟨heq, by rw [hsame]; exact hless⟩)

/-- **A `sto_set` with its lock goes on to its end**, and the plane is stored. -/
theorem Staged.write (staged : Staged allowed start p q a b fleet seen) {nested : Bool}
    {plane : AtcPlane} {fleet' : List AtcPlane} (named : plane.Named)
    (hput : put AtcPlane.id plane fleet = fleet') (hphase : a.phase = .writing nested)
    (hset : a.set = .start plane.bytes plane.bytes) :
    ∃ set, Staged allowed start p q
      { a with phase := if nested then .getLock else .idle, held := none, set := set } b
      fleet' seen := by
  obtain ⟨trace, w, run, scene⟩ := staged
  have hwrites : w.store.control.phase p = .writing nested :=
    (congrArg Station.phase scene.here).trans hphase
  have hstart : w.store.set p = .start plane.bytes plane.bytes :=
    (congrArg Station.set scene.here).trans hset
  obtain ⟨more, u, run', writes, res, hdone⟩ := @exists_wrote _ allowed p w nested hwrites
  have hu : u.store.control.phase p = .writing nested :=
    (congrArg Station.phase writes.here).trans hwrites
  have step : WorkerStep u (p, .call .closeFile) _ :=
    .call (.closeSet (.closeSet hu) hu hdone) (by simp) (by simp) (by simp) (by rw [hu]; simp)
  obtain ⟨file', hstore, holds⟩ := storePlane_holds scene.holds named
  have hfile : u.store.file = file' := by
    have hrest := writes.rest
    rw [hstart, SetRun.rest_start (by decide), SetRun.rest, hdone] at hrest
    rw [storePlane] at hstore
    rw [hstore] at hrest
    exact (Prod.mk.inj hrest).2
  refine ⟨u.store.set p, _, _, (run.append run').append (.cons ⟨step,
    by simp [OneUpgrade, Deed.op], trivial, by simp [Deed.request]⟩ (.nil _)), scene.ne, ?_, ?_,
    fun r hp hq => ?_, ?_, writes.seen.trans scene.seen⟩
  · rw [← scene.here]
    have hhere := writes.here
    simp only [Workers.station, Station.mk.injEq] at hhere
    simp [Workers.station, move_phase_self, move_held_self, hhere]
  · rw [step.station_of_ne scene.ne.symm, writes.others q scene.ne.symm]
    exact scene.there
  · rw [step.station_of_ne hp, writes.others r hp]
    exact scene.others r hp hq
  · dsimp only
    rw [hfile, ← hput]
    exact holds

end Scene

end AirTraffic.Server
