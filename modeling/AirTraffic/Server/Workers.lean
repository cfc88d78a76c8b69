/-
  Server/Workers.lean --- the workers on the planes file, one system call at a time.

  WHAT THIS FILE IS FOR.  In `World.lean` a request is one step.  The workers are
  processes, and what they do to the planes file they do in system calls that come in
  any order: `Storage/Serial.lean` has the calls of `sto_set` and of a scan, and here
  `create_plane`, `set` and `get_airplanes` make them.  A poll reads a row, and if the
  plane came down it calls `sto_set` in the middle of its scan; before the next row
  other workers may have stored anything.

  WHAT HOLDS.  The row that a poll has read stays as it is until the poll has settled
  it or goes on, since the poll keeps its shared lock until then.  So the workers
  play the game of `RowGame.lean`, in which each row is one step (`PlaysRows.step`), and
  what holds there holds of the file and of all responses (`shared_file_airworthy`,
  `spared_row_settles_once`).
-/
import AirTraffic.Storage.Serial
import AirTraffic.Server.RowGame

set_option autoImplicit false

namespace AirTraffic.Server

open AirTraffic.Foundation AirTraffic.Storage AirTraffic.Atcd AirTraffic.Protocol

/-- The locals of a `get_airplanes` on its way, besides its query. -/
structure PollRun where
  now : Int64
  buffer : List AtcPlane
  failed : Bool

/-- The processes on the file, the static variables of each, its poll, and the planes
obtained so far. -/
structure Workers where
  store : Store Nat
  counters : Nat → Counters
  poll : Nat → PollRun
  seen : List (Nat × AtcPlane)

/-- No request has been made yet. -/
def Workers.initial (file : Bytes) : Workers where
  store := .initial file
  counters := fun _ => {}
  poll := fun _ => { now := 0, buffer := [], failed := false }
  seen := []

/-- The planes stored, first to last. -/
def Workers.planes (w : Workers) : List AtcPlane := (rowsOf planesDb w.store.file).map planeOf

/-- Nobody is in the middle of a `sto_set`. -/
def Workers.Quiet (w : Workers) : Prop := ∀ p nested, w.store.control.phase p ≠ .writing nested

/-- The plane that the scan of a worker has read. -/
def Workers.inHand (w : Workers) (p : Nat) : AtcPlane :=
  AtcPlane.ofBytes (w.store.scan p).reader.row

/-- What a worker does next: a request up to its first system call, or the next call. -/
inductive Deed where
  | create (chance : Chance) (now : Int64)
  | command (cmd : AtcCommand) (copy : AtcPlane) (now : Int64)
  | poll (now : Int64)
  /-- `_crashed_or_landed` of the plane that the scan has read -/
  | settle
  /-- The body of the loop is over. -/
  | next
  /-- `sto_get` returns -1. -/
  | fails
  /-- `get_airplanes` returns. -/
  | answer
  | call (op : Op)

/-- The system call. -/
def Deed.op : Deed → Op
  | .create _ _ | .command _ _ _ | .poll _ | .settle => .openFile
  | .next => .nextRow
  | .fails => .readRow
  | .answer => .closeFile
  | .call op => op

/-- The request that makes a client store a plane. -/
def Deed.request : Deed → Option RowEvent
  | .create chance now => some (.create chance now)
  | .command cmd copy now => some (.command cmd copy now)
  | _ => none

/-- A worker calls `sto_set` on a plane, and is behind `sto_query`. -/
structure OpensSet (s : Store Nat) (p : Nat) (nested : Bool) (plane : AtcPlane)
    (t : Store Nat) : Prop where
  step : StoreStep planesDb s (p, .openFile) t
  phase : t.control.phase p = .setLock nested
  set : t.set p = .start plane.bytes plane.bytes

section Workers

variable [Platform]

/-- The body of the loop of `get_airplanes` on the row that the scan has read. -/
def Workers.rowPoll (w : Workers) (p : Nat) : Poll :=
  pollRow (w.poll p).now
    { query := (w.store.scan p).reader.on []
      buffer := (w.poll p).buffer
      counters := w.counters p }

/-- What the workers do.  A request that comes to no system call changes nothing, and
is no step. -/
inductive WorkerStep (w : Workers) : Nat × Deed → Workers → Prop
  | create {p : Nat} {chance : Chance} {now : Int64} {store : Store Nat}
      (room : (w.counters p).planesCount ≠ Int32.ofNat maxPlanes)
      (opens : OpensSet w.store p false (newPlane chance now) store) :
      WorkerStep w (p, .create chance now) { w with store := store }
  | command {p : Nat} {cmd : AtcCommand} {copy stored : AtcPlane} {now : Int64}
      {store : Store Nat} (offers : copy ∈ w.seen.map Prod.snd)
      (h : commanded cmd.code (overWire copy) now = some stored)
      (opens : OpensSet w.store p false stored store) :
      WorkerStep w (p, .command cmd copy now) { w with store := store }
  | poll {p : Nat} {store : Store Nat} (now : Int64)
      (step : StoreStep planesDb w.store (p, .openFile) store)
      (phase : store.control.phase p = .getLock)
      (scan : store.scan p = .start (zeros sizeofPlane)) :
      WorkerStep w (p, .poll now)
        { w with
          store := store
          counters := Function.update w.counters p
            { w.counters p with crashedCount := 0, landedCount := 0 }
          poll := Function.update w.poll p { now := now, buffer := [], failed := false } }
  | settle {p : Nat} {store : Store Nat} (down : ComesDown (w.poll p).now (w.inHand p))
      (opens : OpensSet w.store p true (Atcd.settle (w.inHand p) (w.poll p).now) store) :
      WorkerStep w (p, .settle) { w with store := store }
  | next {p : Nat} {store : Store Nat} (up : ¬ ComesDown (w.poll p).now (w.inHand p))
      (step : StoreStep planesDb w.store (p, .nextRow) store) :
      WorkerStep w (p, .next)
        { w with
          store := store
          counters := Function.update w.counters p (w.rowPoll p).counters
          poll := Function.update w.poll p { w.poll p with buffer := (w.rowPoll p).buffer } }
  | fails {p : Nat} {store : Store Nat} (step : StoreStep planesDb w.store (p, .readRow) store)
      (phase : store.control.phase p = .scanned) :
      WorkerStep w (p, .fails)
        { w with
          store := store
          poll := Function.update w.poll p { w.poll p with failed := true } }
  | answer {p : Nat} {store : Store Nat} (step : StoreStep planesDb w.store (p, .closeFile) store)
      (phase : w.store.control.phase p = .scanned) :
      WorkerStep w (p, .answer)
        { w with
          store := store
          counters := Function.update w.counters p
            (if (w.poll p).failed then (w.counters p).failed
              else { w.counters p with planesCount := Int32.ofNat (w.poll p).buffer.length })
          seen := w.seen ++
            if (w.poll p).failed then []
            else (w.poll p).buffer.map fun plane => (p, overWire plane) }
  | call {p : Nat} {op : Op} {store : Store Nat} (step : StoreStep planesDb w.store (p, op) store)
      (hopen : op ≠ .openFile) (hnext : op ≠ .nextRow)
      (hread : op = .readRow → store.control.phase p ≠ .scanned)
      (hclose : op = .closeFile → w.store.control.phase p ≠ .scanned) :
      WorkerStep w (p, .call op) { w with store := store }

/-! ## What a worker is in the middle of -/

/-- The plane that a request stores. -/
def RowEvent.Gives (g : RowGame) (plane : AtcPlane) : RowEvent → Prop
  | .create chance now => chance.pad.head = 0 ∧ plane = newPlane chance now
  | .command cmd copy now =>
      copy ∈ g.seen.map Prod.snd ∧ commanded cmd.code (overWire copy) now = some plane
  | _ => False

/-- A `sto_set` of a request that is allowed. -/
def StoresFor (allowed : RowEvent → Prop) (g : RowGame) (set : SetRun) : Prop :=
  ∃ plane e, allowed e ∧ e.Gives g plane ∧ set.row = plane.bytes ∧ set.key = plane.bytes

/-- A scan, and its poll in the game of rows. -/
structure Polling (g : RowGame) (p : Nat) (poll : PollRun) (scan : ScanRun) : Prop where
  game : g.polls p = { now := poll.now, buffer := poll.buffer }
  key : scan.reader.key.length = stoKeySize
  row : scan.reader.row.length = sizeofPlane

/-- The row that the scan has read is still stored. -/
structure InHand (g : RowGame) (p : Nat) (poll : PollRun) (scan : ScanRun) : Prop
    extends Polling g p poll scan where
  mem : AtcPlane.ofBytes scan.reader.row ∈ g.planes

/-- A `sto_set` of a plane that a scan has read, and that came down. -/
structure Settling (g : RowGame) (p : Nat) (poll : PollRun) (set : SetRun) (scan : ScanRun) : Prop
    extends InHand g p poll scan where
  down : ComesDown poll.now (AtcPlane.ofBytes scan.reader.row)
  setRow : set.row = (settle (AtcPlane.ofBytes scan.reader.row) poll.now).bytes
  setKey : set.key = (settle (AtcPlane.ofBytes scan.reader.row) poll.now).bytes

/-- What a `sto_set` is for. -/
def Storing (allowed : RowEvent → Prop) (g : RowGame) (p : Nat) (poll : PollRun) (set : SetRun)
    (scan : ScanRun) : Bool → Prop
  | false => StoresFor allowed g set
  | true => Settling g p poll set scan

/-- What a worker is in the middle of. -/
def Doing (allowed : RowEvent → Prop) (g : RowGame) (p : Nat) (poll : PollRun) (set : SetRun)
    (scan : ScanRun) : Storage.Phase → Prop
  | .idle => True
  | .getLock | .getWait | .reading | .atEnd | .scanned => Polling g p poll scan
  | .row => InHand g p poll scan
  | .setLock nested | .setWait nested | .writing nested =>
      Storing allowed g p poll set scan nested

/-- The workers play the game of rows: its planes are in the file that the calls of
`sto_set` have left. -/
structure PlaysRows (allowed : RowEvent → Prop) (start : Bytes) (w : Workers) (g : RowGame) :
    Prop where
  store : ∃ base, w.store.Inv planesDb start base ∧ Holds base g.planes
  seen : w.seen = g.seen
  doing : ∀ p, Doing allowed g p (w.poll p) (w.store.set p) (w.store.scan p)
    (w.store.control.phase p)

section Doing

variable {allowed : RowEvent → Prop} {g g' : RowGame} {p : Nat} {poll : PollRun} {set : SetRun}
  {scan : ScanRun} {phase : Storage.Phase}

theorem StoresFor.mono (h : StoresFor allowed g set) (hseen : ∀ copy ∈ g.seen, copy ∈ g'.seen) :
    StoresFor allowed g' set := by
  obtain ⟨plane, e, hallowed, gives, hset⟩ := h
  refine ⟨plane, e, hallowed, ?_, hset⟩
  cases e with
  | create chance now => exact gives
  | command cmd copy now =>
      obtain ⟨offers, hstored⟩ := gives
      obtain ⟨pair, hpair, rfl⟩ := List.mem_map.mp offers
      exact ⟨List.mem_map_of_mem (hseen pair hpair), hstored⟩
  | poll | settle | take | answer => exact gives.elim

omit [Platform] in
theorem Polling.congr (h : Polling g p poll scan) (hpolls : g'.polls p = g.polls p) :
    Polling g' p poll scan :=
  ⟨hpolls.trans h.game, h.key, h.row⟩

/-- What others do to the game while no row changes. -/
theorem Doing.congr (h : Doing allowed g p poll set scan phase)
    (hpolls : g'.polls p = g.polls p) (hplanes : g'.planes = g.planes)
    (hseen : ∀ copy ∈ g.seen, copy ∈ g'.seen) : Doing allowed g' p poll set scan phase := by
  have hmem : ∀ plane ∈ g.planes, plane ∈ g'.planes := fun plane hplane => hplanes ▸ hplane
  have hstoring : ∀ nested, Storing allowed g p poll set scan nested →
      Storing allowed g' p poll set scan nested := by
    intro nested hstoring
    cases nested with
    | false => exact StoresFor.mono hstoring hseen
    | true =>
        obtain ⟨⟨polling, hin⟩, hdown, hrow, hkey⟩ := hstoring
        exact ⟨⟨polling.congr hpolls, hmem _ hin⟩, hdown, hrow, hkey⟩
  cases phase with
  | idle => trivial
  | getLock | getWait | reading | atEnd | scanned => exact Polling.congr h hpolls
  | row => exact ⟨h.toPolling.congr hpolls, hmem _ h.mem⟩
  | setLock nested | setWait nested | writing nested => exact hstoring nested h

/-- A worker without a lock does not mind if rows change. -/
theorem Doing.unlocked (h : Doing allowed g p poll set scan phase) (agrees : phase.Agrees none)
    (hpolls : g'.polls p = g.polls p) (hseen : ∀ copy ∈ g.seen, copy ∈ g'.seen) :
    Doing allowed g' p poll set scan phase := by
  cases phase with
  | idle => trivial
  | getLock | getWait | scanned => exact Polling.congr h hpolls
  | reading | atEnd | row | writing => exact absurd agrees (by simp [Storage.Phase.Agrees])
  | setLock nested | setWait nested =>
      cases nested with
      | false => exact StoresFor.mono h hseen
      | true => exact absurd agrees (by simp [Storage.Phase.Agrees])

end Doing

/-! ## Reading a row -/

omit [Platform] in
/-- The row that a scan reads is one of the planes. -/
theorem fetch_reads {file : Bytes} {fleet : List AtcPlane} (holds : Holds file fleet)
    {r : Reader} (hkey : r.key.length = stoKeySize) (hrow : r.row.length = sizeofPlane)
    (hzero : (fetch planesDb true file r).1 ≠ 0) :
    AtcPlane.ofBytes (fetch planesDb true file r).2.row ∈ fleet ∧
      (fetch planesDb true file r).2.key.length = stoKeySize ∧
      (fetch planesDb true file r).2.row.length = sizeofPlane := by
  have hn := holds.length_file
  have ready : Ready planesDb true file r.cursor (r.on file) := ⟨rfl, rfl, hkey, fun _ => hrow⟩
  rcases Nat.lt_or_ge r.cursor fleet.length with hlt | hge
  · have hfetch := fetchNextRecord_row hn hlt ready
    have hplane : fleet[r.cursor]? = some (planeOf (rowAt planesDb file r.cursor)) := by
      rw [← holds.lists.planes, List.getElem?_map, getElem?_rowsOf fits_planes hn, if_pos hlt]
      rfl
    rw [fetch, hfetch]
    exact ⟨List.mem_of_getElem? hplane, length_key_rowAt hn hlt, length_data_rowAt hn hlt⟩
  · refine absurd (fetch_behind true ?_) hzero
    calc file.length ≤ fleet.length * planesDb.rowSize := hn ▸ fileLength_le fits_planes _
      _ ≤ r.cursor * planesDb.rowSize := Nat.mul_le_mul_right _ hge

/-! ## System calls -/

section Calls

variable {allowed : RowEvent → Prop} {start base : Bytes} {s t : Store Nat} {g g' : RowGame}
  {p : Nat} {op : Op} {poll : PollRun}

/-- A worker that asks for a lock goes on with the same. -/
theorem Doing.lock {set : SetRun} {scan : ScanRun} {before wait after : Storage.Phase}
    {mode : LockMode} (call : LockCall before mode wait after)
    (h : Doing allowed g p poll set scan before ∨ Doing allowed g p poll set scan wait) :
    Doing allowed g p poll set scan wait ∧ Doing allowed g p poll set scan after := by
  cases call with
  | get => exact ⟨h.elim id id, h.elim id id⟩
  | set nested => exact ⟨h.elim id id, h.elim id id⟩

omit [Platform] in
theorem reading_of_readRow {s c : Storage.Processes Nat} (control : LockStep s (p, .readRow) c) :
    s.phase p = .reading := by
  cases control <;> assumption

omit [Platform] in
theorem writing_of_closeFile {s c : Storage.Processes Nat}
    (control : LockStep s (p, .closeFile) c) (h : s.phase p ≠ .scanned) :
    ∃ nested, s.phase p = .writing nested := by
  cases control with
  | closeSet hwrites => exact ⟨_, hwrites⟩
  | closeScan hscanned => exact absurd hscanned h

/-- A system call inside of `sto_set` or `sto_get`. -/
theorem Doing.call (inv : s.Inv planesDb start base) (holds : Holds base g.planes)
    (step : StoreStep planesDb s (p, op) t) (hopen : op ≠ .openFile) (hnext : op ≠ .nextRow)
    (hread : op = .readRow → t.control.phase p ≠ .scanned) (hclose : op ≠ .closeFile)
    (h : Doing allowed g p poll (s.set p) (s.scan p) (s.control.phase p)) :
    Doing allowed g p poll (t.set p) (t.scan p) (t.control.phase p) := by
  cases step with
  | openScan | openSet => exact absurd rfl hopen
  | next => exact absurd rfl hnext
  | closeSet | closeScan => exact absurd rfl hclose
  | lock control =>
      obtain ⟨before, mode, wait, after, call, hphase, hcases⟩ := control.lock_cases
      rw [hphase] at h
      obtain ⟨hwait, hafter⟩ := Doing.lock call (Or.inl h)
      rcases hcases with ⟨_, rfl⟩ | ⟨_, rfl⟩ | ⟨_, rfl⟩
      · exact (move_phase_self (s := s.control)).symm ▸ hafter
      · exact (move_phase_self (s := s.control)).symm ▸ hafter
      · exact (move_phase_self (s := s.control)).symm ▸ hwait
  | wake control =>
      obtain ⟨before, mode, wait, after, call, hphase, _, rfl⟩ := control.wake_cases
      rw [hphase] at h
      exact (move_phase_self (s := s.control)).symm ▸ (Doing.lock call (Or.inr h)).2
  | @readRow _ c control phase hzero hfail =>
      have hreads := reading_of_readRow control
      rw [hreads] at h
      rw [inv.file_of_reading hreads] at hzero ⊢
      obtain ⟨hmem, hkey, hrow⟩ := fetch_reads holds h.key h.row hzero
      dsimp only
      rw [phase, Function.update_self]
      exact ⟨⟨h.game, hkey, hrow⟩, hmem⟩
  | @readEnd _ c control phase hzero =>
      rw [reading_of_readRow control] at h
      dsimp only
      rw [phase]
      exact h
  | readFails control phase hfail => exact absurd phase (hread rfl)
  | @unlock _ c control =>
      have hend : s.control.phase p = .atEnd ∧ c.phase p = .scanned := by
        cases control with
        | unlock h => exact ⟨h, move_phase_self⟩
      rw [hend.1] at h
      dsimp only
      rw [hend.2]
      exact h
  | @access _ c control more =>
      obtain ⟨nested, hphase, hsame⟩ : ∃ nested,
          s.control.phase p = .writing nested ∧ c.phase p = .writing nested := by
        cases control with
        | access h => exact ⟨_, h, move_phase_self⟩
      rw [hphase] at h
      dsimp only
      rw [hsame, Function.update_self]
      cases nested with
      | false =>
          obtain ⟨plane, e, hallowed, gives, hrow, hkey⟩ := h
          exact ⟨plane, e, hallowed, gives, by rw [SetRun.row_access, hrow],
            by rw [SetRun.key_access, hkey]⟩
      | true =>
          obtain ⟨hand, hdown, hrow, hkey⟩ := h
          exact ⟨hand, hdown, by rw [SetRun.row_access, hrow], by rw [SetRun.key_access, hkey]⟩

end Calls

section PlaysRows

variable {allowed : RowEvent → Prop} {start : Bytes} {w w' : Workers} {g g' : RowGame}
  {p : Nat} {op : Op}

/-- A system call that ends no `sto_set` changes no row. -/
theorem PlaysRows.quiet (plays : PlaysRows allowed start w g)
    (step : StoreStep planesDb w.store (p, op) w'.store)
    (guard : OneUpgrade w.store.control (p, op))
    (hquiet : op = .closeFile → ∀ nested, w.store.control.phase p ≠ .writing nested)
    (hpoll : ∀ q, q ≠ p → w'.poll q = w.poll q) (hpolls : ∀ q, q ≠ p → g'.polls q = g.polls q)
    (hplanes : g'.planes = g.planes) (hseen : w'.seen = g'.seen)
    (hmono : ∀ copy ∈ g.seen, copy ∈ g'.seen)
    (doing : Doing allowed g' p (w'.poll p) (w'.store.set p) (w'.store.scan p)
      (w'.store.control.phase p)) : PlaysRows allowed start w' g' where
  store := by
    obtain ⟨base, inv, holds⟩ := plays.store
    have hinv := inv.step (by decide) step guard
    rw [Store.baseAfter_of_not_writing hquiet] at hinv
    exact ⟨base, hinv, hplanes ▸ holds⟩
  seen := hseen
  doing := by
    intro q
    by_cases hq : q = p
    · rw [hq]
      exact doing
    · obtain ⟨hphase, hset, hscan⟩ := step.others hq
      rw [hpoll q hq, hset, hscan, hphase]
      exact (plays.doing q).congr (hpolls q hq) hplanes hmono

/-- The end of a `sto_set` puts its plane into the game. -/
theorem PlaysRows.closeSet (plays : PlaysRows allowed start w g) {nested : Bool} {plane : AtcPlane}
    {store : Store Nat} (step : StoreStep planesDb w.store (p, .closeFile) store)
    (phase : w.store.control.phase p = .writing nested)
    (hrow : (w.store.set p).row = plane.bytes) (hkey : (w.store.set p).key = plane.bytes)
    (named : plane.Named)
    (polling : nested = true → Polling g p (w.poll p) (w.store.scan p)) :
    PlaysRows allowed start { w with store := store }
      { g with planes := put AtcPlane.id plane g.planes } where
  store := by
    obtain ⟨base, inv, holds⟩ := plays.store
    have hinv := inv.step (by decide) step fun hlock => absurd hlock (by simp)
    obtain ⟨file', hstore, holds'⟩ := storePlane_holds holds named
    rw [Store.baseAfter_closeSet phase, hrow, hkey] at hinv
    rw [storePlane] at hstore
    rw [hstore] at hinv
    exact ⟨file', hinv, holds'⟩
  seen := plays.seen
  doing := by
    obtain ⟨base, inv, _⟩ := plays.store
    intro q
    by_cases hq : q = p
    · have hnext : store.control.phase p = (if nested then .getLock else .idle) ∧
          (store.scan p).reader = (w.store.scan p).reader := by
        cases step with
        | closeSet control phase' done =>
            refine ⟨?_, by dsimp only; rw [Function.update_self]⟩
            cases control with
            | closeSet h =>
                obtain rfl : nested = _ := Storage.Phase.writing.inj (phase.symm.trans h)
                exact move_phase_self
            | closeScan h => exact absurd (phase.symm.trans h) (by simp)
        | closeScan control phase' => exact absurd (phase.symm.trans phase') (by simp)
      obtain ⟨hphase, hreader⟩ := hnext
      rw [hq]
      dsimp only
      rw [hphase]
      cases nested with
      | false => trivial
      | true =>
          obtain ⟨hgame, hkeyLen, hrowLen⟩ := polling rfl
          exact ⟨hgame, by rw [hreader, hkeyLen], by rw [hreader, hrowLen]⟩
    · obtain ⟨hphase, hset, hscan⟩ := step.others hq
      have hnone := inv.control.sound p q (Ne.symm hq) (inv.excludes p nested phase).1
      have hagrees := inv.control.agrees q
      rw [hnone] at hagrees
      dsimp only
      rw [hset, hscan, hphase]
      exact (plays.doing q).unlocked hagrees rfl fun _ h => h

/-- What a request stores is a step on a row. -/
theorem RowEvent.Gives.step {plane : AtcPlane} {e : RowEvent} (inv : g.Inv)
    (gives : e.Gives g plane) :
    plane.Named ∧ RowStep g e { g with planes := put AtcPlane.id plane g.planes } := by
  cases e with
  | create chance now =>
      obtain ⟨hpad, rfl⟩ := gives
      exact ⟨named_newPlane hpad now, .create now hpad⟩
  | command cmd copy now =>
      obtain ⟨offers, h⟩ := gives
      obtain ⟨pair, hpair, rfl⟩ := List.mem_map.mp offers
      exact ⟨(inFile_commanded (inv.seen pair hpair) h).named, .command offers h⟩
  | poll | settle | take | answer => exact gives.elim

/-- What the body of the loop leaves of a row that did not come down. -/
theorem rowPoll_buffer (hrow : (w.store.scan p).reader.row.length = sizeofPlane)
    (hup : ¬ ComesDown (w.poll p).now (w.inHand p)) :
    (w.rowPoll p).buffer =
      if StaysUp (w.poll p).now (w.inHand p) ∧ (w.poll p).buffer.length < maxPlanes then
        (w.poll p).buffer ++ [advance (w.inHand p) (w.poll p).now]
      else (w.poll p).buffer := by
  obtain ⟨row, _, h⟩ := @pollRow_eq _ (w.poll p).now
    { query := (w.store.scan p).reader.on []
      buffer := (w.poll p).buffer
      counters := w.counters p }
    (w.inHand p) [] rfl rfl hrow [] (fun hdown => absurd hdown hup) fun _ => rfl
  rw [Workers.rowPoll, h]

end PlaysRows

/-! ## The steps -/

/-- The padding of a new plane does not run on behind its id. -/
def Deed.PadsClean : Deed → Prop
  | .create chance _ => chance.pad.head = 0
  | _ => True

/-- The steps in which no scan asks for the exclusive lock while another one waits for
it, the padding of new planes is zero, and the requests are allowed. -/
def SharedStep (allowed : RowEvent → Prop) : Workers → Nat × Deed → Workers → Prop :=
  Guarded WorkerStep fun w event =>
    OneUpgrade w.store.control (event.1, event.2.op) ∧ event.2.PadsClean ∧
      ∀ request, event.2.request = some request → allowed request

section Step

variable {allowed : RowEvent → Prop} {start : Bytes} {w w' : Workers} {g : RowGame}
  {p : Nat} {event : Nat × Deed}

/-- The steps on rows that allowed requests make. -/
def AllowedRowStep (allowed : RowEvent → Prop) : RowGame → RowEvent → RowGame → Prop :=
  Guarded RowStep fun _ e => e.FromClient → allowed e

theorem RowStep.inner {g' : RowGame} {e : RowEvent} (step : RowStep g e g')
    (allowed : RowEvent → Prop) (h : ¬ e.FromClient) : AllowedRowStep allowed g e g' :=
  ⟨step, fun hclient => absurd hclient h⟩

/-- What a step of the workers is in the game of rows: one of its steps, or nothing. -/
def Matched (allowed : RowEvent → Prop) (start : Bytes) (w' : Workers) (g : RowGame) : Prop :=
  ∃ g', PlaysRows allowed start w' g' ∧ (g' = g ∨ ∃ e, AllowedRowStep allowed g e g')

theorem Matched.of_step {g' : RowGame} {e : RowEvent} (step : AllowedRowStep allowed g e g')
    (plays : PlaysRows allowed start w' g') : Matched allowed start w' g :=
  ⟨g', plays, Or.inr ⟨e, step⟩⟩

theorem Matched.of_quiet (plays : PlaysRows allowed start w' g) : Matched allowed start w' g :=
  ⟨g, plays, Or.inl rfl⟩

/-- A request that stores a plane, up to `sto_query`. -/
theorem PlaysRows.request (plays : PlaysRows allowed start w g) {store : Store Nat}
    {plane : AtcPlane} {e : RowEvent} (opens : OpensSet w.store p false plane store)
    (hallowed : allowed e) (gives : e.Gives g plane) :
    Matched allowed start { w with store := store } g := by
  refine .of_quiet (plays.quiet opens.step (fun h => absurd h (by simp))
    (fun h => absurd h (by simp)) (fun _ _ => rfl) (fun _ _ => rfl) rfl plays.seen
    (fun _ h => h) ?_)
  dsimp only
  rw [opens.phase, opens.set]
  exact ⟨plane, e, hallowed, gives, rfl, rfl⟩

/-- `sto_query` of a poll. -/
theorem PlaysRows.poll (plays : PlaysRows allowed start w g) {store : Store Nat} (now : Int64)
    (step : StoreStep planesDb w.store (p, .openFile) store)
    (phase : store.control.phase p = .getLock)
    (scan : store.scan p = .start (zeros sizeofPlane)) (counters : Nat → Counters) :
    Matched allowed start
      { w with
        store := store
        counters := counters
        poll := Function.update w.poll p { now := now, buffer := [], failed := false } } g := by
  have hpoll := (RowStep.poll g p now).inner allowed id
  refine .of_step hpoll (plays.quiet step (fun h => absurd h (by simp))
    (fun h => absurd h (by simp)) (fun q hq => Function.update_of_ne hq _ _)
    (fun q hq => Function.update_of_ne hq _ _) rfl plays.seen (fun _ h => h) ?_)
  dsimp only
  rw [phase, scan, Function.update_self]
  exact ⟨Function.update_self _ _ _, length_zeros _, length_zeros _⟩

/-- `sto_query` of the `sto_set` in the middle of a scan. -/
theorem PlaysRows.settle (plays : PlaysRows allowed start w g) {store : Store Nat}
    (down : ComesDown (w.poll p).now (w.inHand p))
    (opens : OpensSet w.store p true (Atcd.settle (w.inHand p) (w.poll p).now) store) :
    Matched allowed start { w with store := store } g := by
  refine .of_quiet (plays.quiet opens.step (fun h => absurd h (by simp))
    (fun h => absurd h (by simp)) (fun _ _ => rfl) (fun _ _ => rfl) rfl plays.seen
    (fun _ h => h) ?_)
  have hrow : w.store.control.phase p = .row ∧ store.scan p = w.store.scan p := by
    obtain ⟨step, phase, _⟩ := opens
    cases step with
    | openScan buffer control hget => exact absurd (hget.symm.trans phase) (by simp)
    | openSet row key control hset =>
        refine ⟨?_, rfl⟩
        cases control with
        | openScan h => exact absurd (move_phase_self.symm.trans hset) (by simp)
        | openSet h => exact absurd (move_phase_self.symm.trans phase) (by simp)
        | openNested h => exact h
  have hand := plays.doing p
  rw [hrow.1] at hand
  dsimp only
  rw [opens.phase, opens.set, hrow.2]
  exact ⟨hand, down, rfl, rfl⟩

/-- The next row of a scan. -/
theorem PlaysRows.next (plays : PlaysRows allowed start w g) {store : Store Nat}
    (up : ¬ ComesDown (w.poll p).now (w.inHand p))
    (step : StoreStep planesDb w.store (p, .nextRow) store) (counters : Nat → Counters) :
    Matched allowed start
      { w with
        store := store
        counters := counters
        poll := Function.update w.poll p { w.poll p with buffer := (w.rowPoll p).buffer } } g := by
  obtain ⟨hphase, hget, hscan⟩ : w.store.control.phase p = .row ∧
      store.control.phase p = .getLock ∧ store.scan p = w.store.scan p := by
    cases step with
    | next control =>
        cases control with
        | next h => exact ⟨h, move_phase_self, rfl⟩
  have hand := plays.doing p
  rw [hphase] at hand
  have hbuffer := rowPoll_buffer hand.row up
  have hgame := hand.game
  have hquiet := fun (g' : RowGame) (hpolls : ∀ q, q ≠ p → g'.polls q = g.polls q)
      (hplanes : g'.planes = g.planes) (hseen : g'.seen = g.seen)
      (hown : g'.polls p = { now := (w.poll p).now, buffer := (w.rowPoll p).buffer }) =>
    @PlaysRows.quiet _ allowed start w
      { w with
        store := store
        counters := counters
        poll := Function.update w.poll p { w.poll p with buffer := (w.rowPoll p).buffer } }
      g g' p .nextRow plays step (fun h => absurd h (by simp)) (fun h => absurd h (by simp))
      (fun q hq => Function.update_of_ne hq _ _) hpolls hplanes (plays.seen.trans hseen.symm)
      (fun _ h => hseen ▸ h) (by
        dsimp only
        rw [hget, hscan, Function.update_self]
        exact ⟨hown, hand.key, hand.row⟩)
  split at hbuffer
  · rename_i hstays
    have htake : RowStep g (.take p (w.inHand p)) _ :=
      .take hand.mem (by rw [hgame]; exact hstays.1) (by rw [hgame]; exact hstays.2)
    refine .of_step (htake.inner allowed id)
      (hquiet _ (fun q hq => Function.update_of_ne hq _ _) rfl rfl ?_)
    dsimp only
    rw [Function.update_self, hgame, hbuffer]
  · exact .of_quiet (hquiet g (fun _ _ => rfl) rfl rfl (by rw [hgame, hbuffer]))

/-- `get_airplanes` returns. -/
theorem PlaysRows.answer (plays : PlaysRows allowed start w g) {store : Store Nat}
    (step : StoreStep planesDb w.store (p, .closeFile) store)
    (phase : w.store.control.phase p = .scanned) (counters : Nat → Counters) :
    Matched allowed start
      { w with
        store := store
        counters := counters
        seen := w.seen ++
          if (w.poll p).failed then []
          else (w.poll p).buffer.map fun plane => (p, overWire plane) } g := by
  have hidle : store.control.phase p = .idle := by
    cases step with
    | closeSet control hwrites done => exact absurd (phase.symm.trans hwrites) (by simp)
    | closeScan control hscanned =>
        cases control with
        | closeSet h => exact absurd (phase.symm.trans h) (by simp)
        | closeScan h => exact move_phase_self
  have polling := plays.doing p
  rw [phase] at polling
  have hbuffer : (g.polls p).buffer = (w.poll p).buffer := by rw [polling.game]
  have hquiet := fun (g' : RowGame) (hpolls : g'.polls = g.polls)
      (hplanes : g'.planes = g.planes) (hseen : _ = g'.seen)
      (hmono : ∀ copy ∈ g.seen, copy ∈ g'.seen) =>
    @PlaysRows.quiet _ allowed start w
      { w with
        store := store
        counters := counters
        seen := w.seen ++
          if (w.poll p).failed then []
          else (w.poll p).buffer.map fun plane => (p, overWire plane) }
      g g' p .closeFile plays step (fun h => absurd h (by simp))
      (fun _ nested hw => absurd (phase.symm.trans hw) (by simp))
      (fun _ _ => rfl) (fun _ _ => by rw [hpolls]) hplanes hseen hmono (by
        dsimp only
        rw [hidle]
        trivial)
  cases hfailed : (w.poll p).failed with
  | true =>
      rw [hfailed] at hquiet
      refine .of_quiet (hquiet g rfl rfl ?_ fun _ h => h)
      rw [plays.seen]
      exact List.append_nil _
  | false =>
      rw [hfailed] at hquiet
      have hanswer := (RowStep.answer g p).inner allowed id
      refine .of_step hanswer (hquiet _ rfl rfl ?_ fun _ h => List.mem_append_left _ h)
      rw [plays.seen, hbuffer]
      rfl

/-- The end of a `sto_set`. -/
theorem PlaysRows.closes (plays : PlaysRows allowed start w g) (inv : g.Inv) {store : Store Nat}
    (step : StoreStep planesDb w.store (p, .closeFile) store)
    (hclose : w.store.control.phase p ≠ .scanned) :
    Matched allowed start { w with store := store } g := by
  obtain ⟨nested, hphase⟩ := writing_of_closeFile step.control hclose
  have doing := plays.doing p
  rw [hphase] at doing
  cases nested with
  | false =>
      obtain ⟨plane, e, hallowed, gives, hrow, hkey⟩ := doing
      obtain ⟨named, hstep⟩ := gives.step inv
      exact .of_step ⟨hstep, fun _ => hallowed⟩
        (plays.closeSet step hphase hrow hkey named fun h => absurd h (by simp))
  | true =>
      have named := (inv.planes _ doing.mem).named
      have hstep : RowStep g (.settle p (w.inHand p)) _ :=
        .settle doing.mem (by rw [doing.game]; exact doing.down)
      rw [doing.game] at hstep
      exact .of_step (hstep.inner allowed id)
        (plays.closeSet step hphase doing.setRow doing.setKey (named.congr rfl rfl)
          fun _ => doing.toPolling)

/-- **The workers play the game of rows**: what a system call does is one step there,
or nothing. -/
theorem PlaysRows.step (plays : PlaysRows allowed start w g) (inv : g.Inv)
    (step : SharedStep allowed w event w') : Matched allowed start w' g := by
  obtain ⟨step, guard, hpads, hallowed⟩ := step
  cases step with
  | create room opens => exact plays.request opens (hallowed _ rfl) ⟨hpads, rfl⟩
  | command offers h opens =>
      exact plays.request opens (hallowed _ rfl) ⟨plays.seen ▸ offers, h⟩
  | poll now step phase scan => exact plays.poll now step phase scan _
  | settle down opens => exact plays.settle down opens
  | next up step => exact plays.next up step _
  | @fails p store step phase =>
      have polling := plays.doing p
      rw [reading_of_readRow step.control] at polling
      refine .of_quiet (plays.quiet step guard (fun h => absurd h (by simp))
        (fun q hq => Function.update_of_ne hq _ _) (fun _ _ => rfl) rfl plays.seen
        (fun _ h => h) ?_)
      have hscan : store.scan p = w.store.scan p := by
        cases step with
        | readRow control hrow hzero hfail => exact absurd (hrow.symm.trans phase) (by simp)
        | readEnd control hend hzero => rfl
        | readFails control hphase hfail => rfl
      dsimp only
      rw [phase, hscan, Function.update_self]
      exact ⟨polling.game, polling.key, polling.row⟩
  | answer step phase => exact plays.answer step phase _
  | @call p op store step hopen hnext hread hclose =>
      by_cases hop : op = .closeFile
      · subst hop
        exact plays.closes inv step (hclose rfl)
      · obtain ⟨base, hinv, holds⟩ := plays.store
        exact .of_quiet (plays.quiet step guard (fun h => absurd h hop) (fun _ _ => rfl)
          (fun _ _ => rfl) rfl plays.seen (fun _ h => h)
          (Doing.call hinv holds step hopen hnext hread hop (plays.doing p)))

end Step

end Workers

end AirTraffic.Server
