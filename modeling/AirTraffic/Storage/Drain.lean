/-
  Storage/Drain.lean --- the calls of the store can all be finished.

  WHAT THIS FILE IS FOR.  A scan waits for the shared lock, `sto_set` for the
  exclusive one, and a scan that stores a plane waits for the second while it holds
  the first.  `store_drains`: wherever the processes are, those that are in a call
  can go on to its end, and give up all locks, without any new call.  Some process
  is never kept waiting, since a wait that would close a cycle is refused
  (`Acyclic.exists_unblocked`), and its next step leaves less to do.
-/
import AirTraffic.Foundation.LockWaits
import AirTraffic.Storage.Serial
import Mathlib.Algebra.Order.BigOperators.Group.Finset
import Mathlib.Data.Fintype.EquivFin
import Mathlib.Data.Prod.Lex

set_option autoImplicit false

namespace AirTraffic.Storage

open AirTraffic.Foundation

/-! ## What is left to do -/

/-- The steps of a `sto_set` behind its search. -/
def SetStage.left : SetStage → Nat
  | .search _ => 4
  | .writeKey _ => 3
  | .writeRow _ => 2
  | .wrote _ => 1

/-- The bytes of the file that a reader has not seen. -/
def Reader.unseen (db : StoDatabase) (file : Bytes) (r : Reader) : Nat :=
  (r.on file).remaining db

/-- The rounds of a search. -/
def SetStage.unseen (db : StoDatabase) (file : Bytes) : SetStage → Nat
  | .search r => r.unseen db file
  | _ => 0

/-- What is left of a `sto_set`. -/
def SetRun.left (set : SetRun) : Phase → Nat
  | .setLock _ | .setWait _ => 5
  | .writing _ => set.stage.left
  | _ => 0

/-- What is left of a scan, and of the search of a `sto_set`. -/
def ScanRun.left (db : StoDatabase) (file : Bytes) (set : SetRun) (scan : ScanRun) : Phase → Nat
  | .idle => 0
  | .scanned => 1
  | .atEnd => 2
  | .reading => 4 * scan.reader.unseen db file + 3
  | .getWait => 4 * scan.reader.unseen db file + 4
  | .getLock => 4 * scan.reader.unseen db file + 5
  | .row => 4 * scan.reader.unseen db file + 6
  | .writing _ => set.stage.unseen db file
  | .setWait _ => set.stage.unseen db file + 1
  | .setLock _ => set.stage.unseen db file + 2

/-- A row that was found has been seen. -/
theorem unseen_fetch {db : StoDatabase} (hrow : 0 < db.rowSize) {wantRow : Bool} {file : Bytes}
    {r : Reader} (hzero : (fetch db wantRow file r).1 ≠ 0)
    (hfail : (fetch db wantRow file r).1 ≠ -1) :
    (fetch db wantRow file r).2.unseen db file < r.unseen db file := by
  have hlt := remaining_fetchNextRecord_lt hrow wantRow (r.on file)
  rw [fetchNextRecord_on] at hlt
  exact hlt hzero hfail

/-- An access of `sto_set` leaves less of it. -/
theorem left_access {db : StoDatabase} (hrow : 0 < db.rowSize) (set : SetRun) (file : Bytes)
    (more : ∀ res, set.stage ≠ .wrote res) :
    (set.access db file).1.stage.left < set.stage.left ∨
      (set.access db file).2 = file ∧ (set.access db file).1.stage.left = set.stage.left ∧
        (set.access db file).1.stage.unseen db file < set.stage.unseen db file := by
  have hfound : ∀ r, (SetRun.found r).left < 4 := by
    intro r
    unfold SetRun.found
    split <;> simp [SetStage.left]
  cases hstage : set.stage with
  | search r =>
      simp only [SetRun.access, hstage]
      split
      · exact Or.inl (hfound _)
      · rename_i hzero
        split
        · exact Or.inl (by simp [SetStage.left])
        · rename_i hfail
          split
          · exact Or.inl (hfound _)
          · exact Or.inr ⟨trivial, rfl, unseen_fetch hrow hzero hfail⟩
  | writeKey pos => exact Or.inl (by simp [SetRun.access, hstage, SetStage.left])
  | writeRow pos => exact Or.inl (by simp [SetRun.access, hstage, SetStage.left])
  | wrote res => exact absurd hstage (more res)

variable {Pid : Type} [DecidableEq Pid]

section Measure

variable [Fintype Pid]

/-- What is left of all calls.  A write can make the scans longer, but it leaves less
of the `sto_set` that does it. -/
def Store.left (db : StoDatabase) (s : Store Pid) : ℕ ×ₗ ℕ :=
  toLex (∑ p, (s.set p).left (s.control.phase p),
    ∑ p, (s.scan p).left db s.file (s.set p) (s.control.phase p))

omit [DecidableEq Pid] in
/-- A step that leaves less of its own process leaves less of all. -/
theorem Store.left_lt {db : StoDatabase} {s t : Store Pid} {p : Pid}
    (hothers : ∀ q, q ≠ p → t.control.phase q = s.control.phase q ∧ t.set q = s.set q ∧
      t.scan q = s.scan q)
    (hless : (t.set p).left (t.control.phase p) < (s.set p).left (s.control.phase p) ∨
      t.file = s.file ∧ (t.set p).left (t.control.phase p) = (s.set p).left (s.control.phase p) ∧
        (t.scan p).left db s.file (t.set p) (t.control.phase p) <
          (s.scan p).left db s.file (s.set p) (s.control.phase p)) :
    t.left db < s.left db := by
  have hset : ∀ q, q ≠ p → (t.set q).left (t.control.phase q) =
      (s.set q).left (s.control.phase q) := by
    intro q hq
    obtain ⟨hphase, hset, _⟩ := hothers q hq
    rw [hphase, hset]
  rcases hless with hless | ⟨hfile, hsame, hless⟩
  · refine Prod.Lex.toLex_lt_toLex.mpr (Or.inl ?_)
    refine Finset.sum_lt_sum (fun q _ => ?_) ⟨p, Finset.mem_univ p, hless⟩
    by_cases hq : q = p
    · rw [hq]
      exact hless.le
    · exact (hset q hq).le
  · refine Prod.Lex.toLex_lt_toLex.mpr (Or.inr ⟨?_, ?_⟩)
    · refine Finset.sum_congr rfl fun q _ => ?_
      by_cases hq : q = p
      · rw [hq]
        exact hsame
      · exact hset q hq
    · rw [hfile]
      refine Finset.sum_lt_sum (fun q _ => ?_) ⟨p, Finset.mem_univ p, hless⟩
      by_cases hq : q = p
      · rw [hq]
        exact hless.le
      · obtain ⟨hphase, hsetq, hscan⟩ := hothers q hq
        rw [hphase, hsetq, hscan]

end Measure

section Step

variable {db : StoDatabase} {s t : Store Pid} {p : Pid} {op : Op}

/-! ## The store and its locks -/

/-- A process that does not wait after its step closes no cycle. -/
theorem acyclic_move {s : Processes Pid} {phase : Phase} {lock : Option LockMode}
    (h : Acyclic s.held s.request) (hphase : phase.request = none) :
    Acyclic (s.move p phase lock).held (s.move p phase lock).request := by
  refine @Acyclic.of_not_waiting _ _ _ _ _ p h ?_ ?_
  · rw [Processes.request, move_phase_self]
    exact hphase
  · rintro q r hq hr ⟨mode, hmode, hne, other, hother, hconflict⟩
    rw [Processes.request, move_phase_of_ne hq] at hmode
    rw [move_held_of_ne hr] at hother
    exact ⟨mode, hmode, hne, other, hother, hconflict⟩

theorem LockCall.request_after {before wait after : Phase} {mode : LockMode}
    (call : LockCall before mode wait after) : after.request = none := by
  cases call <;> rfl

theorem LockCall.request_wait {before wait after : Phase} {mode : LockMode}
    (call : LockCall before mode wait after) : wait.request = some mode := by
  cases call <;> rfl

/-- The processes never wait in a circle. -/
theorem LockStep.acyclic {s t : Processes Pid} {event : Pid × Op} (step : LockStep s event t)
    (h : Acyclic s.held s.request) : Acyclic t.held t.request := by
  cases step with
  | granted _ call _ | woken _ call _ | refused _ call _ => exact acyclic_move h call.request_after
  | @blocked p before wait after mode hphase call hbusy hlive =>
      have hrequest : (s.move p wait (s.held p)).request =
          Function.update s.request p (some mode) := by
        funext q
        by_cases hq : q = p
        · rw [hq, Function.update_self, Processes.request, move_phase_self]
          exact call.request_wait
        · rw [Function.update_of_ne hq, Processes.request, move_phase_of_ne hq]
          rfl
      rw [move_held, hrequest]
      exact h.wait hlive
  | @closeSet p nested hphase =>
      refine acyclic_move h ?_
      cases nested <;> rfl
  | openScan | openSet | openNested | readRow | readEnd | readFails | unlock | next | access
  | closeScan => exact acyclic_move h rfl

/-! ## A step that leaves less -/

section Progress

variable [Fintype Pid]

omit [Fintype Pid] in
/-- A call for a lock, whatever comes of it. -/
theorem exists_lockStep {s : Processes Pid} {before wait after : Phase} {mode : LockMode}
    (call : LockCall before mode wait after) (h : s.phase p = before) :
    ∃ c, LockStep s (p, .lockFile) c ∧ (c.phase p = after ∨ c.phase p = wait) := by
  by_cases hfree : Free s.held p mode
  · exact ⟨_, .granted h call hfree, Or.inl move_phase_self⟩
  · by_cases hdead : WouldDeadlock s.held s.request p mode
    · exact ⟨_, .refused h call hdead, Or.inl move_phase_self⟩
    · exact ⟨_, .blocked h call hfree hdead, Or.inr move_phase_self⟩

/-- A process in the middle of a scan goes on. -/
theorem exists_read (hrow : 0 < db.rowSize) (h : s.control.phase p = .reading) :
    ∃ t, StoreStep db s (p, .readRow) t ∧ t.left db < s.left db := by
  by_cases hzero : (fetch db true s.file (s.scan p).reader).1 = 0
  · have step := StoreStep.readEnd (.readEnd h) move_phase_self hzero
    refine ⟨_, step, Store.left_lt (fun _ hq => step.others hq) (Or.inr ?_)⟩
    simp only [move_phase_self, h, SetRun.left, ScanRun.left, true_and]
    omega
  · by_cases hfail : (fetch db true s.file (s.scan p).reader).1 = -1
    · have step := StoreStep.readFails (.readFails h) move_phase_self hfail
      refine ⟨_, step, Store.left_lt (fun _ hq => step.others hq) (Or.inr ?_)⟩
      simp only [move_phase_self, h, SetRun.left, ScanRun.left, true_and]
      omega
    · have step := StoreStep.readRow (.readRow h) move_phase_self hzero hfail
      refine ⟨_, step, Store.left_lt (fun _ hq => step.others hq) (Or.inr ?_)⟩
      have hseen := unseen_fetch hrow hzero hfail
      simp only [move_phase_self, Function.update_self, h, SetRun.left, ScanRun.left,
        ScanRun.took, true_and]
      omega

/-- A process that scans and writes goes on. -/
theorem exists_write (hrow : 0 < db.rowSize) {nested : Bool}
    (h : s.control.phase p = .writing nested) :
    ∃ op t, StoreStep db s (p, op) t ∧ op ≠ .openFile ∧ t.left db < s.left db := by
  by_cases hdone : ∃ res, (s.set p).stage = .wrote res
  · obtain ⟨res, hdone⟩ := hdone
    have step := @StoreStep.closeSet _ _ db _ _ _ _ _ (.closeSet h) h hdone
    refine ⟨_, _, step, by simp, Store.left_lt (fun _ hq => step.others hq) (Or.inl ?_)⟩
    simp only [move_phase_self, h, SetRun.left, hdone, SetStage.left]
    cases nested <;> simp
  · have more : ∀ res, (s.set p).stage ≠ .wrote res := fun res hres => hdone ⟨res, hres⟩
    have step := @StoreStep.access _ _ db _ _ _ (.access h) more
    refine ⟨_, _, step, by simp, Store.left_lt (fun _ hq => step.others hq) ?_⟩
    simp only [move_phase_self, Function.update_self, h, SetRun.left, ScanRun.left]
    exact left_access hrow (s.set p) s.file more

/-- A process in a call that nothing stands in the way of goes on. -/
theorem exists_next (hrow : 0 < db.rowSize) (hbusy : s.control.phase p ≠ .idle)
    (hfree : ∀ mode, s.control.request p = some mode → Free s.control.held p mode) :
    ∃ op t, StoreStep db s (p, op) t ∧ op ≠ .openFile ∧ t.left db < s.left db := by
  cases h : s.control.phase p with
  | idle => exact absurd h hbusy
  | getLock =>
      obtain ⟨c, control, hphase⟩ := exists_lockStep .get h
      have step := @StoreStep.lock _ _ db _ _ _ control
      refine ⟨_, _, step, by simp, Store.left_lt (fun _ hq => step.others hq) (Or.inr ?_)⟩
      rcases hphase with hphase | hphase <;>
        simp only [hphase, h, SetRun.left, ScanRun.left, true_and] <;> omega
  | setLock nested =>
      obtain ⟨c, control, hphase⟩ := exists_lockStep (.set nested) h
      have step := @StoreStep.lock _ _ db _ _ _ control
      refine ⟨_, _, step, by simp, Store.left_lt (fun _ hq => step.others hq) ?_⟩
      have hstage : (s.set p).stage.left < 5 := by
        cases (s.set p).stage <;> simp [SetStage.left]
      rcases hphase with hphase | hphase
      · exact Or.inl (by simpa only [hphase, h, SetRun.left] using hstage)
      · exact Or.inr (by simp only [hphase, h, SetRun.left, ScanRun.left, true_and]; omega)
  | getWait =>
      have step := @StoreStep.wake _ _ db _ _ _ (.woken h .get (hfree _ (by
        rw [Processes.request, h]
        rfl)))
      refine ⟨_, _, step, by simp, Store.left_lt (fun _ hq => step.others hq) (Or.inr ?_)⟩
      simp only [move_phase_self, h, SetRun.left, ScanRun.left, true_and]
      omega
  | setWait nested =>
      have step := @StoreStep.wake _ _ db _ _ _ (.woken h (.set nested) (hfree _ (by
        rw [Processes.request, h]
        rfl)))
      refine ⟨_, _, step, by simp, Store.left_lt (fun _ hq => step.others hq) (Or.inl ?_)⟩
      simp only [move_phase_self, h, SetRun.left]
      cases (s.set p).stage <;> simp [SetStage.left]
  | reading =>
      obtain ⟨t, step, hless⟩ := exists_read hrow h
      exact ⟨_, t, step, by simp, hless⟩
  | row =>
      have step := @StoreStep.next _ _ db _ _ _ (.next h)
      refine ⟨_, _, step, by simp, Store.left_lt (fun _ hq => step.others hq) (Or.inr ?_)⟩
      simp only [move_phase_self, h, SetRun.left, ScanRun.left, true_and]
      omega
  | atEnd =>
      have step := @StoreStep.unlock _ _ db _ _ _ (.unlock h)
      refine ⟨_, _, step, by simp, Store.left_lt (fun _ hq => step.others hq) (Or.inr ?_)⟩
      simp only [move_phase_self, h, SetRun.left, ScanRun.left, true_and]
      omega
  | scanned =>
      have step := @StoreStep.closeScan _ _ db _ _ _ (.closeScan h) h
      refine ⟨_, _, step, by simp, Store.left_lt (fun _ hq => step.others hq) (Or.inr ?_)⟩
      simp only [move_phase_self, h, SetRun.left, ScanRun.left, true_and]
      omega
  | writing nested => exact exists_write hrow h

/-- While some process is in a call, one that is in a call goes on. -/
theorem Store.exists_step (hrow : 0 < db.rowSize) (inv : s.control.Inv)
    (acyclic : Acyclic s.control.held s.control.request)
    (hbusy : ¬ ∀ p, s.control.phase p = .idle) :
    ∃ event t, StoreStep db s event t ∧ event.2 ≠ .openFile ∧ t.left db < s.left db := by
  obtain ⟨p, hp⟩ := not_forall.mp hbusy
  obtain ⟨q, path, hfree⟩ := acyclic.exists_unblocked p
  have hq : s.control.phase q ≠ .idle := by
    intro hidle
    rcases Relation.ReflTransGen.cases_tail path with rfl | ⟨_, _, _, _, _, other, hother, _⟩
    · exact hp hidle
    · -- who stands in the way of another one holds a lock
      have hnone := inv.agrees_of hidle
      rw [hother] at hnone
      exact absurd hnone (by simp [Phase.Agrees])
  obtain ⟨op, t, step, hopen, hless⟩ := exists_next hrow hq hfree
  exact ⟨_, t, step, hopen, hless⟩

end Progress

/-- **Every call comes to its end.**  However the processes have called the store, also
where a scan was refused its lock, those that are in a call can go on to the end of
it without any new call; then nobody holds a lock. -/
theorem store_drains [Finite Pid] (hrow : 0 < db.rowSize) {file : Bytes}
    {trace : List ((Pid × Op) × Store Pid)}
    (run : Run (StoreStep db) (Store.initial file) trace s) :
    ∃ more t, Run (StoreStep db) s more t ∧ (∀ entry ∈ more, entry.1.2 ≠ .openFile) ∧
      ∀ p, t.control.phase p = .idle ∧ t.control.held p = none := by
  have := Fintype.ofFinite Pid
  let Inv : Store Pid → Prop := fun s =>
    s.control.Inv ∧ Acyclic s.control.held s.control.request
  have kept : ∀ s event t, Inv s → StoreStep db s event t → Inv t :=
    fun _ _ _ ⟨inv, acyclic⟩ step => ⟨inv.step step.control, step.control.acyclic acyclic⟩
  have progress : ∀ s, Inv s → ¬ (∀ p, s.control.phase p = .idle) →
      ∃ event t, Guarded (StoreStep db) (fun _ event => event.2 ≠ .openFile) s event t ∧ Inv t ∧
        t.left db < s.left db := by
    rintro s inv hbusy
    obtain ⟨event, t, step, hopen, hless⟩ := Store.exists_step hrow inv.1 inv.2 hbusy
    exact ⟨event, t, ⟨step, hopen⟩, kept _ _ _ inv step, hless⟩
  have hs := run.invariant Inv kept ⟨lockInv_initial, acyclic_of_no_request fun _ => rfl⟩
  obtain ⟨more, t, rest, inv, hidle⟩ := Run.exists_final wellFounded_lt (Store.left db) Inv
    (fun s => ∀ p, s.control.phase p = .idle) progress s hs
  refine ⟨more, t, rest.mono fun _ _ _ step => step.1, rest.of_mem_guarded, fun p => ?_⟩
  exact ⟨hidle p, inv.1.agrees_of (hidle p)⟩

end Step

/-- Process `false` is in a scan, and process `true` waits for it with a `sto_set`. -/
theorem store_drains_waiting :
    ∃ (trace : List ((Bool × Op) × Store Bool)) (s : Store Bool),
      Run (StoreStep { rowSize := 40, dataSize := 1 }) (Store.initial []) trace s ∧
        s.control.held false = some .shared ∧ s.control.phase true = .setWait false ∧
        ∃ more t, Run (StoreStep { rowSize := 40, dataSize := 1 }) s more t ∧
          (∀ entry ∈ more, entry.1.2 ≠ .openFile) ∧
          ∀ p, t.control.phase p = .idle ∧ t.control.held p = none := by
  have run : ∃ trace s, Run (StoreStep { rowSize := 40, dataSize := 1 })
      (Store.initial [] : Store Bool) trace s ∧ s.control.held false = some .shared ∧
        s.control.phase true = .setWait false := by
    refine ⟨_, _, .cons (.openScan [0] (@LockStep.openScan _ _ _ false rfl) rfl)
      (.cons (.openSet [7] [65] (@LockStep.openSet _ _ _ true rfl) rfl)
      (.cons (.lock (@LockStep.granted _ _ _ false _ _ _ _ rfl .get ?_))
      (.cons (.lock (@LockStep.blocked _ _ _ true _ _ _ _ rfl (.set false) ?_ ?_))
      (.nil _)))), rfl, rfl⟩
    · exact free_of_none fun q _ => by cases q <;> rfl
    · exact fun hfree => hfree false ⟨by decide, .shared, rfl, trivial⟩
    · exact not_wouldDeadlock_of_none rfl
  obtain ⟨trace, s, run, hheld, hwaits⟩ := run
  exact ⟨trace, s, run, hheld, hwaits, store_drains (by decide) run⟩

end AirTraffic.Storage
