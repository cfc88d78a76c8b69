/-
  Storage/Serial.lean --- what the processes do to the file, together.

  WHAT THIS FILE IS FOR.  `Locks.lean` says which process may use the file at a
  time.  Here the processes use it: each access of a `sto_set` and each fetch of a
  scan is a step of its own, taken under the locks of `Locks.lean`, whose calls
  and refusals stay as they are.  `store_serializable`: while no scan asks for the
  exclusive lock when another one waits for it, the file is what the calls of
  `sto_set` make of it one after the other, in the order in which they close it,
  and a scan that keeps its lock gets all rows of one of the files in between.
-/
import AirTraffic.Storage.Locks
import AirTraffic.Storage.Steps

set_option autoImplicit false

namespace AirTraffic.Storage

open AirTraffic.Foundation

/-! ## One call after the other -/

/-- A call that is over, with what it returned. -/
inductive Entry (Pid : Type) where
  | set (p : Pid) (row key : Bytes) (res : Int32)
  | scan (p : Pid) (buffer : Bytes) (rows : List Row)

/-- The calls, each with the file for itself. -/
inductive Serial {Pid : Type} (db : StoDatabase) (file : Bytes) : List (Entry Pid) → Bytes → Prop
  | nil : Serial db file [] file
  | set {log : List (Entry Pid)} {before : Bytes} (p : Pid) (row key : Bytes)
      (earlier : Serial db file log before) :
      Serial db file (log ++ [.set p row key (stoSet db row key (.sound before)).1])
        (stoSet db row key (.sound before)).2.file
  | scan {log : List (Entry Pid)} {before : Bytes} (p : Pid) {buffer : Bytes} {rows : List Row}
      (earlier : Serial db file log before) (all : ScanRun.AllRows db buffer before rows) :
      Serial db file (log ++ [.scan p buffer rows]) before

/-! ## All at once -/

/-- The processes, the file, and the calls they are in.  The log has the calls of
`sto_set` that closed the file, and the scans that gave up their lock at its end
and had kept it until then. -/
structure Store (Pid : Type) where
  control : Processes Pid
  file : Bytes
  set : Pid → SetRun
  scan : Pid → ScanRun
  log : List (Entry Pid)

variable {Pid : Type} [DecidableEq Pid]

/-- No process has called the store yet. -/
def Store.initial (file : Bytes) : Store Pid where
  control := .initial
  file := file
  set _ := .start [] []
  scan _ := .start []
  log := []

/-- The system calls of the processes, with what they read and write. -/
inductive StoreStep (db : StoDatabase) (s : Store Pid) : Pid × Op → Store Pid → Prop
  /-- `sto_query` of a scan -/
  | openScan {p : Pid} {c : Processes Pid} (buffer : Bytes)
      (control : LockStep s.control (p, .openFile) c) (phase : c.phase p = .getLock) :
      StoreStep db s (p, .openFile)
        { s with control := c, scan := Function.update s.scan p (.start buffer) }
  /-- `sto_query` of `sto_set` -/
  | openSet {p : Pid} {c : Processes Pid} {nested : Bool} (row key : Bytes)
      (control : LockStep s.control (p, .openFile) c) (phase : c.phase p = .setLock nested) :
      StoreStep db s (p, .openFile)
        { s with control := c, set := Function.update s.set p (.start row key) }
  | lock {p : Pid} {c : Processes Pid} (control : LockStep s.control (p, .lockFile) c) :
      StoreStep db s (p, .lockFile) { s with control := c }
  | wake {p : Pid} {c : Processes Pid} (control : LockStep s.control (p, .wakeUp) c) :
      StoreStep db s (p, .wakeUp) { s with control := c }
  /-- `sto_get` returns a row. -/
  | readRow {p : Pid} {c : Processes Pid} (control : LockStep s.control (p, .readRow) c)
      (phase : c.phase p = .row)
      (hzero : (fetch db true s.file (s.scan p).reader).1 ≠ 0)
      (hfail : (fetch db true s.file (s.scan p).reader).1 ≠ -1) :
      StoreStep db s (p, .readRow)
        { s with
          control := c
          scan := Function.update s.scan p
            ((s.scan p).took (fetch db true s.file (s.scan p).reader).2) }
  /-- `sto_get` meets the end of the file. -/
  | readEnd {p : Pid} {c : Processes Pid} (control : LockStep s.control (p, .readRow) c)
      (phase : c.phase p = .atEnd)
      (hzero : (fetch db true s.file (s.scan p).reader).1 = 0) :
      StoreStep db s (p, .readRow) { s with control := c }
  /-- `sto_get` returns -1. -/
  | readFails {p : Pid} {c : Processes Pid} (control : LockStep s.control (p, .readRow) c)
      (phase : c.phase p = .scanned)
      (hfail : (fetch db true s.file (s.scan p).reader).1 = -1) :
      StoreStep db s (p, .readRow) { s with control := c }
  | unlock {p : Pid} {c : Processes Pid} (control : LockStep s.control (p, .unlockFile) c) :
      StoreStep db s (p, .unlockFile)
        { s with
          control := c
          log :=
            if (s.scan p).whole then s.log ++ [.scan p (s.scan p).buffer (s.scan p).got]
            else s.log }
  | next {p : Pid} {c : Processes Pid} (control : LockStep s.control (p, .nextRow) c) :
      StoreStep db s (p, .nextRow) { s with control := c }
  /-- A fetch or a write of `sto_set` -/
  | access {p : Pid} {c : Processes Pid} (control : LockStep s.control (p, .useFile) c)
      (more : ∀ res, (s.set p).stage ≠ .wrote res) :
      StoreStep db s (p, .useFile)
        { s with
          control := c
          file := ((s.set p).access db s.file).2
          set := Function.update s.set p ((s.set p).access db s.file).1 }
  /-- `sto_close` of `sto_set`, which drops the lock of a scan around it too -/
  | closeSet {p : Pid} {c : Processes Pid} {nested : Bool} {res : Int32}
      (control : LockStep s.control (p, .closeFile) c)
      (phase : s.control.phase p = .writing nested) (done : (s.set p).stage = .wrote res) :
      StoreStep db s (p, .closeFile)
        { s with
          control := c
          scan := Function.update s.scan p { s.scan p with whole := false }
          log := s.log ++ [.set p (s.set p).row (s.set p).key res] }
  /-- `sto_close` of a scan -/
  | closeScan {p : Pid} {c : Processes Pid} (control : LockStep s.control (p, .closeFile) c)
      (phase : s.control.phase p = .scanned) :
      StoreStep db s (p, .closeFile) { s with control := c }

/-! ## What holds of one process -/

/-- What a process knows of the file that the calls in the log have left. -/
def Knows (db : StoDatabase) (base file : Bytes) (set : SetRun) (scan : ScanRun) :
    Phase → Option LockMode → Prop
  | .idle, _ => True
  | .getLock, lock =>
      scan.whole = true →
        (lock = none → scan = .start scan.buffer) ∧ scan.Continues db base
  | .getWait, _ => scan.whole = true → scan = .start scan.buffer
  | .reading, _ => scan.whole = true → scan.Continues db base
  | .row, _ => scan.whole = true → scan.Continues db base
  | .atEnd, _ => scan.whole = true → ScanRun.AllRows db scan.buffer base scan.got
  | .scanned, _ => True
  | .setLock _, _ => set = .start set.row set.key
  | .setWait _, _ => set = .start set.row set.key
  | .writing _, _ => set.rest db file = (SetRun.start set.row set.key).rest db base

section Knows

variable {db : StoDatabase} {base base' file file' : Bytes} {set : SetRun} {scan : ScanRun}
  {phase : Phase} {lock : Option LockMode}

/-- Only a process that scans and writes looks at the file itself. -/
theorem Knows.of_not_writing (h : Knows db base file set scan phase lock)
    (hwrites : ∀ nested, phase ≠ .writing nested) : Knows db base file' set scan phase lock := by
  cases phase with
  | writing nested => exact absurd rfl (hwrites nested)
  | _ => exact h

/-- A process without a lock knows nothing of the file. -/
theorem Knows.of_unlocked (h : Knows db base file set scan phase none)
    (agrees : phase.Agrees none) : Knows db base' file' set scan phase none := by
  cases phase with
  | getLock =>
      intro hwhole
      obtain ⟨hfresh, _⟩ := h hwhole
      refine ⟨hfresh, ?_⟩
      rw [hfresh rfl]
      exact ScanRun.continues_start db _ base'
  | reading | row | atEnd => exact absurd agrees (by simp [Phase.Agrees])
  | writing nested => exact absurd agrees (by simp [Phase.Agrees])
  | idle | getWait | scanned | setLock | setWait => exact h

end Knows

/-- What every run keeps. -/
structure Store.Inv (db : StoDatabase) (start : Bytes) (s : Store Pid) (base : Bytes) : Prop where
  control : s.control.Inv
  excludes : s.control.Excludes
  serial : Serial db start s.log base
  /-- Nobody scans and writes. -/
  settled : (∀ p nested, s.control.phase p ≠ .writing nested) → s.file = base
  knows : ∀ p, Knows db base s.file (s.set p) (s.scan p) (s.control.phase p) (s.control.held p)

section Step

variable {db : StoDatabase} {start base : Bytes} {s t : Store Pid} {p : Pid} {op : Op}

/-- A system call moves the process that makes it, and no other one. -/
theorem LockStep.eq_move {s c : Processes Pid} (step : LockStep s (p, op) c) :
    ∃ phase lock, c = s.move p phase lock := by
  cases step <;> exact ⟨_, _, rfl⟩

theorem LockStep.others {s c : Processes Pid} (step : LockStep s (p, op) c) {q : Pid}
    (hq : q ≠ p) : c.phase q = s.phase q ∧ c.held q = s.held q := by
  obtain ⟨phase, lock, rfl⟩ := step.eq_move
  exact ⟨move_phase_of_ne hq, move_held_of_ne hq⟩

/-- What the store does, its locks do. -/
theorem StoreStep.control {event : Pid × Op} (step : StoreStep db s event t) :
    LockStep s.control event t.control := by
  cases step <;> assumption

/-- A step leaves the calls of the others as they are. -/
theorem StoreStep.others (step : StoreStep db s (p, op) t) {q : Pid} (hq : q ≠ p) :
    t.control.phase q = s.control.phase q ∧ t.set q = s.set q ∧ t.scan q = s.scan q := by
  refine ⟨(step.control.others hq).1, ?_⟩
  cases step with
  | openScan buffer control phase => exact ⟨rfl, Function.update_of_ne hq _ _⟩
  | openSet row key control phase => exact ⟨Function.update_of_ne hq _ _, rfl⟩
  | readRow control phase hzero hfail => exact ⟨rfl, Function.update_of_ne hq _ _⟩
  | access control more => exact ⟨Function.update_of_ne hq _ _, rfl⟩
  | closeSet control phase done => exact ⟨rfl, Function.update_of_ne hq _ _⟩
  | lock | wake | readEnd | readFails | unlock | next | closeScan => exact ⟨rfl, rfl⟩

/-- A step of a process that does not scan and write, and does not begin to, leaves
the file as it is.  What the other processes know stays true. -/
theorem Store.Inv.quiet (inv : s.Inv db start base)
    (control : LockStep s.control (p, op) t.control) (guard : OneUpgrade s.control (p, op))
    (hidle : ∀ nested, s.control.phase p ≠ .writing nested) (hfile : t.file = s.file)
    (hset : ∀ q, q ≠ p → t.set q = s.set q) (hscan : ∀ q, q ≠ p → t.scan q = s.scan q)
    (serial : Serial db start t.log base)
    (knows : Knows db base s.file (t.set p) (t.scan p) (t.control.phase p)
      (t.control.held p)) :
    t.Inv db start base where
  control := inv.control.step control
  excludes := (excludes_iff inv.control inv.excludes control).mpr guard
  serial := serial
  settled := by
    intro hnobody
    rw [hfile]
    refine inv.settled fun q nested hq => ?_
    by_cases hqp : q = p
    · exact hidle nested (hqp ▸ hq)
    · exact hnobody q nested ((control.others hqp).1.trans hq)
  knows := by
    intro q
    rw [hfile]
    by_cases hqp : q = p
    · rw [hqp]
      exact knows
    · rw [hset q hqp, hscan q hqp, (control.others hqp).1, (control.others hqp).2]
      exact inv.knows q

/-- Who gets the exclusive lock finds the file as the calls have left it. -/
theorem Store.Inv.file_of_free (inv : s.Inv db start base)
    (hidle : ∀ nested, s.control.phase p ≠ .writing nested)
    (hfree : Free s.control.held p .exclusive) : s.file = base := by
  refine inv.settled fun q nested hq => ?_
  by_cases hqp : q = p
  · exact hidle nested (hqp ▸ hq)
  · obtain ⟨hheld, _⟩ := inv.excludes q nested hq
    exact hfree.not_exclusive hqp hheld

/-- So does who reads. -/
theorem Store.Inv.file_of_reading (inv : s.Inv db start base)
    (hreads : s.control.phase p = .reading) : s.file = base := by
  refine inv.settled fun q nested hq => ?_
  obtain ⟨_, hothers⟩ := inv.excludes q nested hq
  by_cases hqp : q = p
  · rw [hqp, hreads] at hq
    exact absurd hq (by simp)
  · exact (hothers p (Ne.symm hqp)).2 hreads

/-- A `sto_set` that has not begun. -/
theorem rest_of_start {set : SetRun} {file : Bytes} (h : set = .start set.row set.key)
    (hfile : file = base) : set.rest db file = (SetRun.start set.row set.key).rest db base := by
  rw [hfile]
  exact congrArg (fun c : SetRun => c.rest db base) h

/-- A process that gets its lock knows what it needs. -/
theorem Store.Inv.knows_granted (inv : s.Inv db start base) {before wait after : Phase}
    {mode : LockMode} (call : LockCall before mode wait after)
    (h : s.control.phase p = before ∨ s.control.phase p = wait)
    (hfree : Free s.control.held p mode) :
    Knows db base s.file (s.set p) (s.scan p) after (some mode) := by
  have hknows := inv.knows p
  cases call with
  | get =>
      intro hwhole
      rcases h with h | h
      · rw [h] at hknows
        exact (hknows hwhole).2
      · rw [h] at hknows
        have hfresh : s.scan p = .start (s.scan p).buffer := hknows hwhole
        rw [hfresh]
        exact ScanRun.continues_start db _ base
  | set nested =>
      have hidle : ∀ other, s.control.phase p ≠ .writing other := by
        intro other hw
        rcases h with h | h <;> exact absurd (h.symm.trans hw) (by simp)
      have hstart : s.set p = .start (s.set p).row (s.set p).key := by
        rcases h with h | h
        · rw [h] at hknows
          exact hknows
        · rw [h] at hknows
          exact hknows
      exact rest_of_start hstart (inv.file_of_free hidle hfree)

/-! ## The steps -/

/-- What a lock call of `fcntl` does to the process that makes it. -/
theorem LockStep.lock_cases {s c : Processes Pid} (step : LockStep s (p, .lockFile) c) :
    ∃ before mode wait after, LockCall before mode wait after ∧ s.phase p = before ∧
      ((Free s.held p mode ∧ c = s.move p after (some mode)) ∨
        (WouldDeadlock s.held s.request p mode ∧ c = s.move p after (s.held p)) ∨
        (¬ Free s.held p mode ∧ c = s.move p wait (s.held p))) := by
  cases step with
  | granted h call hfree => exact ⟨_, _, _, _, call, h, Or.inl ⟨hfree, rfl⟩⟩
  | refused h call hdead => exact ⟨_, _, _, _, call, h, Or.inr (Or.inl ⟨hdead, rfl⟩)⟩
  | blocked h call hbusy hlive => exact ⟨_, _, _, _, call, h, Or.inr (Or.inr ⟨hbusy, rfl⟩)⟩

theorem LockStep.wake_cases {s c : Processes Pid} (step : LockStep s (p, .wakeUp) c) :
    ∃ before mode wait after, LockCall before mode wait after ∧ s.phase p = wait ∧
      Free s.held p mode ∧ c = s.move p after (some mode) := by
  cases step with
  | woken h call hfree => exact ⟨_, _, _, _, call, h, hfree, rfl⟩

theorem LockCall.not_writing {before wait after : Phase} {mode : LockMode}
    (call : LockCall before mode wait after) (nested : Bool) :
    before ≠ .writing nested ∧ wait ≠ .writing nested := by
  cases call <;> exact ⟨by simp, by simp⟩

/-- `sto_query` of a scan: nothing is known yet. -/
theorem Store.Inv.step_openScan {c : Processes Pid} (inv : s.Inv db start base) (buffer : Bytes)
    (control : LockStep s.control (p, .openFile) c) (phase : c.phase p = .getLock) :
    Store.Inv db start
      { s with control := c, scan := Function.update s.scan p (.start buffer) } base := by
  have hidle : ∀ nested, s.control.phase p ≠ .writing nested := by
    intro nested hw
    cases control <;> exact absurd (hw.symm.trans ‹_›) (by simp)
  refine inv.quiet control (fun h => absurd h (by simp)) hidle rfl (fun _ _ => rfl)
    (fun q hq => Function.update_of_ne hq _ _) inv.serial ?_
  dsimp only
  rw [phase, Function.update_self]
  intro _
  exact ⟨fun _ => rfl, ScanRun.continues_start db buffer base⟩

/-- `sto_query` of `sto_set`. -/
theorem Store.Inv.step_openSet {c : Processes Pid} {nested : Bool} (inv : s.Inv db start base)
    (row key : Bytes) (control : LockStep s.control (p, .openFile) c)
    (phase : c.phase p = .setLock nested) :
    Store.Inv db start
      { s with control := c, set := Function.update s.set p (.start row key) } base := by
  have hidle : ∀ other, s.control.phase p ≠ .writing other := by
    intro other hw
    cases control <;> exact absurd (hw.symm.trans ‹_›) (by simp)
  refine inv.quiet control (fun h => absurd h (by simp)) hidle rfl
    (fun q hq => Function.update_of_ne hq _ _) (fun _ _ => rfl) inv.serial ?_
  dsimp only
  rw [phase, Function.update_self]
  rfl

omit [DecidableEq Pid] in
/-- A process that has to wait for its lock knows what it knew. -/
theorem Store.Inv.knows_blocked (inv : s.Inv db start base) {before wait after : Phase}
    {mode : LockMode} (call : LockCall before mode wait after)
    (h : s.control.phase p = before) (hbusy : ¬ Free s.control.held p mode) :
    Knows db base s.file (s.set p) (s.scan p) wait (s.control.held p) := by
  have hknows := inv.knows p
  rw [h] at hknows
  cases call with
  | get =>
      intro hwhole
      refine (hknows hwhole).1 ?_
      -- who holds the shared lock is not kept waiting for it
      have hagrees := inv.control.agrees_of h
      cases hheld : s.control.held p with
      | none => rfl
      | some own =>
          cases own with
          | shared => exact absurd (inv.control.free_shared hheld) hbusy
          | exclusive => exact absurd hheld hagrees
  | set nested => exact hknows

/-- `_acquire_r_lock` and `_acquire_w_lock`. -/
theorem Store.Inv.step_lock {c : Processes Pid} (inv : s.Inv db start base)
    (control : LockStep s.control (p, .lockFile) c)
    (guard : OneUpgrade s.control (p, .lockFile)) :
    Store.Inv db start { s with control := c } base := by
  obtain ⟨before, mode, wait, after, call, h, hcases⟩ := control.lock_cases
  have hidle : ∀ nested, s.control.phase p ≠ .writing nested := by
    intro nested hw
    exact (call.not_writing nested).1 (h.symm.trans hw)
  refine inv.quiet control guard hidle rfl (fun _ _ => rfl) (fun _ _ => rfl) inv.serial ?_
  rcases hcases with ⟨hfree, rfl⟩ | ⟨hdead, rfl⟩ | ⟨hbusy, rfl⟩
  · dsimp only
    rw [move_phase_self, move_held_self]
    exact inv.knows_granted call (Or.inl h) hfree
  · obtain ⟨hbefore, q, hq, hwait⟩ := inv.control.refused h call hdead
    exact absurd hwait (guard rfl (h.trans hbefore) q hq)
  · dsimp only
    rw [move_phase_self, move_held_self]
    exact inv.knows_blocked call h hbusy

/-- The lock that a process waited for. -/
theorem Store.Inv.step_wake {c : Processes Pid} (inv : s.Inv db start base)
    (control : LockStep s.control (p, .wakeUp) c) :
    Store.Inv db start { s with control := c } base := by
  obtain ⟨before, mode, wait, after, call, h, hfree, rfl⟩ := control.wake_cases
  have hidle : ∀ nested, s.control.phase p ≠ .writing nested := by
    intro nested hw
    exact (call.not_writing nested).2 (h.symm.trans hw)
  refine inv.quiet control (fun hlock => absurd hlock (by simp)) hidle rfl (fun _ _ => rfl)
    (fun _ _ => rfl) inv.serial ?_
  dsimp only
  rw [move_phase_self, move_held_self]
  exact inv.knows_granted call (Or.inr h) hfree

/-- `sto_get` of a scan that has its lock. -/
theorem Store.Inv.step_read {c : Processes Pid} (inv : s.Inv db start base) {next : ScanRun}
    (control : LockStep s.control (p, .readRow) c)
    (knows : ((s.scan p).whole = true → (s.scan p).Continues db s.file) →
      Knows db s.file s.file (s.set p) next (c.phase p) (c.held p)) :
    Store.Inv db start { s with control := c, scan := Function.update s.scan p next } base := by
  have hreads : s.control.phase p = .reading := by
    cases control <;> assumption
  have hfile := inv.file_of_reading hreads
  have hknows := inv.knows p
  rw [hreads] at hknows
  have hidle : ∀ nested, s.control.phase p ≠ .writing nested := by
    intro nested hw
    exact absurd (hreads.symm.trans hw) (by simp)
  refine inv.quiet control (fun hlock => absurd hlock (by simp)) hidle rfl (fun _ _ => rfl)
    (fun q hq => Function.update_of_ne hq _ _) inv.serial ?_
  dsimp only
  rw [hfile] at knows ⊢
  rw [Function.update_self]
  exact knows hknows

/-- `_release_lock` at the end of a scan. -/
theorem Store.Inv.step_unlock {c : Processes Pid} (inv : s.Inv db start base)
    (control : LockStep s.control (p, .unlockFile) c) :
    Store.Inv db start
      { s with
        control := c
        log :=
          if (s.scan p).whole then s.log ++ [.scan p (s.scan p).buffer (s.scan p).got]
          else s.log } base := by
  have hend : s.control.phase p = .atEnd ∧ c.phase p = .scanned := by
    cases control with
    | unlock h => exact ⟨h, move_phase_self⟩
  have hknows := inv.knows p
  rw [hend.1] at hknows
  refine inv.quiet control (fun hlock => absurd hlock (by simp)) ?_ rfl (fun _ _ => rfl)
    (fun _ _ => rfl) ?_ ?_
  · intro nested hw
    exact absurd (hend.1.symm.trans hw) (by simp)
  · dsimp only
    split
    · rename_i hwhole
      exact .scan p inv.serial (hknows hwhole)
    · exact inv.serial
  · dsimp only
    rw [hend.2]
    trivial

/-- The next `sto_get` of a scan. -/
theorem Store.Inv.step_next {c : Processes Pid} (inv : s.Inv db start base)
    (control : LockStep s.control (p, .nextRow) c) :
    Store.Inv db start { s with control := c } base := by
  have hrow : s.control.phase p = .row ∧ c.phase p = .getLock ∧ c.held p = s.control.held p := by
    cases control with
    | next h => exact ⟨h, move_phase_self, move_held_self⟩
  obtain ⟨hphase, hnext, hheld⟩ := hrow
  have hshared := inv.control.agrees_of hphase
  have hknows := inv.knows p
  rw [hphase] at hknows
  refine inv.quiet control (fun hlock => absurd hlock (by simp)) ?_ rfl (fun _ _ => rfl)
    (fun _ _ => rfl) inv.serial ?_
  · intro nested hw
    exact absurd (hphase.symm.trans hw) (by simp)
  · dsimp only
    rw [hnext, hheld]
    intro hwhole
    refine ⟨fun hnone => ?_, hknows hwhole⟩
    rw [hnone] at hshared
    exact absurd hshared (by simp [Phase.Agrees])

/-- `sto_close` of a scan. -/
theorem Store.Inv.step_closeScan {c : Processes Pid} (inv : s.Inv db start base)
    (control : LockStep s.control (p, .closeFile) c) (phase : s.control.phase p = .scanned) :
    Store.Inv db start { s with control := c } base := by
  have hidle : c.phase p = .idle := by
    cases control with
    | closeSet h => exact absurd (phase.symm.trans h) (by simp)
    | closeScan h => exact move_phase_self
  refine inv.quiet control (fun hlock => absurd hlock (by simp)) ?_ rfl (fun _ _ => rfl)
    (fun _ _ => rfl) inv.serial ?_
  · intro nested hw
    exact absurd (phase.symm.trans hw) (by simp)
  · dsimp only
    rw [hidle]
    trivial

/-- A fetch or a write of `sto_set`: nobody else looks at the file. -/
theorem Store.Inv.step_access {c : Processes Pid} (hrow : 0 < db.rowSize)
    (inv : s.Inv db start base) (control : LockStep s.control (p, .useFile) c) :
    Store.Inv db start
      { s with
        control := c
        file := ((s.set p).access db s.file).2
        set := Function.update s.set p ((s.set p).access db s.file).1 } base := by
  have hwrites : ∃ nested, s.control.phase p = .writing nested ∧ c.phase p = .writing nested := by
    cases control with
    | access h => exact ⟨_, h, move_phase_self⟩
  obtain ⟨nested, hphase, hsame⟩ := hwrites
  have hexcludes := (excludes_iff inv.control inv.excludes control).mpr
    (fun hlock => absurd hlock (by simp))
  obtain ⟨_, hothers⟩ := inv.excludes p nested hphase
  have hknows := inv.knows p
  rw [hphase] at hknows
  refine ⟨inv.control.step control, hexcludes, inv.serial, ?_, ?_⟩
  · intro hnobody
    exact absurd hsame (hnobody p nested)
  · intro q
    dsimp only
    by_cases hq : q = p
    · rw [hq, Function.update_self, hsame]
      refine (SetRun.rest_access hrow (s.set p) s.file).trans (hknows.trans ?_)
      rw [SetRun.row_access, SetRun.key_access]
    · rw [Function.update_of_ne hq, (control.others hq).1, (control.others hq).2]
      exact (inv.knows q).of_not_writing (hothers q hq).1

omit [DecidableEq Pid] in
/-- A `sto_set` that has its result did to the file what it does alone. -/
theorem Store.Inv.wrote_eq {nested : Bool} {res : Int32} (hrow : 0 < db.rowSize)
    (inv : s.Inv db start base) (phase : s.control.phase p = .writing nested)
    (done : (s.set p).stage = .wrote res) :
    res = (stoSet db (s.set p).row (s.set p).key (.sound base)).1 ∧
      s.file = (stoSet db (s.set p).row (s.set p).key (.sound base)).2.file := by
  have hknows := inv.knows p
  rw [phase] at hknows
  have hdone : (res, s.file) =
      ((stoSet db (s.set p).row (s.set p).key (.sound base)).1,
        (stoSet db (s.set p).row (s.set p).key (.sound base)).2.file) := by
    rw [← SetRun.rest_start hrow, ← hknows, SetRun.rest, done]
  exact Prod.mk.inj hdone

/-- `sto_close` of `sto_set`: the call is over, and all others see what it did. -/
theorem Store.Inv.step_closeSet {c : Processes Pid} {nested : Bool} {res : Int32}
    (hrow : 0 < db.rowSize) (inv : s.Inv db start base)
    (control : LockStep s.control (p, .closeFile) c)
    (phase : s.control.phase p = .writing nested) (done : (s.set p).stage = .wrote res) :
    Store.Inv db start
      { s with
        control := c
        scan := Function.update s.scan p { s.scan p with whole := false }
        log := s.log ++ [.set p (s.set p).row (s.set p).key res] }
      (stoSet db (s.set p).row (s.set p).key (.sound base)).2.file := by
  have hnext : c.phase p = if nested then .getLock else .idle := by
    cases control with
    | closeSet h =>
        obtain rfl : nested = _ := Phase.writing.inj (phase.symm.trans h)
        exact move_phase_self
    | closeScan h => exact absurd (phase.symm.trans h) (by simp)
  have hexcludes := (excludes_iff inv.control inv.excludes control).mpr
    (fun hlock => absurd hlock (by simp))
  obtain ⟨hheld, hothers⟩ := inv.excludes p nested phase
  obtain ⟨hres, hfile⟩ := inv.wrote_eq hrow phase done
  refine ⟨inv.control.step control, hexcludes, ?_, fun _ => hfile, ?_⟩
  · dsimp only
    rw [hres]
    exact .set p _ _ inv.serial
  · intro q
    dsimp only
    by_cases hq : q = p
    · rw [hq, Function.update_self, hnext]
      cases nested with
      | true => exact fun hwhole => absurd hwhole (by simp)
      | false => trivial
    · have hnone := inv.control.sound p q (Ne.symm hq) hheld
      have hagrees := inv.control.agrees q
      have hother := inv.knows q
      rw [hnone] at hother hagrees
      rw [Function.update_of_ne hq, (control.others hq).1, (control.others hq).2, hnone]
      exact hother.of_unlocked hagrees

/-- The file that the calls leave when a step of the processes is over. -/
def Store.baseAfter (db : StoDatabase) (s : Store Pid) (event : Pid × Op) (base : Bytes) : Bytes :=
  match event.2, s.control.phase event.1 with
  | .closeFile, .writing _ =>
      (stoSet db (s.set event.1).row (s.set event.1).key (.sound base)).2.file
  | _, _ => base

omit [DecidableEq Pid] in
/-- Only the end of a `sto_set` changes it. -/
theorem Store.baseAfter_of_not_writing
    (h : op = .closeFile → ∀ nested, s.control.phase p ≠ .writing nested) :
    s.baseAfter db (p, op) base = base := by
  unfold baseAfter
  split
  · rename_i nested hclose hphase
    exact absurd hphase (h hclose nested)
  · rfl

omit [DecidableEq Pid] in
theorem Store.baseAfter_closeSet {nested : Bool} (phase : s.control.phase p = .writing nested) :
    s.baseAfter db (p, .closeFile) base =
      (stoSet db (s.set p).row (s.set p).key (.sound base)).2.file := by
  unfold baseAfter
  rw [phase]

/-- **Every step keeps what the processes know.** -/
theorem Store.Inv.step (hrow : 0 < db.rowSize) (inv : s.Inv db start base)
    (step : StoreStep db s (p, op) t) (guard : OneUpgrade s.control (p, op)) :
    t.Inv db start (s.baseAfter db (p, op) base) := by
  have hquiet : op ≠ .closeFile → s.baseAfter db (p, op) base = base := fun hop =>
    Store.baseAfter_of_not_writing fun hclose => absurd hclose hop
  cases step with
  | openScan buffer control phase =>
      rw [hquiet (by simp)]
      exact inv.step_openScan buffer control phase
  | openSet row key control phase =>
      rw [hquiet (by simp)]
      exact inv.step_openSet row key control phase
  | lock control =>
      rw [hquiet (by simp)]
      exact inv.step_lock control guard
  | wake control =>
      rw [hquiet (by simp)]
      exact inv.step_wake control
  | readRow control phase hzero hfail =>
      rw [hquiet (by simp)]
      refine inv.step_read control fun hcontinues => ?_
      rw [phase]
      exact fun hwhole => (hcontinues hwhole).took hzero hfail
  | readEnd control phase hzero =>
      have hread := inv.step_read control fun hcontinues => show Knows db s.file s.file (s.set p)
          (s.scan p) _ _ by
        rw [phase]
        exact fun hwhole => (hcontinues hwhole).stop hzero
      rw [Function.update_eq_self] at hread
      rw [hquiet (by simp)]
      exact hread
  | readFails control phase hfail =>
      have hread := inv.step_read control fun _ => show Knows db s.file s.file (s.set p)
          (s.scan p) _ _ by
        rw [phase]
        trivial
      rw [Function.update_eq_self] at hread
      rw [hquiet (by simp)]
      exact hread
  | unlock control =>
      rw [hquiet (by simp)]
      exact inv.step_unlock control
  | next control =>
      rw [hquiet (by simp)]
      exact inv.step_next control
  | access control more =>
      rw [hquiet (by simp)]
      exact inv.step_access hrow control
  | closeSet control phase done =>
      rw [Store.baseAfter_closeSet phase]
      exact inv.step_closeSet hrow control phase done
  | closeScan control phase =>
      rw [Store.baseAfter_of_not_writing fun _ nested => by rw [phase]; simp]
      exact inv.step_closeScan control phase

omit [DecidableEq Pid] in
theorem storeInv_initial (db : StoDatabase) (file : Bytes) :
    (Store.initial file : Store Pid).Inv db file file where
  control := lockInv_initial
  excludes := fun _ _ h => absurd h (by simp [Store.initial, Processes.initial])
  serial := .nil
  settled := fun _ => rfl
  knows := fun _ => trivial

/-! ## Runs -/

/-- **The calls as one after the other.**  Processes use the file in any order of their
system calls, and no scan asks for the exclusive lock while another one waits for
it.  Then every `sto_set` that has closed the file has done to it, and returned,
what it does when it has the file for itself, in the order of the closing; a scan
that has kept its lock to the end has got all rows of the file between two of them;
and while nobody writes the file is the one that these calls leave. -/
theorem store_serializable (hrow : 0 < db.rowSize) {file : Bytes}
    {trace : List ((Pid × Op) × Store Pid)}
    (run : Run (Guarded (StoreStep db) fun s event => OneUpgrade s.control event)
      (Store.initial file) trace s) :
    ∃ base, Serial db file s.log base ∧
      ((∀ p nested, s.control.phase p ≠ .writing nested) → s.file = base) := by
  obtain ⟨base, inv⟩ := run.invariant (fun s => ∃ base, s.Inv db file base)
    (fun _ _ _ ⟨_, inv⟩ step => ⟨_, inv.step hrow step.1 step.2⟩) ⟨file, storeInv_initial db file⟩
  exact ⟨base, inv.serial, inv.settled⟩

/-! ## Two calls at once -/

/-- A `sto_set` that has its lock goes on, so many accesses. -/
theorem exists_accesses {nested : Bool} (phase : s.control.phase p = .writing nested) (n : Nat) :
    ∃ trace, Run (Guarded (StoreStep db) fun s event => OneUpgrade s.control event) s trace
      { s with
        file := ((s.set p).accesses db n s.file).2
        set := Function.update s.set p ((s.set p).accesses db n s.file).1 } := by
  induction n generalizing s with
  | zero =>
      rw [SetRun.accesses, Function.update_eq_self]
      exact ⟨[], .nil s⟩
  | succ n ih =>
      rw [SetRun.accesses]
      by_cases hdone : ∃ res, (s.set p).stage = .wrote res
      · -- there is nothing more to access
        obtain ⟨res, hdone⟩ := hdone
        have hstays : (s.set p).access db s.file = (s.set p, s.file) := by
          simp only [SetRun.access, hdone]
        rw [hstays]
        exact ih phase
      · have more : ∀ res, (s.set p).stage ≠ .wrote res := fun res hres => hdone ⟨res, hres⟩
        have step := @StoreStep.access _ _ db _ _ _ (.access phase) more
        rw [move_of_eq phase] at step
        obtain ⟨trace, run⟩ := @ih
          { s with
            file := ((s.set p).access db s.file).2
            set := Function.update s.set p ((s.set p).access db s.file).1 } phase
        dsimp only at run
        rw [Function.update_self, Function.update_idem] at run
        exact ⟨_, .cons ⟨step, fun h => absurd h (by simp)⟩ run⟩

/-- It comes to its result, closes the file and is over. -/
theorem exists_closed {row key : Bytes} {res : Int32} (n : Nat)
    (phase : s.control.phase p = .writing false) (hset : s.set p = .start row key)
    (wrote : ((SetRun.start row key).accesses db n s.file).1 =
      { row := row, key := key, stage := .wrote res }) :
    ∃ trace t, Run (Guarded (StoreStep db) fun s event => OneUpgrade s.control event) s trace t ∧
      t.control = s.control.move p .idle none ∧
      t.file = ((SetRun.start row key).accesses db n s.file).2 ∧
      t.log = s.log ++ [.set p row key res] ∧ ∀ q, q ≠ p → t.set q = s.set q := by
  obtain ⟨trace, run⟩ := @exists_accesses _ _ db _ _ _ phase n
  rw [hset, wrote] at run
  let written : SetRun := { row := row, key := key, stage := .wrote res }
  have hself : Function.update s.set p written p = written := Function.update_self ..
  have step := @StoreStep.closeSet _ _ db
    { s with
      file := ((SetRun.start row key).accesses db n s.file).2
      set := Function.update s.set p written }
    p _ false res (.closeSet phase) phase (congrArg SetRun.stage hself)
  dsimp only at step
  rw [hself] at step
  exact ⟨_, _, run.append (.cons ⟨step, fun h => absurd h (by simp)⟩ (.nil _)), rfl, rfl, rfl,
    fun q hq => Function.update_of_ne hq _ _⟩

end Step

/-- Process `true` comes to store a row while process `false` stores one, and has to
wait; it finds the row of the other one in the file then. -/
theorem store_serializable_twoSets :
    ∃ (trace : List ((Bool × Op) × Store Bool)) (s : Store Bool),
      Run (Guarded (StoreStep { rowSize := 40, dataSize := 1 })
          fun s event => OneUpgrade s.control event) (Store.initial []) trace s ∧
        s.log = [.set false [7] [65] 1, .set true [8] [66] 1] ∧
        ∃ base, Serial { rowSize := 40, dataSize := 1 } [] s.log base ∧
          ((∀ p nested, s.control.phase p ≠ .writing nested) → s.file = base) := by
  let db : StoDatabase := { rowSize := 40, dataSize := 1 }
  have guard : ∀ {s : Processes Bool} {p : Bool} {op : Op}, s.phase p ≠ .setLock true →
      OneUpgrade s (p, op) := fun hne _ hset => absurd hset hne
  obtain ⟨_, s, waits, hwriting, hwaiting, hheld, hlog, hfirst, hsecond⟩ :
      ∃ trace s, Run (Guarded (StoreStep db) fun s event => OneUpgrade s.control event)
        (Store.initial [] : Store Bool) trace s ∧ s.control.phase false = .writing false ∧
        s.control.phase true = .setWait false ∧ s.file = [] ∧ s.log = [] ∧
        s.set false = .start [7] [65] ∧ s.set true = .start [8] [66] := by
    refine ⟨_, _, .cons ⟨.openSet [7] [65] (@LockStep.openSet _ _ _ false rfl) rfl, guard nofun⟩
      (.cons ⟨.openSet [8] [66] (@LockStep.openSet _ _ _ true rfl) rfl, guard nofun⟩
      (.cons ⟨.lock (@LockStep.granted _ _ _ false _ _ _ _ rfl (.set false) ?_), guard nofun⟩
      (.cons ⟨.lock (@LockStep.blocked _ _ _ true _ _ _ _ rfl (.set false) ?_ ?_), guard nofun⟩
      (.nil _)))), rfl, rfl, rfl, rfl, rfl, rfl⟩
    · exact free_of_none fun q _ => by cases q <;> rfl
    · exact fun hfree => hfree false ⟨by decide, .exclusive, rfl, trivial⟩
    · exact not_wouldDeadlock_of_none rfl
  obtain ⟨_, t, writes, hcontrol, hfile, hwrote, hothers⟩ :=
    @exists_closed _ _ db s false [7] [65] 1 3 hwriting hfirst (by rw [hheld]; decide +kernel)
  rw [hheld] at hfile
  rw [hlog] at hwrote
  have hwaits : t.control.phase true = .setWait false := by
    rw [hcontrol, move_phase_of_ne (by decide)]
    exact hwaiting
  have hfree : Free t.control.held true .exclusive := by
    refine free_of_none fun q hq => ?_
    obtain rfl : q = false := by simpa using hq
    rw [hcontrol, move_held_self]
  have wakes := @StoreStep.wake _ _ db _ _ _ (.woken hwaits (.set false) hfree)
  obtain ⟨_, u, rest, _, _, hlast, _⟩ :=
    @exists_closed _ _ db { t with control := t.control.move true (.writing false) (some .exclusive) }
      true [8] [66] 1 4 move_phase_self ((hothers true (by decide)).trans hsecond)
      (by dsimp only; rw [hfile]; decide +kernel)
  have run := (waits.append writes).append (.cons ⟨wakes, fun h => absurd h (by simp)⟩ rest)
  refine ⟨_, u, run, ?_, store_serializable (by decide) run⟩
  rw [hlast, hwrote]
  rfl

end AirTraffic.Storage
