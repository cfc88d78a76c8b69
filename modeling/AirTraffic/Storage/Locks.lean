/-
  Storage/Locks.lean --- the locks of the store, process by process.

  WHAT THIS FILE IS FOR.  `get_airplanes` scans the file with `sto_get`, which
  takes a shared lock and keeps it until the end of the file; a plane that came
  down is stored with `sto_set` in the middle of that, through a second
  descriptor and under an exclusive lock.  None of them looks at what `fcntl`
  returned, and closing either descriptor drops every lock of the process.  The
  steps of a process are the system calls of these functions, in their order;
  any number of processes take them in any order.

  THE DEFECT.  Of two scans that both want the exclusive lock, the second one is
  refused it, since each would wait for the shared lock of the other, and it
  reads and writes all the same.  `writers_exclude_iff` says that nothing else
  goes wrong.
-/
import AirTraffic.Foundation.RecordLock
import AirTraffic.Foundation.Transition

set_option autoImplicit false

namespace AirTraffic.Storage

open AirTraffic.Foundation

/-- Where a process is.  `nested` says that `sto_set` was called by the scan. -/
inductive Phase where
  /-- Between two calls of the store. -/
  | idle
  /-- `sto_get` is about to take its lock. -/
  | getLock
  /-- `sto_get` waits for its lock. -/
  | getWait
  /-- `sto_get` reads a row. -/
  | reading
  /-- `sto_get` has returned a row. -/
  | row
  /-- `sto_get` has met the end of the file. -/
  | atEnd
  /-- The scan is about to close its descriptor. -/
  | scanned
  /-- `sto_set` is about to take its lock. -/
  | setLock (nested : Bool)
  /-- `sto_set` waits for its lock. -/
  | setWait (nested : Bool)
  /-- `sto_set` scans and writes. -/
  | writing (nested : Bool)
  deriving DecidableEq, Repr

/-- The lock that a process waits for. -/
def Phase.request : Phase → Option LockMode
  | .getWait => some .shared
  | .setWait _ => some .exclusive
  | _ => none

/-- What a process does in a step. -/
inductive Op where
  | openFile
  | lockFile
  | wakeUp
  | readRow
  | useFile
  | nextRow
  | unlockFile
  | closeFile
  deriving DecidableEq, Repr

variable {Pid : Type} [DecidableEq Pid]

/-- Where the processes are, and the locks they hold on the file. -/
structure Processes (Pid : Type) where
  phase : Pid → Phase
  held : Pid → Option LockMode

/-- No process has called the store yet. -/
def Processes.initial : Processes Pid := { phase := fun _ => .idle, held := fun _ => none }

/-- What the processes wait for. -/
def Processes.request (s : Processes Pid) : Pid → Option LockMode :=
  fun p => (s.phase p).request

/-- One process goes on, with the lock it then holds. -/
def Processes.move (s : Processes Pid) (p : Pid) (phase : Phase) (lock : Option LockMode) :
    Processes Pid where
  phase := Function.update s.phase p phase
  held := Function.update s.held p lock

/-- A lock call: the phase before it, the lock it asks for, the phase in which
the process waits, and the phase after it. -/
inductive LockCall : Phase → LockMode → Phase → Phase → Prop
  /-- `_acquire_r_lock` of `sto_get` -/
  | get : LockCall .getLock .shared .getWait .reading
  /-- `_acquire_w_lock` of `sto_set` -/
  | set (nested : Bool) : LockCall (.setLock nested) .exclusive (.setWait nested) (.writing nested)

/-- The system calls of the processes. -/
inductive LockStep (s : Processes Pid) : Pid × Op → Processes Pid → Prop
  /-- `sto_query` of `get_airplanes` -/
  | openScan {p : Pid} (h : s.phase p = .idle) :
      LockStep s (p, .openFile) (s.move p .getLock (s.held p))
  /-- `sto_query` of `sto_set` -/
  | openSet {p : Pid} (h : s.phase p = .idle) :
      LockStep s (p, .openFile) (s.move p (.setLock false) (s.held p))
  /-- `sto_query` of the `sto_set` for a plane that came down -/
  | openNested {p : Pid} (h : s.phase p = .row) :
      LockStep s (p, .openFile) (s.move p (.setLock true) (s.held p))
  /-- The lock is free. -/
  | granted {p : Pid} {before wait after : Phase} {mode : LockMode}
      (h : s.phase p = before) (call : LockCall before mode wait after) (hfree : Free s.held p mode) :
      LockStep s (p, .lockFile) (s.move p after (some mode))
  /-- `EDEADLK`; the result is not looked at. -/
  | refused {p : Pid} {before wait after : Phase} {mode : LockMode}
      (h : s.phase p = before) (call : LockCall before mode wait after)
      (hdead : WouldDeadlock s.held s.request p mode) :
      LockStep s (p, .lockFile) (s.move p after (s.held p))
  /-- The lock is not free, and waiting for it closes no cycle. -/
  | blocked {p : Pid} {before wait after : Phase} {mode : LockMode}
      (h : s.phase p = before) (call : LockCall before mode wait after)
      (hbusy : ¬ Free s.held p mode) (hlive : ¬ WouldDeadlock s.held s.request p mode) :
      LockStep s (p, .lockFile) (s.move p wait (s.held p))
  /-- The lock has become free. -/
  | woken {p : Pid} {before wait after : Phase} {mode : LockMode}
      (h : s.phase p = wait) (call : LockCall before mode wait after) (hfree : Free s.held p mode) :
      LockStep s (p, .wakeUp) (s.move p after (some mode))
  /-- `_fetch_next_record` finds a row; `_noop_cmp` accepts it. -/
  | readRow {p : Pid} (h : s.phase p = .reading) :
      LockStep s (p, .readRow) (s.move p .row (s.held p))
  /-- `_fetch_next_record` finds the end of the file. -/
  | readEnd {p : Pid} (h : s.phase p = .reading) :
      LockStep s (p, .readRow) (s.move p .atEnd (s.held p))
  /-- `_fetch_next_record` fails; `sto_get` returns and keeps its lock. -/
  | readFails {p : Pid} (h : s.phase p = .reading) :
      LockStep s (p, .readRow) (s.move p .scanned (s.held p))
  /-- `_release_lock` of `sto_get` -/
  | unlock {p : Pid} (h : s.phase p = .atEnd) :
      LockStep s (p, .unlockFile) (s.move p .scanned none)
  /-- The next `sto_get` of the scan -/
  | next {p : Pid} (h : s.phase p = .row) :
      LockStep s (p, .nextRow) (s.move p .getLock (s.held p))
  /-- A `read` or a `write` of `sto_set` -/
  | access {p : Pid} {nested : Bool} (h : s.phase p = .writing nested) :
      LockStep s (p, .useFile) (s.move p (.writing nested) (s.held p))
  /-- `sto_close` of `sto_set`, after its last access or a failed one -/
  | closeSet {p : Pid} {nested : Bool} (h : s.phase p = .writing nested) :
      LockStep s (p, .closeFile) (s.move p (if nested then .getLock else .idle) none)
  /-- `sto_close` of `get_airplanes` -/
  | closeScan {p : Pid} (h : s.phase p = .scanned) :
      LockStep s (p, .closeFile) (s.move p .idle none)

/-! ## What a process holds where it is -/

/-- The locks with which a process can be in a phase. -/
def Phase.Agrees : Phase → Option LockMode → Prop
  | .idle, lock => lock = none
  | .getLock, lock => lock ≠ some .exclusive
  | .getWait, lock => lock = none
  | .reading, lock => lock = some .shared
  | .row, lock => lock = some .shared
  | .atEnd, lock => lock = some .shared
  | .scanned, lock => lock ≠ some .exclusive
  | .setLock nested, lock => lock = if nested then some .shared else none
  | .setWait nested, lock => lock = if nested then some .shared else none
  | .writing nested, lock => lock = some .exclusive ∨ nested = true ∧ lock = some .shared

/-- What every run keeps. -/
structure Processes.Inv (s : Processes Pid) : Prop where
  sound : Sound s.held
  agrees : ∀ p, (s.phase p).Agrees (s.held p)

/-- Every process that scans and writes holds the exclusive lock, and meanwhile
no other one scans and writes, or reads a row. -/
def Processes.Excludes (s : Processes Pid) : Prop :=
  ∀ p nested, s.phase p = .writing nested → s.held p = some .exclusive ∧
    ∀ q, q ≠ p → (∀ other, s.phase q ≠ .writing other) ∧ s.phase q ≠ .reading

/-- No scan asks for the exclusive lock while another scan waits for it. -/
def OneUpgrade (s : Processes Pid) (event : Pid × Op) : Prop :=
  event.2 = .lockFile → s.phase event.1 = .setLock true →
    ∀ q, q ≠ event.1 → s.phase q ≠ .setWait true

section Step

variable {s : Processes Pid} {p : Pid} {phase : Phase} {lock : Option LockMode}

theorem move_phase_self : (s.move p phase lock).phase p = phase := Function.update_self ..

theorem move_phase_of_ne {q : Pid} (h : q ≠ p) : (s.move p phase lock).phase q = s.phase q :=
  Function.update_of_ne h _ _

theorem move_held_self : (s.move p phase lock).held p = lock := Function.update_self ..

theorem move_held_of_ne {q : Pid} (h : q ≠ p) : (s.move p phase lock).held q = s.held q :=
  Function.update_of_ne h _ _

theorem move_of_eq (h : s.phase p = phase) : s.move p phase (s.held p) = s := by
  rw [Processes.move, ← h, Function.update_eq_self, Function.update_eq_self]

omit [DecidableEq Pid] in
theorem Processes.Inv.agrees_of (inv : s.Inv) (h : s.phase p = phase) :
    phase.Agrees (s.held p) := h ▸ inv.agrees p

/-- A step keeps the invariant if the process that takes it agrees with its lock,
and the table of locks stays sound. -/
theorem Processes.Inv.move (inv : s.Inv) (agrees : phase.Agrees lock)
    (sound : Sound (Function.update s.held p lock)) : (s.move p phase lock).Inv where
  sound := sound
  agrees := by
    intro q
    by_cases hq : q = p
    · rw [hq, move_phase_self, move_held_self]
      exact agrees
    · rw [move_phase_of_ne hq, move_held_of_ne hq]
      exact inv.agrees q

/-- A step that keeps its lock keeps the table. -/
theorem Processes.Inv.keep (inv : s.Inv) (agrees : phase.Agrees (s.held p)) :
    (s.move p phase (s.held p)).Inv := by
  refine inv.move agrees ?_
  rw [Function.update_eq_self]
  exact inv.sound

theorem Processes.Inv.drop (inv : s.Inv) (agrees : phase.Agrees none) :
    (s.move p phase none).Inv :=
  inv.move agrees inv.sound.update_none

/-! ## Who is refused a lock -/

omit [DecidableEq Pid] in
/-- A process that waits for a lock while it holds one is a scan that wants to
store a plane. -/
theorem Processes.Inv.waiter (inv : s.Inv) {q : Pid} {own wanted : LockMode}
    (hheld : s.held q = some own) (hrequest : s.request q = some wanted) :
    s.phase q = .setWait true ∧ own = .shared := by
  have hagrees := inv.agrees q
  rw [hheld] at hagrees
  unfold Processes.request at hrequest
  cases hphase : s.phase q with
  | getWait =>
      rw [hphase] at hagrees
      exact absurd hagrees (by simp [Phase.Agrees])
  | setWait nested =>
      rw [hphase] at hagrees
      cases nested with
      | true => exact ⟨rfl, Option.some.inj hagrees⟩
      | false => exact absurd hagrees (by simp [Phase.Agrees])
  | idle | getLock | reading | row | atEnd | scanned | setLock | writing =>
      rw [hphase] at hrequest
      exact absurd hrequest (by simp [Phase.request])

omit [DecidableEq Pid] in
/-- Only the upgrade of a scan is ever refused. -/
theorem Processes.Inv.refused (inv : s.Inv) {before wait after : Phase} {mode : LockMode}
    (h : s.phase p = before) (call : LockCall before mode wait after)
    (hdead : WouldDeadlock s.held s.request p mode) :
    before = .setLock true ∧ ∃ q, q ≠ p ∧ s.phase q = .setWait true := by
  obtain ⟨q, ⟨hne, other, hother, hconflict⟩, wanted, hwanted⟩ := hdead.waiter
  obtain ⟨hwait, rfl⟩ := inv.waiter hother hwanted
  obtain ⟨own, hown⟩ := hdead.holds
  have hagrees := inv.agrees p
  rw [h, hown] at hagrees
  cases call with
  | get => exact absurd hconflict (by simp [LockMode.Conflicts])
  | set nested =>
      cases nested with
      | true => exact ⟨rfl, q, hne, hwait⟩
      | false => exact absurd hagrees (by simp [Phase.Agrees])

omit [DecidableEq Pid] in
/-- An upgrade is refused while another scan waits for one. -/
theorem Processes.Inv.wouldDeadlock (inv : s.Inv) {q : Pid} (h : s.phase p = .setLock true)
    (hne : q ≠ p) (hwait : s.phase q = .setWait true) :
    WouldDeadlock s.held s.request p .exclusive := by
  have hp : s.held p = some .shared := by
    have := inv.agrees p
    rwa [h] at this
  have hq : s.held q = some .shared := by
    have := inv.agrees q
    rwa [hwait] at this
  have hrequest : s.request q = some .exclusive := by
    rw [Processes.request, hwait]
    rfl
  exact wouldDeadlock_of_mutual ⟨hne, .shared, hq, LockMode.exclusive_conflicts _⟩ hrequest
    ⟨hne.symm, .shared, hp, LockMode.exclusive_conflicts _⟩

/-! ## The steps -/

theorem not_exclusive_of_none {lock : Option LockMode} (h : lock = none) :
    lock ≠ some .exclusive := by
  rw [h]
  simp

theorem not_exclusive_of_shared {lock : Option LockMode} (h : lock = some .shared) :
    lock ≠ some .exclusive := by
  rw [h]
  simp

/-- A process that gets its lock agrees with it. -/
theorem agrees_granted {before wait after : Phase} {mode : LockMode}
    (call : LockCall before mode wait after) : after.Agrees (some mode) := by
  cases call with
  | get => rfl
  | set nested => exact Or.inl rfl

/-- A process that has to wait for its lock keeps what it held. -/
theorem agrees_blocked {before wait after : Phase} {mode : LockMode} {lock : Option LockMode}
    (call : LockCall before mode wait after) (agrees : before.Agrees lock)
    (hget : before = .getLock → lock ≠ some .shared) : wait.Agrees lock := by
  cases call with
  | get =>
      cases lock with
      | none => rfl
      | some own =>
          cases own with
          | shared => exact absurd rfl (hget rfl)
          | exclusive => exact absurd rfl agrees
  | set nested => exact agrees

omit [DecidableEq Pid] in
/-- A process that holds a shared lock is not blocked when it asks for one. -/
theorem Processes.Inv.free_shared (inv : s.Inv) (hheld : s.held p = some .shared) :
    Free s.held p .shared := by
  rintro q ⟨hne, other, hother, hconflict⟩
  cases other with
  | shared => exact hconflict
  | exclusive =>
      have := inv.sound q p hne hother
      rw [hheld] at this
      exact absurd this (by simp)

/-- **Every step keeps the invariant.** -/
theorem Processes.Inv.step (inv : s.Inv) {event : Pid × Op} {t : Processes Pid}
    (step : LockStep s event t) : t.Inv := by
  cases step with
  | openScan h =>
      have hnone := inv.agrees_of h
      exact inv.keep (not_exclusive_of_none hnone)
  | openSet h =>
      have hnone := inv.agrees_of h
      exact inv.keep hnone
  | openNested h =>
      have hshared := inv.agrees_of h
      exact inv.keep hshared
  | granted h call hfree => exact inv.move (agrees_granted call) (sound_update_some hfree)
  | refused h call hdead =>
      obtain ⟨rfl, _⟩ := inv.refused h call hdead
      have hshared := inv.agrees_of h
      cases call with
      | set nested => exact inv.keep (Or.inr ⟨rfl, hshared⟩)
  | blocked h call hbusy hlive =>
      refine inv.keep (agrees_blocked call (inv.agrees_of h) fun hget hheld => ?_)
      subst hget
      cases call with
      | get => exact hbusy (inv.free_shared hheld)
  | woken h call hfree => exact inv.move (agrees_granted call) (sound_update_some hfree)
  | readRow h =>
      have hshared := inv.agrees_of h
      exact inv.keep hshared
  | readEnd h =>
      have hshared := inv.agrees_of h
      exact inv.keep hshared
  | readFails h =>
      have hshared := inv.agrees_of h
      exact inv.keep (not_exclusive_of_shared hshared)
  | unlock h => exact inv.drop (not_exclusive_of_none rfl)
  | next h =>
      have hshared := inv.agrees_of h
      exact inv.keep (not_exclusive_of_shared hshared)
  | access h => exact inv.keep (inv.agrees_of h)
  | @closeSet p nested h =>
      refine inv.drop ?_
      cases nested with
      | true => exact not_exclusive_of_none rfl
      | false => rfl
  | closeScan h => exact inv.drop rfl

/-! ## Exclusion -/

/-- A process that neither scans and writes nor reads disturbs nobody. -/
theorem Processes.Excludes.move (excludes : s.Excludes)
    (hwrites : ∀ nested, phase ≠ .writing nested) (hreads : phase ≠ .reading) :
    (s.move p phase lock).Excludes := by
  intro r nested hr
  by_cases hrp : r = p
  · rw [hrp, move_phase_self] at hr
    exact absurd hr (hwrites nested)
  · rw [move_phase_of_ne hrp] at hr
    obtain ⟨hheld, hothers⟩ := excludes r nested hr
    refine ⟨by rw [move_held_of_ne hrp]; exact hheld, ?_⟩
    intro q hq
    by_cases hqp : q = p
    · rw [hqp, move_phase_self]
      exact ⟨hwrites, hreads⟩
    · rw [move_phase_of_ne hqp]
      exact hothers q hq

/-- A process that gets its lock finds nobody in its way. -/
theorem Processes.Excludes.granted (excludes : s.Excludes) (inv : s.Inv)
    {before wait after : Phase} {mode : LockMode} (call : LockCall before mode wait after)
    (hfree : Free s.held p mode) : (s.move p after (some mode)).Excludes := by
  have hnobody : ∀ r, r ≠ p → ∀ nested, s.phase r ≠ .writing nested := by
    intro r hrp nested hr
    exact hfree.not_exclusive hrp (excludes r nested hr).1
  intro r nested hr
  by_cases hrp : r = p
  · subst hrp
    rw [move_phase_self] at hr
    cases call with
    | get => exact absurd hr (by simp)
    | set _ =>
        refine ⟨move_held_self, ?_⟩
        intro q hq
        rw [move_phase_of_ne hq]
        refine ⟨hnobody q hq, fun hreads => ?_⟩
        have hshared := inv.agrees_of hreads
        rw [hfree.none_of_exclusive hq] at hshared
        exact absurd hshared (by simp [Phase.Agrees])
  · rw [move_phase_of_ne hrp] at hr
    exact absurd hr (hnobody r hrp nested)

/-- One step keeps the exclusion exactly if it is not the second of two upgrades. -/
theorem excludes_iff (inv : s.Inv) (excludes : s.Excludes) {event : Pid × Op}
    {t : Processes Pid} (step : LockStep s event t) :
    t.Excludes ↔ OneUpgrade s event := by
  cases step with
  | granted h call hfree =>
      refine iff_of_true (excludes.granted inv call hfree) fun _ hset q hq hwait => ?_
      obtain rfl := h.symm.trans hset
      cases call with
      | set _ =>
          have hshared := inv.agrees_of hwait
          rw [hfree.none_of_exclusive hq] at hshared
          exact absurd hshared (by simp [Phase.Agrees])
  | refused h call hdead =>
      obtain ⟨rfl, q, hq, hwait⟩ := inv.refused h call hdead
      refine iff_of_false (fun hexcludes => ?_) fun hone => hone rfl h q hq hwait
      have hshared := inv.agrees_of h
      cases call with
      | set _ =>
          have hheld := (hexcludes _ true move_phase_self).1
          rw [move_held_self, hshared] at hheld
          exact absurd hheld (by simp)
  | blocked h call hbusy hlive =>
      refine iff_of_true (excludes.move ?_ ?_) fun _ hset q hq hwait => ?_
      · intro nested
        cases call <;> simp
      · cases call <;> simp
      · obtain rfl := h.symm.trans hset
        cases call with
        | set _ => exact hlive (inv.wouldDeadlock hset hq hwait)
  | woken h call hfree =>
      exact iff_of_true (excludes.granted inv call hfree) fun hlock => absurd hlock (by simp)
  | @access p nested h =>
      refine iff_of_true ?_ fun hlock => absurd hlock (by simp)
      have hsame : s.move p (.writing nested) (s.held p) = s := by
        rw [Processes.move, ← h, Function.update_eq_self, Function.update_eq_self]
      rw [hsame]
      exact excludes
  | @closeSet p nested h =>
      refine iff_of_true (excludes.move ?_ ?_) fun hlock => absurd hlock (by simp)
      · intro other
        cases nested <;> simp
      · cases nested <;> simp
  | openScan | openSet | openNested | readRow | readEnd | readFails | unlock | next
  | closeScan =>
      exact iff_of_true (excludes.move (by simp) (by simp)) fun hlock => absurd hlock (by simp)

omit [DecidableEq Pid] in
theorem lockInv_initial : (Processes.initial : Processes Pid).Inv where
  sound := by
    intro p q _ hheld
    exact absurd hheld (by simp [Processes.initial])
  agrees := fun _ => rfl

/-! ## Two scans that want to write -/

theorem move_move {phase' : Phase} {lock' : Option LockMode} :
    (s.move p phase lock).move p phase' lock' = s.move p phase' lock' := by
  simp only [Processes.move, Function.update_idem]

theorem move_held : (s.move p phase (s.held p)).held = s.held := Function.update_eq_self p s.held

/-- The calls of a scan up to the first plane that it wants to store. -/
def scanToUpgrade (p : Pid) : List (Pid × Op) :=
  [(p, .openFile), (p, .lockFile), (p, .readRow), (p, .openFile)]

theorem run_scanToUpgrade (h : s.phase p = .idle) (hfree : Free s.held p .shared) :
    ∃ trace, Run LockStep s trace (s.move p (.setLock true) (some .shared)) ∧
      trace.map Prod.fst = scanToUpgrade p := by
  have hopen := LockStep.openScan h
  have hlock : LockStep _ (p, .lockFile) _ :=
    .granted (s := s.move p .getLock (s.held p)) move_phase_self .get (by rwa [move_held])
  rw [move_move] at hlock
  have hread : LockStep _ (p, .readRow) _ :=
    .readRow (s := s.move p .reading (some .shared)) move_phase_self
  rw [move_move, move_held_self] at hread
  have hnested : LockStep _ (p, .openFile) _ :=
    .openNested (s := s.move p .row (some .shared)) move_phase_self
  rw [move_move, move_held_self] at hnested
  exact ⟨_, .cons hopen (.cons hlock (.cons hread (.cons hnested (.nil _)))), rfl⟩

/-- Two scans come to store a plane each; one waits for the exclusive lock and the
other is refused it. -/
theorem exists_twoUpgrades :
    ∃ (trace : List ((Bool × Op) × Processes Bool)) (s : Processes Bool),
      Run LockStep Processes.initial trace s ∧
        trace.map Prod.fst =
          scanToUpgrade false ++ scanToUpgrade true ++ [(false, .lockFile), (true, .lockFile)] ∧
        s.phase true = .writing true ∧ s.held true = some .shared := by
  have hnobody : Free (Processes.initial : Processes Bool).held false .shared :=
    free_of_none fun _ _ => rfl
  obtain ⟨left, hleft, heventsLeft⟩ := run_scanToUpgrade rfl hnobody
  have invLeft := Run.invariant Processes.Inv (fun _ _ _ inv step => inv.step step) hleft
    lockInv_initial
  let s₁ : Processes Bool := Processes.initial.move false (.setLock true) (some .shared)
  have hsharing : Free s₁.held true .shared := by
    rintro q ⟨hne, other, hother, hconflict⟩
    obtain rfl : q = false := by simpa using hne
    obtain rfl : LockMode.shared = other := Option.some.inj hother
    exact hconflict
  obtain ⟨right, hright, heventsRight⟩ := run_scanToUpgrade (s := s₁) rfl hsharing
  let s₂ : Processes Bool := s₁.move true (.setLock true) (some .shared)
  have invRight : s₂.Inv := Run.invariant Processes.Inv (fun _ _ _ inv step => inv.step step)
    hright invLeft
  have hwait : LockStep s₂ (false, .lockFile) (s₂.move false (.setWait true) (s₂.held false)) := by
    refine .blocked rfl (.set true) (fun hfree => ?_) fun hdead => ?_
    · exact hfree true ⟨by simp, .shared, rfl, trivial⟩
    · -- nobody waits yet
      obtain ⟨q, _, wanted, hwanted⟩ := hdead.waiter
      cases q <;> exact absurd hwanted (by simp [s₂, s₁, Processes.request, Processes.move,
        Phase.request])
  let s₃ : Processes Bool := s₂.move false (.setWait true) (s₂.held false)
  have hne : false ≠ true := by decide
  have hrefused : LockStep s₃ (true, .lockFile) (s₃.move true (.writing true) (s₃.held true)) :=
    .refused rfl (.set true) ((invRight.step hwait).wouldDeadlock rfl hne rfl)
  refine ⟨_, _, (hleft.append hright).append (.cons hwait (.cons hrefused (.nil _))), ?_,
    rfl, rfl⟩
  rw [List.map_append, List.map_append, heventsLeft, heventsRight]
  rfl

/-! ## Runs -/

/-- **When writers exclude everybody.**  Throughout a run every process that scans
and writes holds the exclusive lock, alone with the file, exactly if no scan ever
asks for that lock while another scan waits for it. -/
theorem writers_exclude_iff {trace : List ((Pid × Op) × Processes Pid)} {s : Processes Pid}
    (run : Run LockStep Processes.initial trace s) :
    (∀ v ∈ states Processes.initial trace, v.Excludes) ↔
      Run (Guarded LockStep OneUpgrade) Processes.initial trace s :=
  Run.forall_states_iff Processes.Inv Processes.Excludes OneUpgrade
    (fun _ _ _ inv step _ => inv.step step)
    (fun _ _ _ inv excludes step => excludes_iff inv excludes step) run lockInv_initial
    fun _ _ h => absurd h (by simp [Processes.initial])

theorem writers_exclude_iff_twoUpgrades :
    ∃ (trace : List ((Bool × Op) × Processes Bool)) (s : Processes Bool),
      Run LockStep Processes.initial trace s ∧
        ((∀ v ∈ states Processes.initial trace, v.Excludes) ↔
          Run (Guarded LockStep OneUpgrade) Processes.initial trace s) := by
  obtain ⟨trace, s, run, _⟩ := exists_twoUpgrades
  exact ⟨trace, s, run, writers_exclude_iff run⟩

/-- The scan that is refused the exclusive lock writes under its shared one. -/
theorem twoUpgrades_overlap :
    ∃ (trace : List ((Bool × Op) × Processes Bool)) (s : Processes Bool),
      Run LockStep Processes.initial trace s ∧
        trace.map Prod.fst =
          scanToUpgrade false ++ scanToUpgrade true ++ [(false, .lockFile), (true, .lockFile)] ∧
        ¬ ∀ v ∈ states Processes.initial trace, v.Excludes := by
  obtain ⟨trace, s, run, hevents, hwrites, hshared⟩ := exists_twoUpgrades
  refine ⟨trace, s, run, hevents, fun hall => ?_⟩
  obtain ⟨hexclusive, _⟩ := hall s run.mem_states true true hwrites
  rw [hshared] at hexclusive
  exact absurd hexclusive (by simp)

end Step

end AirTraffic.Storage
