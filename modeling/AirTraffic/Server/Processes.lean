/-
  Server/Processes.lean --- the server's processes.

  WHAT THIS FILE IS FOR.  `listen_channels` accepts clients and forks a worker
  for each; `srv_sigchld_handler` reaps the workers that exit.  The processes are
  a tree that grows by `fork`, each with its own copy of the table of clients,
  and they interleave in any order.  Two things go wrong with control flow here.
  A worker whose client has left returns into the loop it was forked in
  (`own_client_only_iff`), and an accept that a signal interrupts ends the loop
  of the server (`keeps_listening_iff`).
-/
import AirTraffic.Server.Clients

set_option autoImplicit false

namespace AirTraffic.Server

open AirTraffic.Foundation

variable {κ : Type}

/-! ## Processes -/

/-- Where a process is. -/
inductive Stage (κ : Type) where
  /-- At the top of the loop of `listen_channels`. -/
  | deciding
  /-- In `atc_accept`, blocked or about to be. -/
  | accepting (blocked : Bool)
  /-- In `fork_client`, before `fork`. -/
  | forking (conn : κ)
  /-- In `listen_child_channels`. -/
  | serving (conn : κ)
  /-- `listen_channels` has returned. -/
  | returned
  deriving DecidableEq

/-- Where the handler of a signal returns to: an `accept` that was blocked returns
-1, and `listen_channels` with it. -/
def Stage.interrupted : Stage κ → Stage κ
  | .accepting true => .returned
  | stage => stage

/-- The process accepts connections or forks. -/
def Stage.Accepts : Stage κ → Prop
  | .accepting _ => True
  | .forking _ => True
  | _ => False

structure Process (κ : Type) where
  parent : Int
  /-- The connection it was forked for; the server itself has none. -/
  client : Option κ
  table : ClientTable κ
  stage : Stage κ
  /-- A SIGCHLD that was not delivered yet. -/
  pending : Bool := false
  /-- In `srv_sigchld_handler`. -/
  handling : Bool := false
  exited : Bool := false
  /-- The connections whose requests it handled. -/
  served : List κ := []

/-- It can go on in `listen_channels`. -/
def Process.Ready (proc : Process κ) : Prop := proc.handling = false ∧ proc.exited = false

/-- The processes by their pids, and the pid of the one that `main` runs in. -/
structure Processes (κ : Type) where
  main : Int
  procs : Int → Option (Process κ)

namespace Processes

/-- A process is replaced, added or taken away. -/
def put (s : Processes κ) (p : Int) (proc : Option (Process κ)) : Processes κ :=
  { s with procs := fun q => if q = p then proc else s.procs q }

/-- What holds of every process. -/
def Each (s : Processes κ) (Q : Int → Process κ → Prop) : Prop :=
  ∀ p proc, s.procs p = some proc → Q p proc

/-- There is a process whose parent is `p`. -/
def HasChild (s : Processes κ) (p : Int) : Prop :=
  ∃ child proc, s.procs child = some proc ∧ proc.parent = p

/-- Process `p` exits: its parent is signalled, and its children lose theirs. -/
def exit (s : Processes κ) (p parent : Int) (proc : Process κ) : Processes κ :=
  { s with
    procs := fun q =>
      if q = p then some { proc with exited := true }
      else
        (s.procs q).map fun other =>
          { other with
            parent := if other.parent = p then 0 else other.parent
            pending := other.pending || decide (q = parent) } }

/-- The server when `main` calls `listen_channels`. -/
def initial (main : Int) (conn : κ) : Processes κ where
  main := main
  procs := fun p =>
    if p = main then
      some { parent := 0, client := none, table := .initial conn, stage := .deciding }
    else none

end Processes

/-! ## Steps -/

inductive ProcessEvent (κ : Type) where
  /-- The test of `cur_clients`. -/
  | test (p : Int)
  /-- `accept` starts to wait. -/
  | block (p : Int)
  | connect (p : Int) (conn : κ)
  /-- `accept` fails on its own account. -/
  | refuse (p : Int)
  /-- `fork`, with what it returns to the parent. -/
  | fork (p child : Int)
  /-- A round of `atc_reply` that does not return -1. -/
  | request (p : Int)
  /-- `atc_reply` returns -1. -/
  | hangUp (p : Int)
  | exit (p : Int)
  /-- SIGCHLD is delivered. -/
  | deliver (p : Int)
  /-- A round of the handler: `waitpid` and what follows. -/
  | waitpid (p : Int)

/-- One step of one process. -/
inductive ProcessStep : Processes κ → ProcessEvent κ → Processes κ → Prop
  | test {s : Processes κ} {p : Int} {proc : Process κ} (here : s.procs p = some proc)
      (ready : proc.Ready) (stage : proc.stage = .deciding) :
      ProcessStep s (.test p) (s.put p (some
        { proc with stage := if proc.table.HasRoom then .accepting false else .deciding }))
  | block {s : Processes κ} {p : Int} {proc : Process κ} (here : s.procs p = some proc)
      (ready : proc.Ready) (stage : proc.stage = .accepting false) :
      ProcessStep s (.block p) (s.put p (some { proc with stage := .accepting true }))
  | connect {s : Processes κ} {p : Int} {proc : Process κ} (here : s.procs p = some proc)
      (ready : proc.Ready) {blocked : Bool} (stage : proc.stage = .accepting blocked) (conn : κ) :
      ProcessStep s (.connect p conn) (s.put p (some { proc with stage := .forking conn }))
  | refuse {s : Processes κ} {p : Int} {proc : Process κ} (here : s.procs p = some proc)
      (ready : proc.Ready) {blocked : Bool} (stage : proc.stage = .accepting blocked) :
      ProcessStep s (.refuse p) (s.put p (some { proc with stage := .returned }))
  | fork {s : Processes κ} {p : Int} {proc : Process κ} (here : s.procs p = some proc)
      (ready : proc.Ready) {conn : κ} (stage : proc.stage = .forking conn) {child : Int}
      (positive : 0 < child) (fresh : s.procs child = none) :
      ProcessStep s (.fork p child)
        ((s.put p (some { proc with
            table := forkClient conn child proc.table, stage := .deciding })).put child (some
          -- only `cur_clients++` comes before `listen_child_channels`
          { parent := p
            client := some conn
            table := { proc.table with curClients := proc.table.curClients + 1 }
            stage := .serving conn }))
  | forkFails {s : Processes κ} {p : Int} {proc : Process κ} (here : s.procs p = some proc)
      (ready : proc.Ready) {conn : κ} (stage : proc.stage = .forking conn) :
      ProcessStep s (.fork p (-1)) (s.put p (some { proc with
        table := forkClient conn (-1) proc.table, stage := .deciding }))
  | request {s : Processes κ} {p : Int} {proc : Process κ} (here : s.procs p = some proc)
      (ready : proc.Ready) {conn : κ} (stage : proc.stage = .serving conn) :
      ProcessStep s (.request p) (s.put p (some { proc with served := proc.served ++ [conn] }))
  | hangUp {s : Processes κ} {p : Int} {proc : Process κ} (here : s.procs p = some proc)
      (ready : proc.Ready) {conn : κ} (stage : proc.stage = .serving conn) :
      -- `listen_child_channels` and `fork_client` return into `listen_channels`
      ProcessStep s (.hangUp p) (s.put p (some { proc with stage := .deciding }))
  | exit {s : Processes κ} {p : Int} {proc : Process κ} (here : s.procs p = some proc)
      (running : proc.exited = false) (worker : p ≠ s.main) :
      ProcessStep s (.exit p) (s.exit p proc.parent proc)
  | deliver {s : Processes κ} {p : Int} {proc : Process κ} (here : s.procs p = some proc)
      (ready : proc.Ready) (pending : proc.pending = true) :
      ProcessStep s (.deliver p) (s.put p (some { proc with handling := true, pending := false }))
  | reap {s : Processes κ} {p : Int} {proc : Process κ} (here : s.procs p = some proc)
      (handling : proc.handling = true) (running : proc.exited = false) {child : Int}
      {dead : Process κ} (found : s.procs child = some dead) (parent : dead.parent = p)
      (exited : dead.exited = true) :
      ProcessStep s (.waitpid p) ((s.put p (some
        { proc with table := (killClient child proc.table).1 })).put child none)
  | reapNone {s : Processes κ} {p : Int} {proc : Process κ} (here : s.procs p = some proc)
      (handling : proc.handling = true) (running : proc.exited = false)
      (child : s.HasChild p) (alive : s.Each fun _ other => other.parent = p →
        other.exited = false) :
      -- `waitpid` returns 0, which is not -1
      ProcessStep s (.waitpid p) (s.put p (some
        { proc with table := (killClient 0 proc.table).1 }))
  | resume {s : Processes κ} {p : Int} {proc : Process κ} (here : s.procs p = some proc)
      (handling : proc.handling = true) (running : proc.exited = false)
      (childless : ¬ s.HasChild p) :
      ProcessStep s (.waitpid p) (s.put p (some
        { proc with handling := false, stage := proc.stage.interrupted }))

/-! ## What holds of every process -/

namespace Processes

variable {Q : Int → Process κ → Prop} {s : Processes κ}

theorem each_put {p : Int} {proc : Process κ} (h : s.Each Q) (hp : Q p proc) :
    (s.put p (some proc)).Each Q := by
  intro q other hq
  by_cases hqp : q = p
  · subst hqp
    obtain rfl := Option.some.inj ((if_pos rfl).symm.trans hq)
    exact hp
  · exact h q other ((if_neg hqp).symm.trans hq)

theorem each_remove (p : Int) (h : s.Each Q) : (s.put p none).Each Q := by
  intro q other hq
  by_cases hqp : q = p
  · exact absurd ((if_pos hqp).symm.trans hq) (by simp)
  · exact h q other ((if_neg hqp).symm.trans hq)

/-- An exit changes only who is whose parent and which signals are pending. -/
theorem each_exit {p parent : Int} {proc : Process κ} (here : s.procs p = some proc)
    (h : s.Each Q)
    (kept : ∀ q other parent pending exited, Q q other →
      Q q { other with parent := parent, pending := pending, exited := exited }) :
    (s.exit p parent proc).Each Q := by
  intro q other hq
  by_cases hqp : q = p
  · subst hqp
    obtain rfl := Option.some.inj ((if_pos rfl).symm.trans hq)
    exact kept q proc proc.parent proc.pending true (h q proc here)
  · obtain ⟨before, hbefore, rfl⟩ := Option.map_eq_some_iff.mp ((if_neg hqp).symm.trans hq)
    exact kept q before _ _ before.exited (h q before hbefore)

@[simp] theorem procs_put_self (p : Int) (proc : Option (Process κ)) :
    (s.put p proc).procs p = proc := if_pos rfl

theorem procs_put_of_ne {p q : Int} (h : q ≠ p) (proc : Option (Process κ)) :
    (s.put p proc).procs q = s.procs q := if_neg h

@[simp] theorem main_put (p : Int) (proc : Option (Process κ)) : (s.put p proc).main = s.main := rfl

end Processes

/-! ## Workers and their clients -/

/-- A process that handled only the requests of its own client, and that does not
accept or fork unless it is the one `main` runs in. -/
structure OwnClientOnly (main p : Int) (proc : Process κ) : Prop where
  served : ∀ conn ∈ proc.served, proc.client = some conn
  accepts : proc.stage.Accepts → p = main

/-- A worker is at the top of the loop of `listen_channels`, where it gets when
its client has left, only with a table without room. -/
def LoopsFull (s : Processes κ) : ProcessEvent κ → Prop
  | .test p => p ≠ s.main → s.Each fun q proc => q = p → ¬ proc.table.HasRoom
  | _ => True

/-- A worker serves the connection it was forked for. -/
def ServesClient (_ : Int) (proc : Process κ) : Prop :=
  ∀ conn, proc.stage = .serving conn → proc.client = some conn

theorem serving_of_interrupted {stage : Stage κ} {conn : κ}
    (h : stage.interrupted = .serving conn) : stage = .serving conn := by
  cases stage with
  | accepting blocked => cases blocked <;> exact absurd h (by simp [Stage.interrupted])
  | deciding | forking | serving | returned => exact h

theorem accepts_of_interrupted {stage : Stage κ} (h : stage.interrupted.Accepts) :
    stage.Accepts := by
  cases stage with
  | accepting blocked => trivial
  | deciding | forking | serving | returned => exact h

theorem servesClient_step {s t : Processes κ} {e : ProcessEvent κ} (inv : s.Each ServesClient)
    (step : ProcessStep s e t) : t.Each ServesClient := by
  cases step with
  | @test p proc here ready stage =>
      apply Processes.each_put inv
      intro conn h
      dsimp only at h
      split at h <;> exact absurd h (by simp)
  | block | connect | refuse | forkFails | hangUp =>
      apply Processes.each_put inv
      intro conn h
      exact absurd h (by simp)
  | fork here ready stage positive fresh =>
      apply Processes.each_put
      · apply Processes.each_put inv
        intro conn h
        exact absurd h (by simp)
      · intro conn h
        exact congrArg some (Stage.serving.inj h)
  | request here | deliver here | reapNone here =>
      have kept := inv _ _ here
      exact Processes.each_put inv kept
  | exit here =>
      exact Processes.each_exit here inv fun _ _ _ _ _ h => h
  | reap here =>
      have kept := inv _ _ here
      exact Processes.each_remove _ (Processes.each_put inv kept)
  | resume here =>
      apply Processes.each_put inv
      intro conn h
      exact inv _ _ here conn (serving_of_interrupted h)

/-- One step. -/
theorem ownClientOnly_iff {s t : Processes κ} {e : ProcessEvent κ} (inv : s.Each ServesClient)
    (own : s.Each (OwnClientOnly s.main)) (step : ProcessStep s e t) :
    t.Each (OwnClientOnly s.main) ↔ LoopsFull s e := by
  cases step with
  | @test p proc here ready stage =>
      have kept := own p proc here
      constructor
      · intro h worker q other hq heq hroom
        subst heq
        obtain rfl := Option.some.inj (here.symm.trans hq)
        exact worker ((h q _ (Processes.procs_put_self q _)).accepts
          (by simp [hroom, Stage.Accepts]))
      · intro h
        refine Processes.each_put own { served := kept.served, accepts := ?_ }
        intro haccepts
        by_contra worker
        simp [h worker p proc here rfl, Stage.Accepts] at haccepts
  | block here ready stage | connect here ready stage =>
      have kept := own _ _ here
      have hmain := kept.accepts (by rw [stage]; trivial)
      exact iff_of_true (Processes.each_put own ⟨kept.served, fun _ => hmain⟩) trivial
  | refuse here ready stage | forkFails here ready stage | hangUp here ready stage =>
      have kept := own _ _ here
      exact iff_of_true (Processes.each_put own ⟨kept.served, fun h => absurd h id⟩) trivial
  | fork here ready stage positive fresh =>
      have kept := own _ _ here
      refine iff_of_true (Processes.each_put
        (Processes.each_put own ⟨kept.served, fun h => absurd h id⟩) ⟨?_, fun h => absurd h id⟩)
        trivial
      intro conn h
      exact absurd h (by simp)
  | @request p proc here ready conn stage =>
      have kept := own p proc here
      refine iff_of_true (Processes.each_put own ⟨?_, kept.accepts⟩) trivial
      intro other h
      rcases List.mem_append.mp h with h | h
      · exact kept.served other h
      · obtain rfl := List.mem_singleton.mp h
        exact inv p proc here other stage
  | deliver here | reapNone here =>
      have kept := own _ _ here
      exact iff_of_true (Processes.each_put own ⟨kept.served, kept.accepts⟩) trivial
  | exit here =>
      exact iff_of_true
        (Processes.each_exit here own fun _ _ _ _ _ h => ⟨h.served, h.accepts⟩) trivial
  | reap here =>
      have kept := own _ _ here
      exact iff_of_true
        (Processes.each_remove _ (Processes.each_put own ⟨kept.served, kept.accepts⟩)) trivial
  | resume here =>
      have kept := own _ _ here
      exact iff_of_true (Processes.each_put own
        ⟨kept.served, fun h => kept.accepts (accepts_of_interrupted h)⟩) trivial

/-- No step changes which process `main` runs in. -/
theorem main_step {s t : Processes κ} {e : ProcessEvent κ} (step : ProcessStep s e t) :
    t.main = s.main := by
  cases step <;> rfl

theorem each_initial {Q : Int → Process κ → Prop} {main : Int} {conn : κ}
    (h : Q main
      { parent := 0, client := none, table := .initial conn, stage := .deciding }) :
    (Processes.initial main conn).Each Q := by
  have hnone : (Processes.mk main fun _ : Int => (none : Option (Process κ))).Each Q :=
    fun _ _ hq => absurd hq (by simp)
  exact Processes.each_put hnone h

/-- **When workers serve their own clients only.**  Throughout a run no process
handles a request of another one's client, and only the one of `main` accepts and
forks, exactly if no worker gets back to the loop of `listen_channels` with room
in its table. -/
theorem own_client_only_iff {main : Int} {conn : κ}
    {trace : List (ProcessEvent κ × Processes κ)} {t : Processes κ}
    (run : Run ProcessStep (Processes.initial main conn) trace t) :
    (∀ v ∈ states (Processes.initial main conn) trace, v.Each (OwnClientOnly main)) ↔
      Run (Guarded ProcessStep LoopsFull) (Processes.initial main conn) trace t := by
  apply run.forall_states_iff (fun v => v.main = main ∧ v.Each ServesClient)
    (fun v => v.Each (OwnClientOnly main)) LoopsFull
  · rintro s e t ⟨hmain, inv⟩ step _
    exact ⟨(main_step step).trans hmain, servesClient_step inv step⟩
  · rintro s e t ⟨rfl, inv⟩ own step
    exact ownClientOnly_iff inv own step
  · exact ⟨rfl, each_initial fun _ h => absurd h (by simp)⟩
  · exact each_initial ⟨by simp, fun _ => rfl⟩

/-- A client comes and leaves, and its worker looks for the next one. -/
def heirEvents : List (ProcessEvent Nat) :=
  [.test 1, .connect 1 7, .fork 1 2, .hangUp 2, .test 2]

theorem exists_heir :
    ∃ (trace : List (ProcessEvent Nat × Processes Nat)) (t : Processes Nat),
      Run ProcessStep (Processes.initial 1 0) trace t ∧ trace.map Prod.fst = heirEvents ∧
        (t.procs 2).map Process.stage = some (.accepting false) :=
  ⟨_, _, .cons (.test rfl ⟨rfl, rfl⟩ rfl) (.cons (.connect rfl ⟨rfl, rfl⟩ rfl 7)
    (.cons (.fork rfl ⟨rfl, rfl⟩ rfl (by decide) rfl)
      (.cons (.hangUp rfl ⟨rfl, rfl⟩ rfl) (.cons (.test rfl ⟨rfl, rfl⟩ rfl) (.nil _))))),
    rfl, rfl⟩

theorem own_client_only_iff_heir :
    ∃ (trace : List (ProcessEvent Nat × Processes Nat)) (t : Processes Nat),
      trace.map Prod.fst = heirEvents ∧
        ((∀ v ∈ states (Processes.initial 1 0) trace, v.Each (OwnClientOnly 1)) ↔
          Run (Guarded ProcessStep LoopsFull) (Processes.initial 1 0) trace t) := by
  obtain ⟨trace, t, run, hevents, _⟩ := exists_heir
  exact ⟨trace, t, hevents, own_client_only_iff run⟩

/-- The worker accepts. -/
theorem heir_accepts :
    ¬ ∀ (trace : List (ProcessEvent Nat × Processes Nat)) (t : Processes Nat),
      Run ProcessStep (Processes.initial 1 0) trace t →
        ∀ v ∈ states (Processes.initial 1 0) trace, v.Each (OwnClientOnly 1) := by
  intro hall
  obtain ⟨trace, t, run, _, hstage⟩ := exists_heir
  obtain ⟨proc, hproc, haccepting⟩ := Option.map_eq_some_iff.mp hstage
  have own := hall trace t run t run.mem_states 2 proc hproc
  exact absurd (own.accepts (by rw [haccepting]; trivial)) (by decide)

/-! ## Dying workers -/

/-- `accept` fails only where a signal interrupts it. -/
def ListenStep (s : Processes κ) (e : ProcessEvent κ) (t : Processes κ) : Prop :=
  ProcessStep s e t ∧ ∀ p, e ≠ .refuse p

/-- `listen_channels` has not returned in the process of `main`. -/
def Listening (s : Processes κ) : Prop :=
  ∃ proc, s.procs s.main = some proc ∧ proc.stage ≠ .returned

/-- Where the handler of a signal that came into the server's `accept` looks for
children, it finds one. -/
def LeavesChild (s : Processes κ) : ProcessEvent κ → Prop
  | .waitpid p =>
      p = s.main → s.Each (fun q proc => q = p → proc.stage = .accepting true → s.HasChild p)
  | _ => True

/-- The process of `main` does not exit. -/
def MainRuns (main p : Int) (proc : Process κ) : Prop :=
  p = main → proc.exited = false

theorem mainRuns_step {s t : Processes κ} {e : ProcessEvent κ}
    (inv : s.Each (MainRuns s.main)) (step : ProcessStep s e t) :
    t.Each (MainRuns s.main) := by
  cases step with
  | test here ready | block here ready | connect here ready | refuse here ready
  | forkFails here ready | request here ready | hangUp here ready | deliver here ready =>
      exact Processes.each_put inv fun _ => ready.2
  | fork here ready stage positive fresh =>
      exact Processes.each_put (Processes.each_put inv fun _ => ready.2) fun _ => rfl
  | @exit p proc here running worker =>
      intro q other hq heq
      subst heq
      obtain ⟨before, hbefore, rfl⟩ :=
        Option.map_eq_some_iff.mp ((if_neg worker.symm).symm.trans hq)
      exact inv s.main before hbefore rfl
  | reap here handling running =>
      exact Processes.each_remove _ (Processes.each_put inv fun _ => running)
  | reapNone here handling running | resume here handling running =>
      exact Processes.each_put inv fun _ => running

theorem listening_put_iff {s : Processes κ} (h : Listening s) (p : Int) (proc : Process κ) :
    Listening (s.put p (some proc)) ↔ (p = s.main → proc.stage ≠ .returned) := by
  by_cases hp : p = s.main
  · subst hp
    simp [Listening]
  · have hne : s.main ≠ p := fun heq => hp heq.symm
    rw [Listening, Processes.main_put, Processes.procs_put_of_ne hne]
    exact iff_of_true h fun heq => absurd heq hp

/-- One step. -/
theorem listening_iff {s t : Processes κ} {e : ProcessEvent κ} (inv : s.Each (MainRuns s.main))
    (listening : Listening s) (step : ListenStep s e t) :
    Listening t ↔ LeavesChild s e := by
  obtain ⟨step, healthy⟩ := step
  -- a process that was not at the end of the loop is not there now
  have hkeeps : ∀ {p : Int} {proc : Process κ}, s.procs p = some proc →
      ∀ proc' : Process κ, proc'.stage = proc.stage → Listening (s.put p (some proc')) := by
    intro p proc here proc' hstage
    rw [listening_put_iff listening, hstage]
    rintro rfl
    obtain ⟨other, hother, hne⟩ := listening
    obtain rfl := Option.some.inj (here.symm.trans hother)
    exact hne
  have hmoves : ∀ (p : Int) (proc' : Process κ), proc'.stage ≠ .returned →
      Listening (s.put p (some proc')) := by
    intro p proc' hstage
    exact (listening_put_iff listening p proc').mpr fun _ => hstage
  cases step with
  | @test p proc here ready stage =>
      refine iff_of_true (hmoves p _ ?_) trivial
      dsimp only
      split <;> simp
  | block | connect | forkFails | hangUp =>
      exact iff_of_true (hmoves _ _ (by simp)) trivial
  | refuse => exact absurd rfl (healthy _)
  | @fork p proc here ready conn stage child positive fresh =>
      have hparent := hmoves p
        { proc with table := forkClient conn child proc.table, stage := .deciding } (by simp)
      exact iff_of_true ((listening_put_iff hparent _ _).mpr fun _ => by simp) trivial
  | request here | deliver here =>
      exact iff_of_true (hkeeps here _ rfl) trivial
  | @exit p proc here running worker =>
      refine iff_of_true ?_ trivial
      obtain ⟨other, hother, hne⟩ := listening
      refine ⟨{ other with
        parent := if other.parent = p then 0 else other.parent
        pending := other.pending || decide (s.main = proc.parent) }, ?_, hne⟩
      have hmain : s.main ≠ p := fun heq => worker heq.symm
      simp only [Processes.exit, if_neg hmain, hother, Option.map_some]
  | @reap p proc here handling running child dead found parent exited =>
      have hmain : s.main ≠ child := by
        rintro rfl
        rw [inv s.main dead found rfl] at exited
        exact absurd exited (by simp)
      have hparent := hkeeps here { proc with table := (killClient child proc.table).1 } rfl
      refine iff_of_true ?_ fun _ q other _ heq _ => ⟨child, dead, found, parent⟩
      obtain ⟨other, hother, hne⟩ := hparent
      refine ⟨other, ?_, hne⟩
      exact (Processes.procs_put_of_ne hmain none).trans hother
  | reapNone here handling running child =>
      exact iff_of_true (hkeeps here _ rfl) fun _ _ _ _ _ _ => child
  | @resume p proc here handling running childless =>
      rw [listening_put_iff listening, LeavesChild]
      constructor
      · intro h hmain q other hq heq hblocked
        subst heq
        obtain rfl := Option.some.inj (here.symm.trans hq)
        exact absurd (congrArg Stage.interrupted hblocked) (h hmain)
      · intro h hmain hreturned
        have hblocked : proc.stage ≠ .accepting true := fun hblocked =>
          childless (h hmain p proc here rfl hblocked)
        subst hmain
        obtain ⟨other, hother, hne⟩ := listening
        obtain rfl := Option.some.inj (here.symm.trans hother)
        dsimp only at hreturned
        cases hstage : proc.stage with
        | accepting blocked =>
            cases blocked with
            | true => exact hblocked hstage
            | false =>
                rw [hstage] at hreturned
                exact absurd hreturned (by simp [Stage.interrupted])
        | deciding | forking | serving =>
            rw [hstage] at hreturned
            exact absurd hreturned (by simp [Stage.interrupted])
        | returned => exact hne hstage

/-- **When the server goes on listening.**  Throughout a run in which `accept`
fails only where a signal interrupts it, `listen_channels` has not returned
exactly if each time the handler of such a signal calls `waitpid` the server has
a child left. -/
theorem keeps_listening_iff {main : Int} {conn : κ}
    {trace : List (ProcessEvent κ × Processes κ)} {t : Processes κ}
    (run : Run ListenStep (Processes.initial main conn) trace t) :
    (∀ v ∈ states (Processes.initial main conn) trace, Listening v) ↔
      Run (Guarded ListenStep LeavesChild) (Processes.initial main conn) trace t := by
  apply run.forall_states_iff (fun v => v.main = main ∧ v.Each (MainRuns main)) Listening
    LeavesChild
  · rintro s e t ⟨rfl, inv⟩ step _
    exact ⟨main_step step.1, mainRuns_step inv step.1⟩
  · rintro s e t ⟨rfl, inv⟩ listening step
    exact listening_iff inv listening step
  · exact ⟨rfl, each_initial fun _ => rfl⟩
  · exact ⟨_, if_pos rfl, by simp⟩

/-- The only worker exits while the server waits for the next client. -/
def lastWorkerEvents : List (ProcessEvent Nat) :=
  [.test 1, .connect 1 7, .fork 1 2, .test 1, .block 1, .exit 2, .deliver 1, .waitpid 1,
    .waitpid 1]

theorem exists_lastWorker :
    ∃ (trace : List (ProcessEvent Nat × Processes Nat)) (t : Processes Nat),
      Run ListenStep (Processes.initial 1 0) trace t ∧
        trace.map Prod.fst = lastWorkerEvents ∧
        (t.procs t.main).map Process.stage = some .returned := by
  have hhealthy : ∀ {s t : Processes Nat} {e : ProcessEvent Nat}, ProcessStep s e t →
      (∀ p, e ≠ .refuse p) → ListenStep s e t := fun step healthy => ⟨step, healthy⟩
  refine ⟨_, _,
    .cons (hhealthy (.test rfl ⟨rfl, rfl⟩ rfl) (by simp))
    (.cons (hhealthy (.connect rfl ⟨rfl, rfl⟩ rfl 7) (by simp))
    (.cons (hhealthy (.fork rfl ⟨rfl, rfl⟩ rfl (by decide : (0 : Int) < 2) rfl) (by simp))
    (.cons (hhealthy (.test (p := 1) rfl ⟨rfl, rfl⟩ rfl) (by simp))
    (.cons (hhealthy (.block (p := 1) rfl ⟨rfl, rfl⟩ rfl) (by simp))
    (.cons (hhealthy (.exit (p := 2) rfl rfl (by decide)) (by simp))
    (.cons (hhealthy (.deliver (p := 1) rfl ⟨rfl, rfl⟩ rfl) (by simp))
    (.cons (hhealthy (@ProcessStep.reap _ _ 1 _ rfl rfl rfl 2 _ rfl rfl rfl) (by simp))
    (.cons (hhealthy (.resume (p := 1) rfl rfl rfl ?_) (by simp)) (.nil _))))))))), rfl, rfl⟩
  -- only the process of `main` is left, and its parent is outside
  rintro ⟨child, proc, hproc, hparent⟩
  by_cases hmain : child = 1
  · subst hmain
    obtain rfl := Option.some.inj hproc
    exact absurd hparent (by decide)
  · by_cases hworker : child = 2
    · subst hworker
      exact absurd hproc (by simp)
    · simp [Processes.put, Processes.exit, Processes.initial, hmain, hworker] at hproc

theorem keeps_listening_iff_lastWorker :
    ∃ (trace : List (ProcessEvent Nat × Processes Nat)) (t : Processes Nat),
      trace.map Prod.fst = lastWorkerEvents ∧
        ((∀ v ∈ states (Processes.initial 1 0) trace, Listening v) ↔
          Run (Guarded ListenStep LeavesChild) (Processes.initial 1 0) trace t) := by
  obtain ⟨trace, t, run, hevents, _⟩ := exists_lastWorker
  exact ⟨trace, t, hevents, keeps_listening_iff run⟩

theorem lastWorker_stops_server :
    ¬ ∀ (trace : List (ProcessEvent Nat × Processes Nat)) (t : Processes Nat),
      Run ListenStep (Processes.initial 1 0) trace t →
        ∀ v ∈ states (Processes.initial 1 0) trace, Listening v := by
  intro hall
  obtain ⟨trace, t, run, _, hstage⟩ := exists_lastWorker
  obtain ⟨proc, hproc, hlistening⟩ := hall trace t run t run.mem_states
  rw [hproc] at hstage
  exact hlistening (Option.some.inj hstage)

end AirTraffic.Server
