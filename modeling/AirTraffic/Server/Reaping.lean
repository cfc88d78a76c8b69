/-
  Server/Reaping.lean --- the loop of `srv_sigchld_handler`.

  WHAT THIS FILE IS FOR.  The handler calls `waitpid` until it answers -1 and hands
  every other answer to `kill_client`.  With `WNOHANG` there are three kinds of
  answers: the pid of a child that exited, 0 if there are only running ones, and -1
  if there are none.  The second is not the end of the loop, so the handler reaps and
  returns exactly if no child runs (`reaps_and_returns_iff`).

  The rounds here are those of one process, on children that stay as they are unless
  they are reaped; `Server/Processes.lean` has the same rounds among those of the
  others.
-/
import AirTraffic.Server.Clients

set_option autoImplicit false

namespace AirTraffic.Server

open AirTraffic.Foundation

variable {κ : Type}

/-! ## `waitpid` -/

/-- The children of a process. -/
structure Children where
  exited : List Int
  running : List Int
  positive : ∀ pid ∈ exited ++ running, 0 < pid
  distinct : (exited ++ running).Nodup

/-- The children without one that exited. -/
def Children.reap (children : Children) (pid : Int) : Children where
  exited := children.exited.erase pid
  running := children.running
  positive := by
    intro other hmem
    exact children.positive other ((List.erase_sublist.append_right _).subset hmem)
  distinct := children.distinct.sublist (List.erase_sublist.append_right _)

/-- `waitpid(-1, &status, WNOHANG)`: what it returns, and the children behind it. -/
inductive Waitpid : Children → Int → Children → Prop
  | exited {children : Children} {pid : Int} (mem : pid ∈ children.exited) :
      Waitpid children pid (children.reap pid)
  | running {children : Children} (none : children.exited = [])
      (some : children.running ≠ []) : Waitpid children 0 children
  | childless {children : Children} (none : children.exited = [])
      (noneRuns : children.running = []) : Waitpid children (-1) children

/-- `waitpid` always answers. -/
theorem exists_waitpid (children : Children) : ∃ pid children', Waitpid children pid children' := by
  rcases children.exited.eq_nil_or_concat with hnone | ⟨_, pid, hexited⟩
  · by_cases hrunning : children.running = []
    · exact ⟨-1, children, .childless hnone hrunning⟩
    · exact ⟨0, children, .running hnone hrunning⟩
  · exact ⟨pid, children.reap pid, .exited (by simp [hexited])⟩

theorem Children.exited_pos {children : Children} {pid : Int} (mem : pid ∈ children.exited) :
    0 < pid :=
  children.positive pid (List.mem_append_left _ mem)

/-- -1 is no child's pid. -/
theorem Waitpid.childless_of_minus_one {children children' : Children}
    (wait : Waitpid children (-1) children') :
    children.exited = [] ∧ children.running = [] := by
  cases wait with
  | exited mem => exact absurd (Children.exited_pos mem) (by decide)
  | childless none noneRuns => exact ⟨none, noneRuns⟩

/-! ## Rounds -/

/-- The handler between two calls of `waitpid`. -/
structure Handling (κ : Type) where
  children : Children
  table : ClientTable κ

/-- A round of the loop, with the argument of `kill_client`. -/
inductive Round : Handling κ → Int → Handling κ → Prop
  | kill {s : Handling κ} {pid : Int} {children : Children}
      (wait : Waitpid s.children pid children) (going : pid ≠ -1) :
      Round s pid { children, table := (killClient pid s.table).1 }

/-- `waitpid` answers -1, and `srv_sigchld_handler` returns. -/
def Returns (s : Handling κ) : Prop := ∃ children, Waitpid s.children (-1) children

/-- The handler is in its loop or it returns. -/
theorem round_or_returns (s : Handling κ) : (∃ pid t, Round s pid t) ∨ Returns s := by
  obtain ⟨pid, children, wait⟩ := exists_waitpid s.children
  by_cases hend : pid = -1
  · subst hend
    exact .inr ⟨children, wait⟩
  · exact .inl ⟨pid, _, .kill wait hend⟩

/-- What a round does: it reaps a child, or it finds only running ones and calls
`kill_client(0)`. -/
theorem Round.cases {s t : Handling κ} {pid : Int} (round : Round s pid t) :
    t.table.curClients = s.table.curClients - 1 ∧ t.children.running = s.children.running ∧
      (pid ∈ s.children.exited ∧ t.children.exited = s.children.exited.erase pid ∨
        pid = 0 ∧ s.children.running ≠ [] ∧ t.children = s.children) := by
  obtain ⟨wait, going⟩ := round
  cases wait with
  | exited mem => exact ⟨rfl, rfl, .inl ⟨mem, rfl⟩⟩
  | running none some => exact ⟨rfl, rfl, .inr ⟨rfl, some, rfl⟩⟩
  | childless => exact absurd rfl going

/-- Without running children a round reaps one. -/
theorem Round.reaps {s t : Handling κ} {pid : Int} (round : Round s pid t)
    (idle : s.children.running = []) :
    pid ∈ s.children.exited ∧ t.children.exited = s.children.exited.erase pid := by
  obtain ⟨_, _, hreap | ⟨_, hruns, _⟩⟩ := round.cases
  · exact hreap
  · exact absurd idle hruns

theorem Round.running_eq {s t : Handling κ} {pid : Int} (round : Round s pid t) :
    t.children.running = s.children.running :=
  round.cases.2.1

/-! ## Runs -/

/-- A run lowers the count by its rounds. -/
theorem curClients_of_run {s t : Handling κ} {trace : List (Int × Handling κ)}
    (run : Run Round s trace t) :
    t.table.curClients = s.table.curClients - trace.length := by
  induction run with
  | nil s => simp
  | cons round _ ih =>
      have hone := round.cases.1
      rw [ih, List.length_cons]
      omega

/-- A run without running children reaps those it calls `kill_client` for. -/
theorem perm_of_run {s t : Handling κ} {trace : List (Int × Handling κ)}
    (run : Run Round s trace t) (idle : s.children.running = []) :
    (trace.map Prod.fst ++ t.children.exited).Perm s.children.exited := by
  induction run with
  | nil s => exact .refl _
  | cons round _ ih =>
      obtain ⟨hmem, herase⟩ := round.reaps idle
      have hrest := ih (round.running_eq.trans idle)
      rw [herase] at hrest
      exact (hrest.cons _).trans (List.perm_cons_erase hmem).symm

/-- The loop is left after finitely many rounds, whichever child `waitpid` finds
first. -/
def Terminates (s : Handling κ) : Prop := Acc (fun t s => ∃ pid, Round s pid t) s

/-- Every round reaps one of finitely many children. -/
theorem terminates_of_idle {s : Handling κ} (idle : s.children.running = []) : Terminates s := by
  induction hlen : s.children.exited.length generalizing s with
  | zero =>
      refine ⟨_, fun t hround => ?_⟩
      obtain ⟨pid, round⟩ := hround
      have hmem := (round.reaps idle).1
      rw [List.length_eq_zero_iff.mp hlen] at hmem
      exact absurd hmem List.not_mem_nil
  | succ n ih =>
      refine ⟨_, fun t hround => ?_⟩
      obtain ⟨pid, round⟩ := hround
      obtain ⟨hmem, herase⟩ := round.reaps idle
      refine ih (round.running_eq.trans idle) ?_
      rw [herase, List.length_erase_of_mem hmem, hlen]
      rfl

/-- With a running child the loop reaps the others and then goes on for ever. -/
theorem idle_of_terminates {s : Handling κ} (h : Terminates s) : s.children.running = [] := by
  induction h with
  | intro s _ ih =>
      rcases round_or_returns s with ⟨pid, t, round⟩ | ⟨_, wait⟩
      · rw [← round.running_eq]
        exact ih t ⟨pid, round⟩
      · exact wait.childless_of_minus_one.2

/-- How long it spins: as long as the child runs, and each round lowers the count. -/
theorem spins {s : Handling κ} (none : s.children.exited = []) (some : s.children.running ≠ [])
    (n : Nat) :
    ∃ trace t, Run Round s trace t ∧ trace.map Prod.fst = List.replicate n 0 ∧
      t.table.curClients = s.table.curClients - n := by
  have hrun : ∃ trace t, Run Round s trace t ∧ trace.map Prod.fst = List.replicate n 0 := by
    induction n generalizing s with
    | zero => exact ⟨[], s, .nil s, rfl⟩
    | succ n ih =>
        obtain ⟨trace, t, run, hargs⟩ :=
          @ih { children := s.children, table := (killClient 0 s.table).1 } none some
        exact ⟨_, t, .cons (.kill (.running none some) (by decide)) run,
          congrArg (List.cons 0) hargs⟩
  obtain ⟨trace, t, run, hargs⟩ := hrun
  have hlength : trace.length = n := by
    rw [← List.length_map Prod.fst, hargs, List.length_replicate]
  exact ⟨trace, t, run, hargs, hlength ▸ curClients_of_run run⟩

/-! ## The handler -/

/-- The handler reaps and returns. -/
structure ReapsAndReturns (s : Handling κ) : Prop where
  terminates : Terminates s
  /-- Where its loop stops it returns. -/
  returns : ∀ trace t, Run Round s trace t → (∀ pid u, ¬ Round t pid u) → Returns t
  /-- Every argument of `kill_client` is the pid of a child that exited. -/
  arguments : ∀ trace t, Run Round s trace t → ∀ pid ∈ trace.map Prod.fst,
    pid ∈ s.children.exited
  /-- When it returns it was called for each of them once. -/
  once : ∀ trace t, Run Round s trace t → Returns t →
    (trace.map Prod.fst).Perm s.children.exited
  count : ∀ trace t, Run Round s trace t → Returns t →
    t.table.curClients = s.table.curClients - s.children.exited.length

/-- **When the handler reaps and returns.**  Exactly if no child is running. -/
theorem reaps_and_returns_iff (s : Handling κ) :
    ReapsAndReturns s ↔ s.children.running = [] := by
  constructor
  · intro h
    exact idle_of_terminates h.terminates
  · intro idle
    have honce : ∀ trace t, Run Round s trace t → Returns t →
        (trace.map Prod.fst).Perm s.children.exited := by
      rintro trace t run ⟨_, wait⟩
      have hperm := perm_of_run run idle
      rwa [wait.childless_of_minus_one.1, List.append_nil] at hperm
    refine ⟨terminates_of_idle idle, ?_, ?_, honce, ?_⟩
    · intro trace t _ hstops
      rcases round_or_returns t with ⟨pid, u, round⟩ | hreturns
      · exact absurd round (hstops pid u)
      · exact hreturns
    · intro trace t run pid hmem
      exact (perm_of_run run idle).subset (List.mem_append_left _ hmem)
    · intro trace t run hreturns
      have hlength := (honce trace t run hreturns).length_eq
      rw [List.length_map] at hlength
      rw [curClients_of_run run, hlength]

/-- A worker has exited and another one serves its client. -/
def oneExited : Children where
  exited := [2]
  running := [3]
  positive := by decide
  distinct := by decide

theorem handler_never_returns :
    ¬ ∀ (children : Children) (table : ClientTable Nat),
      ReapsAndReturns { children := children, table := table } := by
  intro reaps
  have hidle := idle_of_terminates (reaps oneExited (.initial 0)).terminates
  exact absurd hidle (by decide)

end AirTraffic.Server
