/-
  Server/Interrupt.lean --- what the parent closes before it exits.

  WHAT THIS FILE IS FOR.  `srv_sigint_handler` closes the connections of its clients,
  from index 0 on.  The entries begin at 1, so it closes a connection that no client
  has, and comes one short at the end (`srvSigintHandler_eq`).  The rounds of
  `kill_client` end even earlier.  Together, the entry of the client that came last is
  one that the parent never closes (`newest_never_closed`).

  DESCRIPTORS.  The connection in that entry can be closed all the same, if an entry
  before it has the same one.  An entry keeps the descriptor of a client that left,
  and `accept` may give it out again.
-/
import AirTraffic.Server.Clients

set_option autoImplicit false

namespace AirTraffic.Server

open AirTraffic.Foundation

variable {κ : Type}

/-- `srv_sigint_handler`: the connections it closes. -/
def srvSigintHandler (table : ClientTable κ) : List κ :=
  (List.range table.curClients.toNat).map fun i : Nat => (table.nodes i).conn

/-- It is one index off. -/
theorem srvSigintHandler_eq (table : ClientTable κ) :
    srvSigintHandler table =
      ((table.nodes 0).conn :: table.entries.map PidNode.conn).dropLast := by
  have hall : (table.nodes 0).conn :: table.entries.map PidNode.conn =
      (List.range (table.curClients.toNat + 1)).map fun i : Nat => (table.nodes i).conn := by
    rw [List.range_succ_eq_map, List.map_cons, List.map_map, ClientTable.entries, List.map_map]
    rfl
  rw [hall, List.range_succ, List.map_append, List.map_singleton, List.dropLast_concat]
  rfl

/-- An entry whose connection it closes. -/
theorem exists_of_mem_srvSigintHandler {table : ClientTable κ} {conn : κ}
    (h : conn ∈ srvSigintHandler table) :
    ∃ i : Int, i < table.curClients ∧ (table.nodes i).conn = conn := by
  obtain ⟨i, hi, hconn⟩ := List.mem_map.mp h
  have hlt := List.mem_range.mp hi
  exact ⟨i, by omega, hconn⟩

/-- An entry whose connection `kill_client` closes. -/
theorem conn_of_closed_killClient {pid : Int} {table : ClientTable κ} {conn : κ}
    (h : conn ∈ (killClient pid table).2.1) :
    ∃ i : Int, i < table.curClients - 1 ∧ (table.nodes i).conn = conn := by
  rcases exists_of_closed_killRounds h with hnone | ⟨i, hge, hlt, _, hconn⟩
  · exact absurd hnone (by simp)
  · exact ⟨i, by omega, hconn⟩

/-- The entry at index 0 is as it was when the server began. -/
theorem unused_of_run {conn₀ : κ} {trace : List (ClientEvent κ × Clients κ)} {s : Clients κ}
    (run : Run ClientStep (Clients.initial conn₀) trace s) : (s.table.nodes 0).conn = conn₀ := by
  have kept : ∀ s e t, (s.Inv ∧ (s.table.nodes 0).conn = conn₀) → ClientStep s e t →
      t.Inv ∧ (t.table.nodes 0).conn = conn₀ := by
    rintro s e t ⟨inv, hconn⟩ step
    refine ⟨inv.step step, ?_⟩
    have hcur := inv.curClients_nonneg
    cases step with
    | forked conn childPid => rwa [unused_forkClient conn childPid hcur]
    | notForked conn => rwa [unused_forkClient conn (-1) hcur]
    | killed node mem => rwa [nodes_killClient]
  exact (run.invariant _ kept ⟨Clients.inv_initial conn₀, rfl⟩).2

/-! ## The newest client -/

/-- Another connection is accepted, or a client leaves. -/
def OtherThan (conn : κ) (e : ClientEvent κ) : Prop := ∀ childPid, e ≠ .accept conn childPid

/-- No one is accepted. -/
def OnlyKills (_ : Clients κ) (e : ClientEvent κ) : Prop := ∃ pid, e = .kill pid

/-- An entry before the last one has the connection. -/
def Clients.HasBefore (s : Clients κ) (conn : κ) : Prop :=
  ∃ i : Int, i < s.table.curClients ∧ (s.table.nodes i).conn = conn

/-- No entry below the bound has the connection, and it has not been closed. -/
structure Spares (conn : κ) (bound : Int) (s : Clients κ) : Prop where
  entries : ∀ i < bound, (s.table.nodes i).conn ≠ conn
  closed : conn ∉ s.closed

/-- Before it is accepted no entry has the connection. -/
theorem Spares.other {conn : κ} {s t : Clients κ} {e : ClientEvent κ}
    (spares : Spares conn (s.table.curClients + 1) s) (step : ClientStep s e t)
    (other : OtherThan conn e) : Spares conn (t.table.curClients + 1) t := by
  have hadded : ∀ conn' childPid, e = .accept conn' childPid →
      ∀ i < s.table.curClients + 1 + 1,
        ((forkClient conn' childPid s.table).nodes i).conn ≠ conn := by
    rintro conn' childPid rfl i hi heq
    simp only [forkClient, putNode] at heq
    split at heq
    · exact other childPid (by rw [← heq])
    · rename_i hne
      exact spares.entries i (by omega) heq
  cases step with
  | forked conn' childPid room positive fresh => exact ⟨hadded conn' childPid rfl, spares.closed⟩
  | notForked conn' room => exact ⟨hadded conn' (-1) rfl, spares.closed⟩
  | killed node mem =>
      refine ⟨fun i hi => ?_, fun hmem => ?_⟩
      · rw [nodes_killClient]
        rw [curClients_killClient] at hi
        exact spares.entries i (by omega)
      · rcases List.mem_append.mp hmem with hbefore | hnow
        · exact spares.closed hbefore
        · obtain ⟨i, hi, hconn⟩ := conn_of_closed_killClient hnow
          exact spares.entries i (by omega) hconn

/-- It is accepted as the last entry. -/
theorem Spares.accepted {conn : κ} {childPid : Int} {s t : Clients κ}
    (spares : Spares conn (s.table.curClients + 1) s)
    (step : ClientStep s (.accept conn childPid) t) : Spares conn t.table.curClients t := by
  have hbelow : ∀ childPid, ∀ i < s.table.curClients + 1,
      ((forkClient conn childPid s.table).nodes i).conn ≠ conn := by
    intro childPid i hi
    have hne : i ≠ s.table.curClients + 1 := by omega
    simp only [forkClient, putNode, if_neg hne]
    exact spares.entries i hi
  cases step with
  | forked => exact ⟨hbelow childPid, spares.closed⟩
  | notForked => exact ⟨hbelow (-1), spares.closed⟩

theorem Spares.not_hasBefore {conn : κ} {s : Clients κ}
    (spares : Spares conn s.table.curClients s) : ¬ s.HasBefore conn := by
  rintro ⟨i, hi, hconn⟩
  exact spares.entries i hi hconn

/-- The last entry is that of the client that was accepted last. -/
theorem conn_of_accepted {conn : κ} {childPid : Int} {s t : Clients κ}
    (step : ClientStep s (.accept conn childPid) t) :
    (t.table.nodes t.table.curClients).conn = conn := by
  have hlast : ∀ childPid, ((forkClient conn childPid s.table).nodes
      (forkClient conn childPid s.table).curClients).conn = conn := fun childPid =>
    congrArg PidNode.conn (if_pos rfl)
  cases step with
  | forked => exact hlast childPid
  | notForked => exact hlast (-1)

/-- Since a client was accepted, connections have been closed in entries before its
own. -/
structure ClosedBefore (t u : Clients κ) : Prop where
  nodes : u.table.nodes = t.table.nodes
  count : u.table.curClients ≤ t.table.curClients
  closed : ∃ more, u.closed = t.closed ++ more ∧ ∀ conn ∈ more, t.HasBefore conn

theorem ClosedBefore.self (t : Clients κ) : ClosedBefore t t where
  nodes := rfl
  count := Int.le_refl _
  closed := ⟨[], (List.append_nil _).symm, fun _ hmem => absurd hmem List.not_mem_nil⟩

/-- When clients leave, the table only gets shorter. -/
theorem ClosedBefore.step {t u v : Clients κ} {e : ClientEvent κ} (before : ClosedBefore t u)
    (step : ClientStep u e v) (kills : OnlyKills u e) : ClosedBefore t v := by
  obtain ⟨pid, rfl⟩ := kills
  obtain ⟨hnodes, hcount, more, hclosed, hmore⟩ := before
  cases step with
  | killed node mem =>
      refine ⟨(nodes_killClient _ _).trans hnodes, ?_,
        more ++ (killClient node.pid u.table).2.1, ?_, ?_⟩
      · rw [curClients_killClient]
        omega
      · rw [hclosed, List.append_assoc]
      · intro conn hmem
        rcases List.mem_append.mp hmem with hbefore | hnow
        · exact hmore conn hbefore
        · obtain ⟨i, hi, hconn⟩ := conn_of_closed_killClient hnow
          rw [hnodes] at hconn
          exact ⟨i, by omega, hconn⟩

/-- So does `srv_sigint_handler`. -/
theorem ClosedBefore.handler {t u : Clients κ} (before : ClosedBefore t u) :
    ∀ conn ∈ srvSigintHandler u.table, t.HasBefore conn := by
  intro conn hmem
  obtain ⟨i, hi, hconn⟩ := exists_of_mem_srvSigintHandler hmem
  have hcount := before.count
  rw [before.nodes] at hconn
  exact ⟨i, by omega, hconn⟩

/-- **The newest client is forgotten.**  What the parent closes after it accepted a
client, in `kill_client` or in `srv_sigint_handler`, is in an entry before the one of
this client, whoever leaves, and its own worker too.  So it does not close the
connection, if it had not accepted the same one before.  The handler closes the
connections of the other entries, and one that no client has. -/
theorem newest_never_closed {conn₀ conn : κ} {childPid : Int}
    {before after : List (ClientEvent κ × Clients κ)} {s t u : Clients κ}
    (run : Run ClientStep (Clients.initial conn₀) before s)
    (accepted : ClientStep s (.accept conn childPid) t)
    (later : Run (Guarded ClientStep OnlyKills) t after u) :
    (t.table.nodes t.table.curClients).conn = conn ∧
      (∃ more, u.closed = t.closed ++ more ∧
        ∀ other ∈ more ++ srvSigintHandler u.table, t.HasBefore other) ∧
      (conn ≠ conn₀ → (∀ entry ∈ before, OtherThan conn entry.1) →
        conn ∉ u.closed ∧ conn ∉ srvSigintHandler u.table) ∧
      srvSigintHandler u.table = (conn₀ :: u.table.entries.map PidNode.conn).dropLast := by
  have hbelow := later.invariant (ClosedBefore t)
    (fun _ _ _ before step => before.step step.1 step.2) (ClosedBefore.self t)
  obtain ⟨more, hclosed, hmore⟩ := hbelow.closed
  have hall : ∀ other ∈ more ++ srvSigintHandler u.table, t.HasBefore other := fun other hmem =>
    (List.mem_append.mp hmem).elim (hmore other) (hbelow.handler other)
  have whole := run.append (.cons accepted (later.mono fun _ _ _ step => step.1))
  refine ⟨conn_of_accepted accepted, ⟨more, hclosed, hall⟩, fun new others => ?_, ?_⟩
  · have hstart : Spares conn ((Clients.initial conn₀).table.curClients + 1)
        (Clients.initial conn₀) :=
      ⟨fun _ _ => new.symm, List.not_mem_nil⟩
    have hbefore := (run.guarded_of_mem others).invariant
      (fun s => Spares conn (s.table.curClients + 1) s)
      (fun _ _ _ spares step => spares.other step.1 step.2) hstart
    have spares := hbefore.accepted accepted
    refine ⟨fun hmem => ?_, fun hmem => spares.not_hasBefore (hbelow.handler conn hmem)⟩
    rw [hclosed] at hmem
    exact (List.mem_append.mp hmem).elim spares.closed
      fun hnow => spares.not_hasBefore (hmore conn hnow)
  · rw [srvSigintHandler_eq, unused_of_run whole]

/-- Two clients come. -/
theorem exists_two_clients : ∃ (before : List (ClientEvent Nat × Clients Nat)) (s : Clients Nat),
    Run ClientStep (Clients.initial 0) before s ∧
      before.map Prod.fst = [.accept 1 101, .accept 2 102] ∧
      s.table.curClients = 2 ∧ s.live = [⟨101, 1⟩, ⟨102, 2⟩] := by
  refine ⟨_, _, .cons (.forked _ 1 101 ?_ ?_ ?_) (.cons (.forked _ 2 102 ?_ ?_ ?_) (.nil _)),
    rfl, rfl, rfl⟩
  all_goals decide

/-- Another one comes behind them, and leaves. -/
theorem newest_never_closed_departure :
    ∃ (before : List (ClientEvent Nat × Clients Nat)) (t u : Clients Nat),
      before.map Prod.fst = [.accept 1 101, .accept 2 102] ∧
        ClientStep t (.kill 103) u ∧ (t.table.nodes t.table.curClients).conn = 3 ∧
          (∃ more, u.closed = t.closed ++ more ∧
            ∀ other ∈ more ++ srvSigintHandler u.table, t.HasBefore other) ∧
          (3 ∉ u.closed ∧ 3 ∉ srvSigintHandler u.table) ∧
          srvSigintHandler u.table = (0 :: u.table.entries.map PidNode.conn).dropLast := by
  obtain ⟨before, s, run, hevents, hcount, hlive⟩ := exists_two_clients
  have hroom : s.table.HasRoom := by
    rw [ClientTable.HasRoom, hcount]
    decide
  obtain ⟨t, comes, hlast⟩ : ∃ t, ClientStep s (.accept 3 103) t ∧ ⟨103, 3⟩ ∈ t.live :=
    ⟨_, .forked s 3 103 hroom (by decide) (by rw [hlive]; decide),
      List.mem_append_right _ List.mem_cons_self⟩
  have leaves : ClientStep t (.kill 103) _ := .killed t ⟨103, 3⟩ hlast
  have others : ∀ entry ∈ before, OtherThan 3 entry.1 := by
    intro entry hmem childPid heq
    have hevent := List.mem_map_of_mem (f := Prod.fst) hmem
    rw [hevents, heq] at hevent
    exact absurd hevent (by simp)
  obtain ⟨hentry, hbelow, hspared, hhandler⟩ :=
    newest_never_closed run comes (.cons ⟨leaves, 103, rfl⟩ (.nil _))
  exact ⟨before, t, _, hevents, leaves, hentry, hbelow, hspared (by decide) others, hhandler⟩

end AirTraffic.Server
