/-
  Server/Clients.lean --- the parent's table of clients.

  WHAT THIS FILE IS FOR.  `fork_client` adds a client behind the last one;
  `kill_client` is to take one out, to close its connection and to move the ones
  behind it down.  Its loop starts at the unused index 0 and ends two entries
  early, and its variable `startMoving` begins anew in each round.  The table
  goes through histories of both, next to the clients it is about
  (`table_tracks_iff`).
-/
import AirTraffic.Foundation.Transition

set_option autoImplicit false

namespace AirTraffic.Server

open AirTraffic.Foundation

variable {κ : Type}

/-! ## The table -/

/-- `struct pid_node`: a worker and the connection it was forked for. -/
structure PidNode (κ : Type) where
  pid : Int
  conn : κ
  deriving DecidableEq, Repr

/-- `cur_clients` and `nodes`. -/
structure ClientTable (κ : Type) where
  curClients : Int
  nodes : Int → PidNode κ

/-- `MAX_CLIENTS`, and the length of `nodes`. -/
def maxClients : Int := 50

/-- `nodes[i] = node` -/
def putNode (nodes : Int → PidNode κ) (i : Int) (node : PidNode κ) : Int → PidNode κ :=
  fun j => if j = i then node else nodes j

/-- The table of a server that starts; `conn` is a connection of zero bytes. -/
def ClientTable.initial (conn : κ) : ClientTable κ where
  curClients := 0
  nodes := fun _ => { pid := 0, conn := conn }

/-- The test of `listen_channels` before it accepts. -/
def ClientTable.HasRoom (table : ClientTable κ) : Prop :=
  table.curClients + 1 < maxClients

instance (table : ClientTable κ) : Decidable table.HasRoom :=
  inferInstanceAs (Decidable (_ < _))

/-- `fork_client` in the parent, where `fork` returned `childPid`. -/
def forkClient (conn : κ) (childPid : Int) (table : ClientTable κ) : ClientTable κ :=
  let curClients := table.curClients + 1
  { curClients, nodes := putNode table.nodes curClients { pid := childPid, conn := conn } }

/-- The loop of `kill_client` on its way: the entries, the connections it closed
and the indices it used. -/
structure Sweep (κ : Type) where
  nodes : Int → PidNode κ
  closed : List κ
  used : List Int

/-- A round of the loop. -/
def killRound (pid i : Int) (s : Sweep κ) : Sweep κ :=
  -- declared inside of the loop, so no round sees what an earlier one found
  let startMoving := false
  if (s.nodes i).pid = pid then
    { s with closed := s.closed ++ [(s.nodes i).conn], used := s.used ++ [i] }
  else if startMoving then
    { s with nodes := putNode s.nodes (i - 1) (s.nodes i), used := s.used ++ [i, i - 1] }
  else { s with used := s.used ++ [i] }

/-- The rounds from an index on. -/
def killRounds (pid : Int) : Nat → Int → Sweep κ → Sweep κ
  | 0, _, s => s
  | left + 1, i, s => killRounds pid left (i + 1) (killRound pid i s)

/-- `kill_client`, with the connections it closes and the indices it uses. -/
def killClient (pid : Int) (table : ClientTable κ) : ClientTable κ × List κ × List Int :=
  let curClients := table.curClients - 1
  let sweep := killRounds pid curClients.toNat 0 { nodes := table.nodes, closed := [], used := [] }
  ({ curClients, nodes := sweep.nodes }, sweep.closed, sweep.used)

/-- The entries `nodes[1..cur_clients]`. -/
def ClientTable.entries (table : ClientTable κ) : List (PidNode κ) :=
  (List.range table.curClients.toNat).map fun k : Nat => table.nodes (k + 1)

/-! ## What the loop does -/

/-- No round moves an entry. -/
theorem nodes_killRounds (pid : Int) (left : Nat) (i : Int) (s : Sweep κ) :
    (killRounds pid left i s).nodes = s.nodes := by
  induction left generalizing i s with
  | zero => rfl
  | succ left ih =>
      rw [killRounds, ih, killRound]
      split <;> rfl

/-- A connection is closed only where the loop comes by an entry with the pid. -/
theorem exists_of_closed_killRounds {pid : Int} {left : Nat} {i : Int} {s : Sweep κ} {conn : κ}
    (h : conn ∈ (killRounds pid left i s).closed) :
    conn ∈ s.closed ∨
      ∃ j, i ≤ j ∧ j < i + left ∧ (s.nodes j).pid = pid ∧ (s.nodes j).conn = conn := by
  induction left generalizing i s with
  | zero => exact .inl h
  | succ left ih =>
      unfold killRounds at h
      have hnodes : (killRound pid i s).nodes = s.nodes := nodes_killRounds pid 1 i s
      rcases ih h with hround | ⟨j, hge, hlt, hpid, hconn⟩
      · rw [killRound] at hround
        split at hround
        · rename_i hpid
          rcases List.mem_append.mp hround with hearlier | hhere
          · exact .inl hearlier
          · obtain rfl := List.mem_singleton.mp hhere
            exact .inr ⟨i, Int.le_refl i, by omega, hpid, rfl⟩
        · exact .inl hround
      · rw [hnodes] at hpid hconn
        exact .inr ⟨j, by omega, by omega, hpid, hconn⟩

/-- The loop uses the indices it counts through. -/
theorem used_killRounds {pid : Int} {left : Nat} {i : Int} {s : Sweep κ} {j : Int}
    (h : j ∈ (killRounds pid left i s).used) : j ∈ s.used ∨ i ≤ j ∧ j < i + left := by
  induction left generalizing i s with
  | zero => exact .inl h
  | succ left ih =>
      have hround : (killRound pid i s).used = s.used ++ [i] := by
        unfold killRound
        split <;> rfl
      unfold killRounds at h
      rcases ih h with hearlier | ⟨hge, hlt⟩
      · rw [hround] at hearlier
        rcases List.mem_append.mp hearlier with hearlier | hhere
        · exact .inl hearlier
        · obtain rfl := List.mem_singleton.mp hhere
          exact .inr ⟨Int.le_refl j, by omega⟩
      · exact .inr ⟨by omega, by omega⟩

/-! ## Histories -/

/-- The table and what happened to it. -/
structure Clients (κ : Type) where
  table : ClientTable κ
  /-- The clients forked and not killed. -/
  live : List (PidNode κ)
  killed : List (PidNode κ)
  closed : List κ
  /-- The indices at which `nodes` was read or written. -/
  used : List Int

inductive ClientEvent (κ : Type) where
  /-- A connection is accepted and `fork` returns a pid, or -1. -/
  | accept (conn : κ) (childPid : Int)
  | kill (pid : Int)

/-- One call of `fork_client` or `kill_client`. -/
inductive ClientStep : Clients κ → ClientEvent κ → Clients κ → Prop
  | forked (s : Clients κ) (conn : κ) (childPid : Int) (room : s.table.HasRoom)
      (positive : 0 < childPid) (fresh : ∀ node ∈ s.live, node.pid ≠ childPid) :
      ClientStep s (.accept conn childPid)
        { s with
          table := forkClient conn childPid s.table
          live := s.live ++ [{ pid := childPid, conn := conn }]
          used := s.used ++ [s.table.curClients + 1] }
  | notForked (s : Clients κ) (conn : κ) (room : s.table.HasRoom) :
      ClientStep s (.accept conn (-1))
        { s with
          table := forkClient conn (-1) s.table
          used := s.used ++ [s.table.curClients + 1] }
  | killed (s : Clients κ) (node : PidNode κ) (mem : node ∈ s.live) :
      ClientStep s (.kill node.pid)
        { table := (killClient node.pid s.table).1
          live := s.live.filter fun other => other.pid ≠ node.pid
          killed := s.killed ++ [node]
          closed := s.closed ++ (killClient node.pid s.table).2.1
          used := s.used ++ (killClient node.pid s.table).2.2 }

/-- No client yet. -/
def Clients.initial (conn : κ) : Clients κ where
  table := .initial conn
  live := []
  killed := []
  closed := []
  used := []

/-- The table is about the live clients: its entries are these, each once, and
only the connections of killed clients were closed, all of them. -/
structure Tracks (s : Clients κ) : Prop where
  entries : s.table.entries.Perm s.live
  count : s.table.curClients = s.live.length
  used : ∀ i ∈ s.used, 0 ≤ i ∧ i < maxClients
  closed : s.closed = s.killed.map PidNode.conn

/-- No client is killed and every `fork` succeeds. -/
def OnlyForks (_ : Clients κ) : ClientEvent κ → Prop
  | .accept _ childPid => childPid ≠ -1
  | .kill _ => False

/-- What every history keeps. -/
structure Clients.Inv (s : Clients κ) : Prop where
  unused : (s.table.nodes 0).pid = 0
  positive : ∀ node ∈ s.live, 0 < node.pid
  distinct : (s.live.map PidNode.pid).Nodup
  live_le : (s.live.length : Int) ≤ s.table.curClients
  room : s.table.curClients < maxClients
  used : ∀ i ∈ s.used, 0 ≤ i ∧ i < maxClients

theorem Clients.inv_initial (conn : κ) : (Clients.initial conn).Inv where
  unused := rfl
  positive := by simp [Clients.initial]
  distinct := by simp [Clients.initial]
  live_le := Int.le_refl 0
  room := (by decide : (0 : Int) < maxClients)
  used := by simp [Clients.initial]

theorem tracks_initial (conn : κ) : Tracks (Clients.initial conn) where
  entries := .refl _
  count := rfl
  used := by simp [Clients.initial]
  closed := rfl

@[simp] theorem curClients_forkClient (conn : κ) (childPid : Int) (table : ClientTable κ) :
    (forkClient conn childPid table).curClients = table.curClients + 1 := rfl

@[simp] theorem curClients_killClient (pid : Int) (table : ClientTable κ) :
    (killClient pid table).1.curClients = table.curClients - 1 := rfl

@[simp] theorem nodes_killClient (pid : Int) (table : ClientTable κ) :
    (killClient pid table).1.nodes = table.nodes :=
  nodes_killRounds pid _ 0 _

/-- The entry of an accepted client is at the index behind the last one. -/
theorem unused_forkClient {table : ClientTable κ} (conn : κ) (childPid : Int)
    (h : 0 ≤ table.curClients) :
    (forkClient conn childPid table).nodes 0 = table.nodes 0 := by
  have hne : (0 : Int) ≠ table.curClients + 1 := by omega
  simp only [forkClient, putNode, if_neg hne]

/-- `fork_client` adds one entry at the end. -/
theorem entries_forkClient {table : ClientTable κ} (conn : κ) (childPid : Int)
    (h : 0 ≤ table.curClients) :
    (forkClient conn childPid table).entries =
      table.entries ++ [{ pid := childPid, conn := conn }] := by
  obtain ⟨n, hn⟩ := Int.eq_ofNat_of_zero_le h
  have hnext : (table.curClients + 1).toNat = n + 1 := by omega
  have hcur : table.curClients.toNat = n := by omega
  rw [ClientTable.entries, ClientTable.entries, curClients_forkClient, hnext, hcur,
    List.range_succ, List.map_append]
  congr 1
  · apply List.map_congr_left
    intro k hk
    have hne : (k : Int) + 1 ≠ table.curClients + 1 := by
      have := List.mem_range.mp hk
      omega
    simp only [forkClient, putNode, if_neg hne]
  · have heq : (n : Int) + 1 = table.curClients + 1 := by omega
    simp only [List.map_cons, List.map_nil, forkClient, putNode, if_pos heq]

theorem used_killClient {pid : Int} {table : ClientTable κ} {i : Int}
    (h : i ∈ (killClient pid table).2.2) : 0 ≤ i ∧ i < table.curClients := by
  rcases used_killRounds h with hnone | ⟨hge, hlt⟩
  · exact absurd hnone (by simp)
  · exact ⟨hge, by omega⟩

/-- A connection is closed only if its entry is not one of the last two. -/
theorem exists_of_closed_killClient {pid : Int} {table : ClientTable κ} {conn : κ}
    (h : conn ∈ (killClient pid table).2.1) :
    ∃ i, 0 ≤ i ∧ i < table.curClients - 1 ∧ (table.nodes i).pid = pid := by
  rcases exists_of_closed_killRounds h with hnone | ⟨i, hge, hlt, hpid, _⟩
  · exact absurd hnone (by simp)
  · exact ⟨i, hge, by omega, hpid⟩

theorem Clients.Inv.curClients_nonneg {s : Clients κ} (inv : s.Inv) : 0 ≤ s.table.curClients := by
  have := inv.live_le
  omega

/-- The indices stay inside of the array whatever happens. -/
theorem Clients.Inv.step {s t : Clients κ} {e : ClientEvent κ} (inv : s.Inv)
    (step : ClientStep s e t) : t.Inv := by
  have hcur := inv.curClients_nonneg
  have huse : ∀ i ∈ s.used ++ [s.table.curClients + 1], s.table.HasRoom →
      0 ≤ i ∧ i < maxClients := by
    intro i hi hroom
    rcases List.mem_append.mp hi with hi | hi
    · exact inv.used i hi
    · obtain rfl := List.mem_singleton.mp hi
      exact ⟨by omega, hroom⟩
  cases step with
  | forked conn childPid room positive fresh =>
      exact
        { unused := by
            dsimp only
            rw [unused_forkClient conn childPid hcur]
            exact inv.unused
          positive := by
            intro node hnode
            rcases List.mem_append.mp hnode with hnode | hnode
            · exact inv.positive node hnode
            · obtain rfl := List.mem_singleton.mp hnode
              exact positive
          distinct := by
            rw [List.map_append, List.map_cons, List.map_nil, List.nodup_append]
            refine ⟨inv.distinct, by simp, ?_⟩
            intro pid hpid other hother heq
            obtain ⟨node, hnode, rfl⟩ := List.mem_map.mp hpid
            obtain rfl := List.mem_singleton.mp hother
            exact fresh node hnode heq
          live_le := by
            have := inv.live_le
            rw [curClients_forkClient, List.length_append, List.length_singleton]
            omega
          room := room
          used := fun i hi => huse i hi room }
  | notForked conn room =>
      exact
        { unused := by
            dsimp only
            rw [unused_forkClient conn (-1) hcur]
            exact inv.unused
          positive := inv.positive
          distinct := inv.distinct
          live_le := by
            have := inv.live_le
            rw [curClients_forkClient]
            dsimp only
            omega
          room := room
          used := fun i hi => huse i hi room }
  | killed node mem =>
      exact
        { unused := by
            rw [nodes_killClient]
            exact inv.unused
          positive := fun other hother => inv.positive other (List.mem_of_mem_filter hother)
          distinct := inv.distinct.sublist (List.filter_sublist.map PidNode.pid)
          live_le := by
            have hless : (s.live.filter fun other => other.pid ≠ node.pid).length <
                s.live.length :=
              List.length_filter_lt_length_iff_exists.mpr ⟨node, mem, by simp⟩
            have := inv.live_le
            rw [curClients_killClient]
            dsimp only
            omega
          room := by
            have := inv.room
            rw [curClients_killClient]
            omega
          used := by
            intro i hi
            rcases List.mem_append.mp hi with hi | hi
            · exact inv.used i hi
            · obtain ⟨hge, hlt⟩ := used_killClient hi
              exact ⟨hge, Int.lt_trans hlt inv.room⟩ }

/-- A kill leaves a connection open or an entry in the table. -/
theorem not_tracks_kill {s t : Clients κ} {pid : Int} (inv : s.Inv) (tracks : Tracks s)
    (step : ClientStep s (.kill pid) t) : ¬ Tracks t := by
  intro after
  cases step with
  | killed node mem =>
      have hclosed : (killClient node.pid s.table).2.1 = [node.conn] := by
        have heq := after.closed
        dsimp only at heq
        rw [List.map_append, ← tracks.closed] at heq
        exact List.append_cancel_left heq
      obtain ⟨i, hge, hlt, hpid⟩ := exists_of_closed_killClient
        (hclosed ▸ List.mem_singleton.mpr rfl : node.conn ∈ (killClient node.pid s.table).2.1)
      have hpos := inv.positive node mem
      have hi : i ≠ 0 := by
        rintro rfl
        rw [inv.unused] at hpid
        omega
      -- the entry was found below the new count, so it is still in the table
      have hentry : s.table.nodes i ∈ (killClient node.pid s.table).1.entries := by
        refine List.mem_map.mpr ⟨(i - 1).toNat, ?_, ?_⟩
        · rw [List.mem_range, curClients_killClient]
          omega
        · rw [nodes_killClient]
          congr 1
          omega
      have hlive := after.entries.mem_iff.mp hentry
      have hother := (List.mem_filter.mp hlive).2
      exact absurd hpid (of_decide_eq_true hother)

/-- One call. -/
theorem tracks_iff {s t : Clients κ} {e : ClientEvent κ} (inv : s.Inv) (tracks : Tracks s)
    (step : ClientStep s e t) : Tracks t ↔ OnlyForks s e := by
  have hcur := inv.curClients_nonneg
  have hinv := inv.step step
  cases step with
  | forked conn childPid room positive fresh =>
      have hforked : childPid ≠ -1 := by omega
      refine iff_of_true ?_ hforked
      exact
        { entries := by
            dsimp only
            rw [entries_forkClient conn childPid hcur]
            exact tracks.entries.append_right _
          count := by
            have := tracks.count
            rw [curClients_forkClient, List.length_append, List.length_singleton]
            omega
          used := hinv.used
          closed := tracks.closed }
  | notForked conn room =>
      refine iff_of_false ?_ (fun h => h rfl)
      intro after
      have hcount := after.count
      have hbefore := tracks.count
      rw [curClients_forkClient] at hcount
      dsimp only at hcount
      omega
  | killed node mem =>
      exact iff_of_false (not_tracks_kill inv tracks (.killed s node mem)) id

/-- **When the table tracks the live clients.**  Throughout a history it does
exactly if no client is killed in it and every `fork` succeeds. -/
theorem table_tracks_iff {conn : κ} {trace : List (ClientEvent κ × Clients κ)}
    {t : Clients κ} (run : Run ClientStep (Clients.initial conn) trace t) :
    (∀ v ∈ states (Clients.initial conn) trace, Tracks v) ↔
      Run (Guarded ClientStep OnlyForks) (Clients.initial conn) trace t :=
  run.forall_states_iff Clients.Inv Tracks OnlyForks (fun _ _ _ inv step _ => inv.step step)
    (fun _ _ _ inv tracks step => tracks_iff inv tracks step) (Clients.inv_initial conn)
    (tracks_initial conn)

/-- Three clients come, and the first one leaves. -/
def departure : List (ClientEvent Nat) :=
  [.accept 1 101, .accept 2 102, .accept 3 103, .kill 101]

/-- The entry of the one that left stays, and that of the last one goes. -/
theorem exists_departure : ∃ (trace : List (ClientEvent Nat × Clients Nat)) (t : Clients Nat),
    Run ClientStep (Clients.initial 0) trace t ∧ trace.map Prod.fst = departure ∧
      t.table.entries.map PidNode.pid = [101, 102] ∧ t.live.map PidNode.pid = [102, 103] := by
  refine ⟨_, _, .cons (.forked _ 1 101 ?_ ?_ ?_) (.cons (.forked _ 2 102 ?_ ?_ ?_)
    (.cons (.forked _ 3 103 ?_ ?_ ?_) (.cons (.killed _ ⟨101, 1⟩ ?_) (.nil _)))), rfl, ?_, ?_⟩
  all_goals decide

theorem table_tracks_iff_departure :
    ∃ (trace : List (ClientEvent Nat × Clients Nat)) (t : Clients Nat),
      trace.map Prod.fst = departure ∧
        ((∀ v ∈ states (Clients.initial 0) trace, Tracks v) ↔
          Run (Guarded ClientStep OnlyForks) (Clients.initial 0) trace t) := by
  obtain ⟨trace, t, run, hevents, _⟩ := exists_departure
  exact ⟨trace, t, hevents, table_tracks_iff run⟩

theorem departure_loses_track :
    ¬ ∀ (trace : List (ClientEvent Nat × Clients Nat)) (t : Clients Nat),
      Run ClientStep (Clients.initial 0) trace t →
        ∀ v ∈ states (Clients.initial 0) trace, Tracks v := by
  intro hall
  obtain ⟨trace, t, run, _, hentries, hlive⟩ := exists_departure
  have hperm := (hall trace t run t run.mem_states).entries.map PidNode.pid
  rw [hentries, hlive] at hperm
  exact absurd (hperm.mem_iff.mp List.mem_cons_self) (by decide)

end AirTraffic.Server
