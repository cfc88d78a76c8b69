/-
  Atcd/Ledger.lean --- the planes file whatever the padding of the planes is.

  WHAT THIS FILE IS FOR.  `Fleet.lean` knows the file exactly, as long as every
  plane is filed under its id.  When the padding of a plane runs on behind its
  id, the key does too, and a later store of the same plane may find another row
  or none.  What remains is said here: the file lists planes, each under a key
  that begins with its id (`Lists`); storing a plane goes to one row with that id
  or makes a new one (`Stores`); a poll is a number of such stores, each of a
  plane that came down (`Settles`), and it always ends (`getAirplanes_lists`).
-/
import Mathlib.Logic.Relation
import AirTraffic.Atcd.Fleet

set_option autoImplicit false

namespace AirTraffic.Atcd

open AirTraffic.Foundation AirTraffic.Storage

/-- The plane in a row. -/
def planeOf (row : Row) : AtcPlane := AtcPlane.ofBytes row.data

/-- The row is filed under a key that begins with the id of its plane. -/
structure Filed (row : Row) : Prop where
  key : row.key.take 6 = (planeOf row).id.toList
  free : NulFree (planeOf row).id.toList

/-- The file lists the planes: one row for each, in order. -/
structure Lists (file : Bytes) (fleet : List AtcPlane) : Prop where
  whole : Whole planesDb file
  planes : (rowsOf planesDb file).map planeOf = fleet
  filed : ∀ row ∈ rowsOf planesDb file, Filed row

/-- A row at which `sto_set` stops when it stores the plane. -/
def answers (plane : AtcPlane) (row : Row) : Bool :=
  keyMatches plane.bytes (strnlen plane.bytes stoKeySize) row.key

/-- The plane that makes room when a plane is stored, if one has to. -/
def slotOf (file : Bytes) (plane : AtcPlane) : Option AtcPlane :=
  ((rowsOf planesDb file).find? (answers plane)).map planeOf

/-- Storing a plane: it takes the place of a plane with its id, or comes last. -/
inductive Stores (plane : AtcPlane) :
    Option AtcPlane → List AtcPlane → List AtcPlane → Prop
  | renew {old : AtcPlane} (before after : List AtcPlane) (hid : old.id = plane.id) :
      Stores plane (some old) (before ++ old :: after) (before ++ plane :: after)
  | fresh (fleet : List AtcPlane) : Stores plane none fleet (fleet ++ [plane])

theorem lists_nil : Lists [] [] where
  whole := whole_nil planesDb
  planes := by rw [rowsOf_nil fits_planes]; rfl
  filed := by rw [rowsOf_nil fits_planes]; simp

theorem Lists.length_file {file : Bytes} {fleet : List AtcPlane} (lists : Lists file fleet) :
    file.length = fileLength planesDb fleet.length := by
  obtain ⟨n, hn⟩ := lists.whole
  rwa [← lists.planes, List.length_map, length_rowsOf fits_planes hn]

theorem planeOf_rowOf (plane : AtcPlane) : planeOf (rowOf plane) = plane :=
  AtcPlane.ofBytes_bytes plane

/-- A file that holds a fleet lists it. -/
theorem Holds.lists {file : Bytes} {fleet : List AtcPlane} (holds : Holds file fleet) :
    Lists file fleet where
  whole := holds.whole
  planes := by
    have hview : planeOf ∘ rowOf = id := funext planeOf_rowOf
    rw [holds.rows, List.map_map, hview, List.map_id]
  filed := by
    rw [holds.rows]
    intro row hmem
    obtain ⟨plane, hplane, rfl⟩ := List.mem_map.mp hmem
    have htake : (rowOf plane).key.take 6 = plane.id.toList := List.take_left' (length_id plane)
    exact
      { key := by rw [planeOf_rowOf]; exact htake
        free := by rw [planeOf_rowOf]; exact (holds.named plane hplane).free }

theorem Lists.free {file : Bytes} {fleet : List AtcPlane} (lists : Lists file fleet)
    {plane : AtcPlane} (hmem : plane ∈ fleet) : NulFree plane.id.toList := by
  rw [← lists.planes] at hmem
  obtain ⟨row, hrow, rfl⟩ := List.mem_map.mp hmem
  exact (lists.filed row hrow).free

/-! ## Which row answers -/

section Answers

variable {plane : AtcPlane} {row : Row}

theorem take_bytes (plane : AtcPlane) : plane.bytes.take 6 = plane.id.toList := by
  obtain ⟨rest, hbytes⟩ := bytes_eq_id_append plane
  rw [hbytes, List.take_left' (length_id plane)]

theorem le_strnlen_bytes (hfree : NulFree plane.id.toList) :
    6 ≤ strnlen plane.bytes stoKeySize := by
  obtain ⟨rest, hbytes⟩ := bytes_eq_id_append plane
  have happend := strnlen_append hfree (plane.pad.head :: rest) 10
  rw [length_id, ← hbytes] at happend
  have hsize : stoKeySize = 6 + 10 := rfl
  rw [hsize, happend]
  exact Nat.le_add_right _ _

theorem answers_iff_take (plane : AtcPlane) (row : Row) :
    answers plane row = true ↔
      row.key.take (strnlen plane.bytes stoKeySize) =
        plane.bytes.take (strnlen plane.bytes stoKeySize) := by
  rw [answers, keyMatches, decide_eq_true_eq]
  exact strncmp_eq_zero_iff_take _ _ (strnlen_le_length _ _) (nulFree_take_strnlen _ _)

/-- Only rows with its id answer to a plane. -/
theorem Filed.id_eq (filed : Filed row) (hfree : NulFree plane.id.toList)
    (h : answers plane row = true) : (planeOf row).id = plane.id := by
  have hle := le_strnlen_bytes hfree
  have htake := congrArg (List.take 6) ((answers_iff_take plane row).mp h)
  rw [List.take_take, List.take_take, Nat.min_eq_left hle, filed.key, take_bytes] at htake
  exact List.Vector.eq _ _ htake

/-- All rows with its id answer to a plane whose key is its id. -/
theorem Filed.answers_iff (filed : Filed row) (named : plane.Named) :
    answers plane row = true ↔ (planeOf row).id = plane.id := by
  constructor
  · exact filed.id_eq named.free
  · intro hid
    rw [answers_iff_take, named.strnlen_eq, filed.key, take_bytes, hid]

theorem Filed.key_not_empty (filed : Filed row) : stoKeyEmpty row.key = false := by
  apply decide_eq_false
  intro hempty
  have hzero : (0 : UInt8) ∈ row.key.take 6 := by rw [hempty]; decide
  rw [filed.key] at hzero
  exact filed.free 0 hzero rfl

end Answers

/-! ## Storing -/

theorem planeOf_data (key : Bytes) (plane : AtcPlane) :
    planeOf { key := key, data := plane.bytes } = plane := AtcPlane.ofBytes_bytes plane

/-- The rows after a plane was stored, by whether a row answered. -/
theorem setRows_cases (plane : AtcPlane) (rows : List Row) :
    ((rows.find? (answers plane)) = none ∧
      setRows plane.bytes plane.bytes rows =
        rows ++ [{ key := storedKey plane.bytes, data := plane.bytes }]) ∨
    ∃ before old after, rows = before ++ old :: after ∧ answers plane old = true ∧
      rows.find? (answers plane) = some old ∧
      setRows plane.bytes plane.bytes rows =
        before ++ { old with data := plane.bytes } :: after := by
  rcases forall_not_or_first (answers plane) rows with
    hnone | ⟨before, old, after, hrows, hbefore, hold⟩
  · refine Or.inl ⟨List.find?_eq_none.mpr fun row hmem => by simp [hnone row hmem], ?_⟩
    rw [← strncpy_key]
    exact upsert_of_forall_not hnone
  · refine Or.inr ⟨before, old, after, hrows, hold, ?_, ?_⟩
    · exact List.find?_eq_some_iff_append.mpr
        ⟨hold, before, after, hrows, fun row hmem => by simp [hbefore row hmem]⟩
    · rw [hrows]
      exact upsert_append_cons hbefore hold

theorem stores_setRows {rows : List Row} {plane : AtcPlane}
    (hfiled : ∀ row ∈ rows, Filed row) (hfree : NulFree plane.id.toList) :
    Stores plane ((rows.find? (answers plane)).map planeOf) (rows.map planeOf)
      ((setRows plane.bytes plane.bytes rows).map planeOf) := by
  rcases setRows_cases plane rows with
    ⟨hnone, hset⟩ | ⟨before, old, after, hrows, hold, hfind, hset⟩
  · rw [hnone, hset, List.map_append, List.map_singleton, planeOf_data]
    exact .fresh _
  · have hid := (hfiled old (by rw [hrows]; simp)).id_eq hfree hold
    rw [hfind, hset, hrows, List.map_append, List.map_append, List.map_cons, List.map_cons,
      planeOf_data]
    exact .renew _ _ hid

theorem filed_setRows {rows : List Row} {plane : AtcPlane}
    (hfiled : ∀ row ∈ rows, Filed row) (hfree : NulFree plane.id.toList) :
    ∀ row ∈ setRows plane.bytes plane.bytes rows, Filed row := by
  have hnew : ∀ {key : Bytes}, key.take 6 = plane.id.toList →
      Filed { key := key, data := plane.bytes } := fun hkey =>
    { key := by rw [planeOf_data]; exact hkey, free := by rw [planeOf_data]; exact hfree }
  have hkey : (storedKey plane.bytes).take 6 = plane.id.toList := by
    have hle := le_strnlen_bytes hfree
    have hlength := strnlen_le_length plane.bytes stoKeySize
    rw [storedKey, nulPad, List.take_append_of_le_length (by rw [List.length_take]; omega),
      List.take_take, Nat.min_eq_left hle, take_bytes]
  intro row hmem
  rcases setRows_cases plane rows with
    ⟨_, hset⟩ | ⟨before, old, after, hrows, hold, _, hset⟩
  · rw [hset] at hmem
    rcases List.mem_append.mp hmem with hmem | hmem
    · exact hfiled row hmem
    · rw [List.mem_singleton.mp hmem]
      exact hnew hkey
  · have hfiledOld := hfiled old (by rw [hrows]; simp)
    rw [hset] at hmem
    rcases List.mem_append.mp hmem with hmem | hmem
    · exact hfiled row (by rw [hrows]; simp [hmem])
    · rcases List.mem_cons.mp hmem with rfl | hmem
      · exact hnew (by rw [hfiledOld.key, hfiledOld.id_eq hfree hold])
      · exact hfiled row (by rw [hrows]; simp [hmem])

/-- Storing a plane whose key is its id puts it into the list. -/
theorem map_setRows {rows : List Row} {plane : AtcPlane}
    (hfiled : ∀ row ∈ rows, Filed row) (named : plane.Named) :
    (setRows plane.bytes plane.bytes rows).map planeOf =
      put AtcPlane.id plane (rows.map planeOf) := by
  have hmap : (setRows plane.bytes plane.bytes rows).map planeOf =
      upsert (fun other => decide (other.id = plane.id)) (fun _ => plane)
        (planeOf
          { key := strncpy (zeros stoKeySize) plane.bytes (strnlen plane.bytes stoKeySize)
            data := plane.bytes })
        (rows.map planeOf) := by
    apply map_upsert
    · intro row hmem
      have hiff := (hfiled row hmem).answers_iff named
      exact Bool.eq_iff_iff.mpr (hiff.trans decide_eq_true_iff.symm)
    · intro row _
      exact planeOf_data row.key plane
  rw [hmap, planeOf_data]
  rfl

/-- **Storing a plane, whatever its padding.** -/
theorem storePlane_lists {file : Bytes} {fleet : List AtcPlane} {plane : AtcPlane}
    (lists : Lists file fleet) (hfree : NulFree plane.id.toList) :
    ∃ file' fleet', storePlane plane (Disk.sound file) =
        (Int32.ofNat sizeofPlane, Disk.sound file') ∧
      Lists file' fleet' ∧ Stores plane (slotOf file plane) fleet fleet' ∧
      rowsOf planesDb file' = setRows plane.bytes plane.bytes (rowsOf planesDb file) := by
  obtain ⟨file', hset, hwhole, hrows⟩ := stoSet_sound plane.bytes fits_planes
    lists.whole (AtcPlane.length_bytes plane)
    (fun stored hmem _ => (lists.filed stored hmem).key_not_empty)
  refine ⟨file', (rowsOf planesDb file').map planeOf, hset, ⟨hwhole, rfl, ?_⟩, ?_, hrows⟩
  · rw [hrows]
    exact filed_setRows lists.filed hfree
  · rw [← lists.planes, hrows]
    exact stores_setRows lists.filed hfree

/-- A plane whose key is its id is put into the list. -/
theorem storePlane_lists_put {file : Bytes} {fleet : List AtcPlane} {plane : AtcPlane}
    (lists : Lists file fleet) (named : plane.Named) :
    ∃ file', storePlane plane (Disk.sound file) =
        (Int32.ofNat sizeofPlane, Disk.sound file') ∧
      Lists file' (put AtcPlane.id plane fleet) := by
  obtain ⟨file', fleet', hstore, lists', _, hrows⟩ := storePlane_lists lists named.free
  have hput : fleet' = put AtcPlane.id plane fleet := by
    rw [← lists'.planes, hrows, map_setRows lists.filed named, lists.planes]
  exact ⟨file', hstore, hput ▸ lists'⟩

/-! ## What a store leaves alone -/

/-- The number of planes that are flying. -/
def flyingCount (fleet : List AtcPlane) : Nat :=
  fleet.countP fun plane => plane.status = flying

section Stores

variable {plane : AtcPlane} {slot : Option AtcPlane} {fleet fleet' : List AtcPlane}

theorem Stores.mem (h : Stores plane slot fleet fleet') {row : AtcPlane}
    (hmem : row ∈ fleet') : row = plane ∨ row ∈ fleet := by
  cases h with
  | renew before after hid =>
      rcases List.mem_append.mp hmem with hmem | hmem
      · exact Or.inr (List.mem_append_left _ hmem)
      · rcases List.mem_cons.mp hmem with heq | hmem
        · exact Or.inl heq
        · exact Or.inr (List.mem_append_right _ (List.mem_cons_of_mem _ hmem))
  | fresh =>
      rcases List.mem_append.mp hmem with hmem | hmem
      · exact Or.inr hmem
      · exact Or.inl (List.mem_singleton.mp hmem)

/-- A place keeps its plane unless it is the slot. -/
theorem Stores.getElem? (h : Stores plane slot fleet fleet') {k : Nat} {row : AtcPlane}
    (hrow : fleet[k]? = some row) :
    fleet'[k]? = some row ∨ (fleet'[k]? = some plane ∧ slot = some row ∧ row.id = plane.id) := by
  cases h with
  | renew before after hid =>
      rcases Nat.lt_trichotomy k before.length with hlt | rfl | hgt
      · rw [List.getElem?_append_left hlt] at hrow ⊢
        exact Or.inl hrow
      · rw [getElem?_append_length] at hrow ⊢
        obtain rfl := Option.some.inj hrow
        exact Or.inr ⟨rfl, rfl, hid⟩
      · obtain ⟨j, rfl⟩ : ∃ j, k = before.length + (j + 1) :=
          ⟨k - before.length - 1, by omega⟩
        rw [List.getElem?_append_right (Nat.le_add_right _ _), Nat.add_sub_cancel_left,
          List.getElem?_cons_succ] at hrow ⊢
        exact Or.inl hrow
  | fresh =>
      have hlt : k < fleet.length := (List.getElem?_eq_some_iff.mp hrow).1
      rw [List.getElem?_append_left hlt]
      exact Or.inl hrow

/-- The plane in the slot is where the one stored will be. -/
theorem Stores.slot_at {old : AtcPlane} (h : Stores plane slot fleet fleet')
    (hold : slot = some old) :
    ∃ k : Nat, fleet[k]? = some old ∧ fleet'[k]? = some plane := by
  cases h with
  | renew before after hid =>
      obtain rfl := Option.some.inj hold
      exact ⟨before.length, getElem?_append_length _ _ _, getElem?_append_length _ _ _⟩
  | fresh => exact absurd hold (by simp)

theorem Stores.length_le (h : Stores plane slot fleet fleet') :
    fleet.length ≤ fleet'.length ∧ fleet'.length ≤ fleet.length + 1 := by
  cases h with
  | renew before after hid =>
      simp only [List.length_append, List.length_cons]
      omega
  | fresh =>
      simp only [List.length_append, List.length_singleton]
      omega

/-- Who flies after a store: the plane stored instead of the one in the slot. -/
theorem Stores.flyingCount_add (h : Stores plane slot fleet fleet') :
    flyingCount fleet' + flyingCount slot.toList = flyingCount fleet + flyingCount [plane] := by
  cases h with
  | renew before after hid =>
      simp only [flyingCount, List.countP_append, List.countP_cons, List.countP_nil,
        Option.toList_some]
      omega
  | fresh =>
      simp [flyingCount]

/-- Storing a plane that is down makes no place fly. -/
theorem Stores.flyingCount_drop_le (h : Stores plane slot fleet fleet')
    (hdown : plane.status ≠ flying) (k : Nat) :
    flyingCount (fleet'.drop k) ≤ flyingCount (fleet.drop k) := by
  have hself : flyingCount [plane] = 0 := by simp [flyingCount, hdown]
  cases h with
  | renew before after hid =>
      rcases Nat.lt_or_ge before.length k with hlt | hge
      · rw [List.drop_append, List.drop_append]
        obtain ⟨j, hj⟩ : ∃ j, k - before.length = j + 1 := ⟨k - before.length - 1, by omega⟩
        rw [hj, List.drop_succ_cons, List.drop_succ_cons]
      · rw [List.drop_append_of_le_length hge, List.drop_append_of_le_length hge]
        simp only [flyingCount, List.countP_append, List.countP_cons, hdown,
          decide_false, Bool.false_eq_true, if_false]
        omega
  | fresh =>
      rw [List.drop_append]
      have hlast : flyingCount ([plane].drop (k - fleet.length)) ≤
          flyingCount [plane] :=
        List.Sublist.countP_le (List.drop_sublist _ _)
      rw [flyingCount, List.countP_append]
      unfold flyingCount at hlast hself ⊢
      omega

end Stores

/-- Rows that can make room only for a plane with their id keep their places. -/
theorem put_stores (plane : AtcPlane) (fleet : List AtcPlane) :
    Stores plane (fleet.find? fun other => other.id = plane.id) fleet
      (put AtcPlane.id plane fleet) := by
  rcases forall_not_or_first (fun other : AtcPlane => decide (other.id = plane.id)) fleet with
    hnone | ⟨before, old, after, rfl, hbefore, hold⟩
  · have hfind : (fleet.find? fun other => other.id = plane.id) = none :=
      List.find?_eq_none.mpr fun other hmem => by simp [hnone other hmem]
    have hput : put AtcPlane.id plane fleet = fleet ++ [plane] := upsert_of_forall_not hnone
    rw [hfind, hput]
    exact .fresh fleet
  · have hfind : ((before ++ old :: after).find? fun other => other.id = plane.id) =
        some old :=
      List.find?_eq_some_iff_append.mpr
        ⟨hold, before, after, rfl, fun other hmem => by simp [hbefore other hmem]⟩
    have hput : put AtcPlane.id plane (before ++ old :: after) = before ++ plane :: after :=
      upsert_append_cons hbefore hold
    rw [hfind, hput]
    exact .renew before after (of_decide_eq_true hold)

/-- What was stored is what the first row with the id holds. -/
theorem find?_put (plane : AtcPlane) (fleet : List AtcPlane) :
    ((put AtcPlane.id plane fleet).find? fun other => other.id = plane.id) = some plane := by
  induction fleet with
  | nil => simp
  | cons other rest ih =>
      by_cases hid : other.id = plane.id
      · rw [put_cons_of_eq rest hid]
        exact List.find?_cons_of_pos (by simp)
      · rw [put_cons_of_ne rest hid, List.find?_cons_of_neg (by simpa using hid)]
        exact ih

/-! ## The first row of an id -/

/-- No plane with the id comes before one that is flying. -/
def Leads (id : List.Vector UInt8 6) (fleet : List AtcPlane) : Prop :=
  fleet.Pairwise fun earlier later =>
    later.id = id → later.status = flying → earlier.id ≠ id

section Leads

variable {id : List.Vector UInt8 6} {plane : AtcPlane} {slot : Option AtcPlane}
  {fleet fleet' : List AtcPlane}

/-- A flying plane is found under its id. -/
theorem Leads.find? (leads : Leads id fleet) (hmem : plane ∈ fleet) (hid : plane.id = id)
    (hflying : plane.status = flying) :
    (fleet.find? fun row => row.id = id) = some plane := by
  obtain ⟨before, after, rfl⟩ := List.append_of_mem hmem
  have hbefore := (List.pairwise_append.mp leads).2.2
  refine List.find?_eq_some_iff_append.mpr ⟨by simpa using hid, before, after, rfl, ?_⟩
  intro row hrow
  simpa using hbefore row hrow plane List.mem_cons_self hid hflying

theorem Stores.leads (h : Stores plane slot fleet fleet') (leads : Leads id fleet)
    (hnew : plane.id = id → plane.status = flying → ∀ row ∈ fleet, row.id ≠ id) :
    Leads id fleet' := by
  cases h with
  | @renew old before after hid =>
      obtain ⟨hbefore, hold, hacross⟩ := List.pairwise_append.mp leads
      obtain ⟨holdAfter, hafter⟩ := List.pairwise_cons.mp hold
      refine List.pairwise_append.mpr ⟨hbefore, List.pairwise_cons.mpr ⟨?_, hafter⟩, ?_⟩
      · intro later hlater hlaterId hflying
        rw [← hid]
        exact holdAfter later hlater hlaterId hflying
      · intro earlier hearlier later hlater
        rcases List.mem_cons.mp hlater with rfl | hlater
        · exact fun hsame hflying => hnew hsame hflying earlier (List.mem_append_left _ hearlier)
        · exact hacross earlier hearlier later (List.mem_cons_of_mem _ hlater)
  | fresh =>
      refine List.pairwise_append.mpr ⟨leads, List.pairwise_singleton _ _, ?_⟩
      intro earlier hearlier later hlater
      rw [List.mem_singleton.mp hlater]
      exact fun hsame hflying => hnew hsame hflying earlier hearlier

theorem leads_put (plane : AtcPlane) (leads : Leads id fleet) :
    Leads id (put AtcPlane.id plane fleet) := by
  induction fleet with
  | nil => exact List.pairwise_singleton _ _
  | cons head rest ih =>
      obtain ⟨hhead, hrest⟩ := List.pairwise_cons.mp leads
      by_cases hid : head.id = plane.id
      · rw [put_cons_of_eq rest hid]
        refine List.pairwise_cons.mpr ⟨?_, hrest⟩
        intro later hlater hlaterId hflying
        rw [← hid]
        exact hhead later hlater hlaterId hflying
      · rw [put_cons_of_ne rest hid]
        refine List.pairwise_cons.mpr ⟨?_, ih hrest⟩
        intro later hlater hlaterId hflying
        rcases (put_stores plane rest).mem hlater with rfl | hold
        · exact fun hsame => hid (hsame.trans hlaterId.symm)
        · exact hhead later hold hlaterId hflying

/-- After a store the first row of an id is what it was, or what was stored. -/
theorem Stores.find? (h : Stores plane slot fleet fleet') {row : AtcPlane}
    (hrow : (fleet.find? fun other => other.id = id) = some row) :
    (fleet'.find? fun other => other.id = id) = some row ∨
      plane.id = id ∧ (fleet'.find? fun other => other.id = id) = some plane := by
  cases h with
  | @renew old before after hid =>
      rw [List.find?_append, List.find?_cons] at hrow
      rw [List.find?_append, List.find?_cons]
      cases hbefore : before.find? fun other => decide (other.id = id) with
      | some first =>
          rw [hbefore] at hrow
          exact Or.inl hrow
      | none =>
          rw [hbefore, Option.none_or] at hrow
          rw [Option.none_or]
          by_cases hsame : plane.id = id
          · simp [hsame]
          · have hold : old.id ≠ id := fun h => hsame (hid.symm.trans h)
            simp only [hold, hsame, decide_false] at hrow ⊢
            exact Or.inl hrow
  | fresh =>
      left
      rw [List.find?_append, hrow]
      rfl

end Leads

section Game

variable [Platform]

/-! ## Creating and commanding -/

omit [Platform] in
/-- `create_plane`, whatever the padding of the plane. -/
theorem createPlane_lists {file : Bytes} {fleet : List AtcPlane} (lists : Lists file fleet)
    (chance : Chance) (now : Int64) (counters : Counters) :
    ∃ file' fleet', createPlane chance now counters (Disk.sound file) = Disk.sound file' ∧
      Lists file' fleet' ∧
      if counters.planesCount = Int32.ofNat maxPlanes then fleet' = fleet
      else Stores (newPlane chance now) (slotOf file (newPlane chance now)) fleet fleet' := by
  unfold createPlane
  split
  · exact ⟨file, fleet, rfl, lists, rfl⟩
  · obtain ⟨file', fleet', hstore, lists', stores, _⟩ :=
      storePlane_lists lists (nulFree_newPlane chance now)
    exact ⟨file', fleet', by rw [hstore], lists', stores⟩

/-- `set` on a plane whose key is its id. -/
theorem set_lists {file : Bytes} {fleet : List AtcPlane} {plane : AtcPlane}
    (lists : Lists file fleet) (named : plane.Named) (cmd : Int32) (now : Int64) :
    ∃ file', (set cmd plane now (Disk.sound file)).2.2 = Disk.sound file' ∧
      Lists file' (commandedFleet cmd plane now fleet) ∧
      ((set cmd plane now (Disk.sound file)).1 = -1 ↔ commanded cmd plane now = none) := by
  rw [set_eq, commandedFleet]
  cases hcommanded : commanded cmd plane now with
  | none => exact ⟨file, rfl, lists, by simp⟩
  | some stored =>
      obtain ⟨hid, hpad⟩ := commanded_id_pad hcommanded
      obtain ⟨file', hstore, lists'⟩ := storePlane_lists_put lists (named.congr hid hpad)
      have hwritten : Int32.ofNat sizeofPlane ≠ -1 := by decide
      refine ⟨file', by simp only [hstore], lists', ?_⟩
      simp only [hstore, reduceCtorEq, iff_false]
      split
      · decide
      · exact hwritten

/-! ## Polls -/

/-- A poll settles planes that came down, one after the other. -/
def Settles (now : Int64) : List AtcPlane → List AtcPlane → Prop :=
  Relation.ReflTransGen fun fleet fleet' =>
    ∃ plane ∈ fleet, ComesDown now plane ∧
      ∃ slot, Stores (settle plane now) slot fleet fleet'

/-- A plane listed after a poll was listed before, or came down. -/
theorem Settles.mem_or_down {now : Int64} {fleet fleet' : List AtcPlane}
    (h : Settles now fleet fleet') {row : AtcPlane} (hmem : row ∈ fleet') :
    row ∈ fleet ∨ row.Down := by
  induction h with
  | refl => exact Or.inl hmem
  | tail _ step ih =>
      obtain ⟨plane, _, _, slot, stores⟩ := step
      rcases stores.mem hmem with rfl | hold
      · exact Or.inr (down_settle plane now)
      · exact ih hold

/-- A poll makes no plane fly. -/
theorem Settles.mem_of_flying {now : Int64} {fleet fleet' : List AtcPlane}
    (h : Settles now fleet fleet') {row : AtcPlane} (hmem : row ∈ fleet')
    (hflying : row.status = flying) : row ∈ fleet :=
  (h.mem_or_down hmem).resolve_right fun hdown => hdown.not_flying hflying

/-- A plane listed after a poll was listed before, or is one of those, settled. -/
theorem Settles.mem_or_settled {now : Int64} {fleet fleet' : List AtcPlane}
    (h : Settles now fleet fleet') {row : AtcPlane} (hmem : row ∈ fleet') :
    row ∈ fleet ∨ ∃ plane ∈ fleet, ComesDown now plane ∧ row = settle plane now := by
  induction h with
  | refl => exact Or.inl hmem
  | tail before step ih =>
      obtain ⟨plane, hplane, hdown, slot, stores⟩ := step
      rcases stores.mem hmem with rfl | hold
      · have hbefore : Settles now fleet _ := before
        exact Or.inr ⟨plane, hbefore.mem_of_flying hplane hdown.1, hdown, rfl⟩
      · exact ih hold

theorem Settles.leads {now : Int64} {id : List.Vector UInt8 6} {fleet fleet' : List AtcPlane}
    (h : Settles now fleet fleet') (leads : Leads id fleet) : Leads id fleet' := by
  induction h with
  | refl => exact leads
  | tail _ step ih =>
      obtain ⟨plane, _, _, slot, stores⟩ := step
      exact stores.leads ih fun _ hflying =>
        absurd hflying (down_settle plane now).not_flying

/-- The rows ahead of the scan, and the stores they can cause. -/
def pollRemaining (i : Nat) (fleet : List AtcPlane) : Nat :=
  (fleet.length - i) + flyingCount (fleet.drop i)

omit [Platform] in
/-- Behind a row there is one row less, and the store it could cause is gone. -/
theorem pollRemaining_succ {fleet : List AtcPlane} {plane : AtcPlane} {i : Nat}
    (hplane : fleet[i]? = some plane) :
    pollRemaining (i + 1) fleet + 1 + flyingCount [plane] = pollRemaining i fleet := by
  obtain ⟨hlt, hget⟩ := List.getElem?_eq_some_iff.mp hplane
  have hdrop : fleet.drop i = plane :: fleet.drop (i + 1) := by
    rw [List.drop_eq_getElem_cons hlt, hget]
  have hcount : flyingCount (fleet.drop i) =
      flyingCount (fleet.drop (i + 1)) + flyingCount [plane] := by
    rw [hdrop]
    simp [flyingCount, List.countP_cons]
  unfold pollRemaining
  omega

omit [Platform] in
/-- The rounds of a poll are more than it can need. -/
theorem pollRemaining_lt_pollFuel {file : Bytes} {fleet : List AtcPlane}
    (h : file.length = fileLength planesDb fleet.length) :
    pollRemaining 0 fleet < pollFuel (Disk.sound file) := by
  have hle := le_length_of_fileLength fits_planes h
  have hcount : flyingCount fleet ≤ fleet.length := List.countP_le_length
  rw [pollRemaining, pollFuel, List.drop_zero]
  simp only [List.length_nil]
  omega

/-- One round of the loop: it stores a plane that came down, or returns one that
did not, or does neither. -/
structure PollRound (now : Int64) (plane : AtcPlane) (fleet fleet' : List AtcPlane)
    (buffer buffer' : List AtcPlane) : Prop where
  fleet : fleet' = fleet ∨
    ComesDown now plane ∧ ∃ slot, Stores (settle plane now) slot fleet fleet'
  buffer : buffer' = buffer ∨
    (StaysUp now plane ∧ buffer.length < maxPlanes) ∧ buffer' = buffer ++ [advance plane now]

section PollRound

variable {now : Int64} {plane : AtcPlane} {fleet fleet' buffer buffer' : List AtcPlane}

theorem PollRound.settles (round : PollRound now plane fleet fleet' buffer buffer')
    (hmem : plane ∈ fleet) : Settles now fleet fleet' := by
  rcases round.fleet with rfl | ⟨hdown, slot, stores⟩
  · exact .refl
  · exact .single ⟨plane, hmem, hdown, slot, stores⟩

theorem PollRound.length_le (round : PollRound now plane fleet fleet' buffer buffer') :
    fleet.length ≤ fleet'.length := by
  rcases round.fleet with rfl | ⟨_, slot, stores⟩
  · exact Nat.le_refl _
  · exact stores.length_le.1

theorem PollRound.room (round : PollRound now plane fleet fleet' buffer buffer')
    (hroom : buffer.length ≤ maxPlanes) : buffer'.length ≤ maxPlanes := by
  rcases round.buffer with rfl | ⟨⟨_, hlt⟩, rfl⟩
  · exact hroom
  · rw [List.length_append, List.length_singleton]
    exact hlt

theorem PollRound.mem (round : PollRound now plane fleet fleet' buffer buffer')
    {other : AtcPlane} (hmem : other ∈ buffer') :
    other ∈ buffer ∨ StaysUp now plane ∧ other = advance plane now := by
  rcases round.buffer with rfl | ⟨⟨hstays, _⟩, rfl⟩
  · exact Or.inl hmem
  · exact (List.mem_append.mp hmem).imp_right fun hnew =>
      ⟨hstays, List.mem_singleton.mp hnew⟩

/-- Every round of the loop uses up a row, or a store. -/
theorem PollRound.remaining_lt (round : PollRound now plane fleet fleet' buffer buffer')
    {i : Nat} (hplane : fleet[i]? = some plane) :
    pollRemaining (i + 1) fleet' < pollRemaining i fleet := by
  have hlt := (List.getElem?_eq_some_iff.mp hplane).1
  have hless := pollRemaining_succ hplane
  rcases round.fleet with rfl | ⟨hdown, slot, stores⟩
  · omega
  · unfold pollRemaining at *
    have hone : flyingCount [plane] = 1 := by simp [flyingCount, hdown.1]
    have hcount := stores.flyingCount_drop_le (down_settle plane now).not_flying (i + 1)
    have hlength := stores.length_le
    omega

end PollRound

/-- The body of the loop. -/
theorem pollRow_lists (now : Int64) {file : Bytes} {fleet : List AtcPlane} {plane : AtcPlane}
    (poll : Poll) (lists : Lists file fleet) (hmem : plane ∈ fleet)
    (hdisk : poll.query.disk = Disk.sound file)
    (hrow : AtcPlane.ofBytes poll.query.row = plane)
    (hlength : poll.query.row.length = sizeofPlane) :
    ∃ file' fleet' row buffer counters,
      pollRow now poll =
        { query := { poll.query with disk := Disk.sound file', row := row }
          buffer := buffer
          counters := counters } ∧
      row.length = sizeofPlane ∧ Lists file' fleet' ∧
      PollRound now plane fleet fleet' poll.buffer buffer := by
  have hbuffer : ∀ buffer, buffer =
      (if StaysUp now plane ∧ poll.buffer.length < maxPlanes then
        poll.buffer ++ [advance plane now] else poll.buffer) →
      buffer = poll.buffer ∨ (StaysUp now plane ∧ poll.buffer.length < maxPlanes) ∧
        buffer = poll.buffer ++ [advance plane now] := by
    rintro buffer rfl
    split
    · rename_i hstays
      exact Or.inr ⟨hstays, rfl⟩
    · exact Or.inl rfl
  by_cases hdown : ComesDown now plane
  · have hfree : NulFree (settle plane now).id.toList := by
      rw [settle_id]
      exact lists.free hmem
    obtain ⟨file', fleet', hstore, lists', stores, _⟩ := storePlane_lists lists hfree
    obtain ⟨row, hlen, hbody⟩ := pollRow_eq hdisk hrow hlength (fun _ => by rw [hstore])
      fun hnot => absurd hdown hnot
    exact ⟨file', fleet', row, _, _, hbody, hlen, lists', Or.inr ⟨hdown, _, stores⟩,
      hbuffer _ rfl⟩
  · obtain ⟨row, hlen, hbody⟩ := pollRow_eq hdisk hrow hlength (fun hcomes => absurd hcomes hdown)
      fun _ => rfl
    exact ⟨file, fleet, row, _, _, hbody, hlen, lists, Or.inl rfl, hbuffer _ rfl⟩

/-- A round at a row of the file, and the scan after it. -/
theorem pollRound_lists (now : Int64) {file : Bytes} {fleet : List AtcPlane} {i : Nat}
    {query : Scan} (buffer : List AtcPlane) (counters : Counters) (lists : Lists file fleet)
    (hlt : i < fleet.length) (ready : Ready planesDb true file i query) (rounds : Nat) :
    ∃ file' fleet' plane query' buffer' counters',
      pollLoop now (rounds + 1) (stoGet planesDb noopCmp query).1
          { query := (stoGet planesDb noopCmp query).2, buffer := buffer, counters := counters } =
        pollLoop now rounds (stoGet planesDb noopCmp query').1
          { query := (stoGet planesDb noopCmp query').2
            buffer := buffer'
            counters := counters' } ∧
      fleet[i]? = some plane ∧ Lists file' fleet' ∧
      Ready planesDb true file' (i + 1) query' ∧
      PollRound now plane fleet fleet' buffer buffer' := by
  have hn := lists.length_file
  have hplane : fleet[i]? = some (planeOf (rowAt planesDb file i)) := by
    rw [← lists.planes, List.getElem?_map, getElem?_rowsOf fits_planes hn, if_pos hlt]
    rfl
  obtain ⟨file', fleet', row, buffer', counters', hbody, hrowLen, lists', round⟩ :=
    pollRow_lists now
      { query := afterRow planesDb true file query.row i
        buffer := buffer
        counters := counters } lists (List.mem_of_getElem? hplane) rfl rfl
      (length_data_rowAt hn hlt)
  have ready' := ready_nextScan hn hlt hrowLen file' query
  have hround := pollLoop_row hn hlt ready hbody rounds
  exact ⟨file', fleet', _, _, buffer', counters', hround, hplane, lists', ready', round⟩

/-- The loop, from any row on, ends: it settled planes, and returned planes that
stay in the air. -/
theorem pollLoop_lists {now : Int64} :
    ∀ (fuel : Nat) {i : Nat} {file : Bytes} {fleet : List AtcPlane} {query : Scan}
      (buffer : List AtcPlane) (counters : Counters),
      Lists file fleet → Ready planesDb true file i query → i ≤ fleet.length →
      pollRemaining i fleet < fuel → buffer.length ≤ maxPlanes →
      ∃ file' fleet' poll,
        pollLoop now fuel (stoGet planesDb noopCmp query).1
            { query := (stoGet planesDb noopCmp query).2
              buffer := buffer
              counters := counters } = some (0, poll) ∧
        poll.query.disk = Disk.sound file' ∧ Lists file' fleet' ∧
        Settles now fleet fleet' ∧ poll.buffer.length ≤ maxPlanes ∧
        ∀ plane ∈ poll.buffer, plane ∈ buffer ∨
          ∃ row ∈ fleet, StaysUp now row ∧ plane = advance row now := by
  intro fuel
  induction fuel with
  | zero => intro i file fleet query buffer counters _ _ _ hfuel; omega
  | succ rounds ih =>
      intro i file fleet query buffer counters lists ready hi hfuel hroom
      rcases Nat.lt_or_ge i fleet.length with hlt | hge
      · obtain ⟨file', fleet', plane, query', buffer', counters', hround, hplane, lists',
          ready', round⟩ := pollRound_lists now buffer counters lists hlt ready rounds
        have hmem := List.mem_of_getElem? hplane
        have settles := round.settles hmem
        have hless := round.remaining_lt hplane
        have hle := round.length_le
        obtain ⟨file'', fleet'', poll, hloop, hdisk, lists'', later, hfull, hall⟩ :=
          ih buffer' counters' lists' ready' (by omega) (by omega) (round.room hroom)
        refine ⟨file'', fleet'', poll, hround.trans hloop, hdisk, lists'',
          settles.trans later, hfull, ?_⟩
        intro other hother
        rcases hall other hother with hbuffer | ⟨row, hrow, hstays, rfl⟩
        · exact (round.mem hbuffer).imp_right fun ⟨hstays, heq⟩ => ⟨plane, hmem, hstays, heq⟩
        · exact Or.inr ⟨row, settles.mem_of_flying hrow hstays.1, hstays, rfl⟩
      · obtain rfl : i = fleet.length := by omega
        exact ⟨file, fleet, _, pollLoop_end lists.length_file ready buffer counters rounds, rfl,
          lists, .refl, hroom, fun _ hmem => Or.inl hmem⟩

/-- **What a poll does, whatever the padding of the planes.** -/
theorem getAirplanes_lists {file : Bytes} {fleet : List AtcPlane} (lists : Lists file fleet)
    (now : Int64) (counters : Counters) :
    ∃ poll file' fleet', getAirplanes now counters (Disk.sound file) = some poll ∧
      poll.disk = Disk.sound file' ∧ Lists file' fleet' ∧ Settles now fleet fleet' ∧
      poll.result = Int32.ofNat poll.buffer.length ∧ poll.buffer.length ≤ maxPlanes ∧
      ∀ plane ∈ poll.buffer, ∃ row ∈ fleet, StaysUp now row ∧ plane = advance row now := by
  have hfuel := pollRemaining_lt_pollFuel lists.length_file
  obtain ⟨file', fleet', poll, hloop, hdisk, lists', settles, hroom, hall⟩ :=
    pollLoop_lists (pollFuel (Disk.sound file)) []
      { counters with crashedCount := 0, landedCount := 0 } lists
      (ready_open planesDb true file (length_zeros stoKeySize)
        (fun _ => length_zeros sizeofPlane)) (Nat.zero_le _) hfuel (Nat.zero_le _)
  rw [getAirplanes_sound, hloop, Option.map_some]
  refine ⟨_, file', fleet', rfl, hdisk, lists', settles, rfl, hroom, ?_⟩
  intro plane hmem
  exact (hall plane hmem).resolve_left (by simp)

end Game

end AirTraffic.Atcd
