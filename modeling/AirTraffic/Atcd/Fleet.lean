/-
  Atcd/Fleet.lean --- the planes file as a fleet.

  WHAT THIS FILE IS FOR.  A fleet is the list of the planes stored, in order of
  creation; it is what the planes file is for.  `Holds` says that a file holds a
  fleet, and each operation of `atcd.c` gets its specification on fleets: storing
  is `put` (`storePlane_holds`), `create_plane` and `set` store one plane, and a
  poll settles the planes that came down, returns the first fifty of those that
  did not, and counts the others (`getAirplanes_holds`).
-/
import AirTraffic.Atcd.Game
import AirTraffic.Atcd.Identity

set_option autoImplicit false

namespace AirTraffic.Atcd

open AirTraffic.Foundation AirTraffic.Storage

/-- The row of a plane. -/
def rowOf (plane : AtcPlane) : Row := { key := plane.key, data := plane.bytes }

/-- The file holds the fleet: one row for each plane, under its id. -/
structure Holds (file : Bytes) (fleet : List AtcPlane) : Prop where
  whole : Whole planesDb file
  rows : rowsOf planesDb file = fleet.map rowOf
  distinct : (fleet.map AtcPlane.id).Nodup
  named : ∀ plane ∈ fleet, plane.Named

theorem fits_planes : planesDb.Fits := ⟨by decide, by decide, by decide⟩

theorem holds_nil : Holds [] [] :=
  ⟨whole_nil planesDb, rowsOf_nil fits_planes, List.nodup_nil, by simp⟩

theorem Holds.length_file {file : Bytes} {fleet : List AtcPlane} (holds : Holds file fleet) :
    file.length = fileLength planesDb fleet.length := by
  obtain ⟨n, hn⟩ := holds.whole
  have hlength := length_rowsOf fits_planes hn
  rw [holds.rows, List.length_map] at hlength
  rwa [hlength]

/-! ## Storing -/

/-- On rows of planes, storing under a key is storing under an id. -/
theorem map_rowOf_put {fleet : List AtcPlane} {plane : AtcPlane}
    (hplane : plane.Named) (hfleet : ∀ other ∈ fleet, other.Named) :
    put Row.key (rowOf plane) (fleet.map rowOf) =
      (put AtcPlane.id plane fleet).map rowOf := by
  refine (map_upsert ?_ ?_).symm
  · intro other hmem
    rw [decide_eq_decide]
    constructor
    · intro hid
      exact congrArg (nulPad stoKeySize ∘ List.Vector.toList) hid
    · intro hkey
      exact id_eq_of_key_eq (hfleet other hmem).free hplane.free hkey
  · intro other hmem
    rfl

/-- **Storing a plane puts it into the fleet.** -/
theorem storePlane_holds {file : Bytes} {fleet : List AtcPlane} {plane : AtcPlane}
    (holds : Holds file fleet) (named : plane.Named) :
    ∃ file', storePlane plane (Disk.sound file) =
        (Int32.ofNat sizeofPlane, Disk.sound file') ∧
      Holds file' (put AtcPlane.id plane fleet) := by
  have hkeys : ∀ stored ∈ rowsOf planesDb file, IsKey 6 stored.key := by
    rw [holds.rows]
    intro stored hmem
    obtain ⟨other, hother, rfl⟩ := List.mem_map.mp hmem
    exact isKey_key (holds.named other hother).free
  obtain ⟨file', hset, hwhole, hrows⟩ := stoSet_put fits_planes holds.whole
    (AtcPlane.length_bytes plane) (by decide) hkeys named.strnlen_eq
  refine ⟨file', hset, hwhole, ?_, nodup_map_key_put holds.distinct, ?_⟩
  · rw [hrows, holds.rows, named.storedKey_eq]
    exact map_rowOf_put named holds.named
  · intro other hmem
    rcases (mem_put holds.distinct).mp hmem with rfl | ⟨hother, _⟩
    · exact named
    · exact holds.named other hother

/-! ## Creating -/

theorem randCapitalLetter_ne_zero (draw : Nat) : randCapitalLetter draw ≠ 0 := by
  intro h
  have := congrArg UInt8.toNat h
  rw [randCapitalLetter, UInt8.toNat_ofNat_of_lt' (by simp [UInt8.size]; omega)] at this
  simp at this

theorem randNumber_ne_zero (draw : Nat) : randNumber draw ≠ 0 := by
  intro h
  have := congrArg UInt8.toNat h
  rw [randNumber, UInt8.toNat_ofNat_of_lt' (by simp [UInt8.size]; omega)] at this
  simp at this

/-- An id made by `create_plane` has no NUL. -/
theorem nulFree_newPlane (chance : Chance) (now : Int64) :
    NulFree (newPlane chance now).id.toList := by
  have hid : (newPlane chance now).id.toList =
      [randCapitalLetter (chance.rand 0), randCapitalLetter (chance.rand 1),
        randNumber (chance.rand 2), randNumber (chance.rand 3),
        randNumber (chance.rand 4), randCapitalLetter (chance.rand 5)] := rfl
  rw [hid]
  simp [NulFree, randCapitalLetter_ne_zero, randNumber_ne_zero]

theorem named_newPlane {chance : Chance} (hpad : chance.pad.head = 0) (now : Int64) :
    (newPlane chance now).Named :=
  ⟨nulFree_newPlane chance now, hpad⟩

/-- The fleet after `create_plane`. -/
def createdFleet (chance : Chance) (now : Int64) (counters : Counters)
    (fleet : List AtcPlane) : List AtcPlane :=
  if counters.planesCount = Int32.ofNat maxPlanes then fleet
  else put AtcPlane.id (newPlane chance now) fleet

theorem createPlane_holds {file : Bytes} {fleet : List AtcPlane} {chance : Chance}
    {counters : Counters} (holds : Holds file fleet)
    (hpad : counters.planesCount ≠ Int32.ofNat maxPlanes → chance.pad.head = 0)
    (now : Int64) :
    ∃ file', createPlane chance now counters (Disk.sound file) = Disk.sound file' ∧
      Holds file' (createdFleet chance now counters fleet) := by
  unfold createPlane createdFleet
  split
  · exact ⟨file, rfl, holds⟩
  · rename_i hroom
    obtain ⟨file', hstore, holds'⟩ := storePlane_holds holds
      (named_newPlane (hpad hroom) now)
    exact ⟨file', by rw [hstore], holds'⟩

/-! ## Counting -/

/-- The number of planes of a status. -/
def statusCount (status : Int32) (fleet : List AtcPlane) : Int32 :=
  Int32.ofNat (fleet.countP fun plane => plane.status = status)

/-- The counters with the crashed and the landed planes of a fleet added. -/
def Counters.add (counters : Counters) (fleet : List AtcPlane) : Counters :=
  { counters with
    crashedCount := counters.crashedCount + statusCount crashed fleet
    landedCount := counters.landedCount + statusCount landed fleet }

theorem Counters.add_nil (counters : Counters) : counters.add [] = counters := by
  simp [Counters.add, statusCount]

theorem statusCount_append (status : Int32) (before after : List AtcPlane) :
    statusCount status (before ++ after) =
      statusCount status before + statusCount status after := by
  rw [statusCount, List.countP_append, Int32.ofNat_add]
  rfl

theorem Counters.add_append (counters : Counters) (before after : List AtcPlane) :
    counters.add (before ++ after) = (counters.add before).add after := by
  simp [Counters.add, statusCount_append, Int32.add_assoc]

section Game

variable [Platform]

/-! ## Commanding -/

/-- The plane `set` stores, if it stores one: the plane it was given, at the
present time, as it came down or with the command applied. -/
def commanded (cmd : Int32) (plane : AtcPlane) (now : Int64) : Option AtcPlane :=
  if floatAltitude plane.z < 0 then some (settle { plane with time := now } now)
  else applyCommand cmd (advance { plane with time := now } now)

/-- `set` on any disk. -/
theorem set_eq (cmd : Int32) (plane : AtcPlane) (now : Int64) (disk : Disk) :
    set cmd plane now disk =
      match commanded cmd plane now with
      | none => (-1, advance { plane with time := now } now, disk)
      | some stored =>
          (if floatAltitude plane.z < 0 then 0 else (storePlane stored disk).1, stored,
            (storePlane stored disk).2) := by
  have haltitude : altitudeAt { plane with time := now } now = floatAltitude plane.z :=
    altitudeAt_self { plane with time := now }
  rw [set, commanded]
  by_cases hz : floatAltitude plane.z < 0
  · simp only [hz, if_true]
    rw [calculatePosition_down (by rw [haltitude]; exact hz)]
    rfl
  · simp only [hz, if_false]
    rw [calculatePosition_up (by rw [haltitude]; exact hz)]
    cases applyCommand cmd (advance { plane with time := now } now) with
    | none => rfl
    | some stored => rfl

theorem commanded_id_pad {cmd : Int32} {plane stored : AtcPlane} {now : Int64}
    (h : commanded cmd plane now = some stored) :
    stored.id = plane.id ∧ stored.pad = plane.pad := by
  unfold commanded at h
  split at h
  · rw [← Option.some.inj h]
    exact ⟨rfl, rfl⟩
  · rw [applyCommand_eq h]
    exact ⟨rfl, rfl⟩

/-- The fleet after `set`. -/
def commandedFleet (cmd : Int32) (plane : AtcPlane) (now : Int64)
    (fleet : List AtcPlane) : List AtcPlane :=
  match commanded cmd plane now with
  | none => fleet
  | some stored => put AtcPlane.id stored fleet

theorem set_holds {file : Bytes} {fleet : List AtcPlane} {plane : AtcPlane}
    (holds : Holds file fleet) (named : plane.Named) (cmd : Int32) (now : Int64) :
    ∃ file', (set cmd plane now (Disk.sound file)).2.2 = Disk.sound file' ∧
      Holds file' (commandedFleet cmd plane now fleet) := by
  rw [set_eq, commandedFleet]
  cases hcommanded : commanded cmd plane now with
  | none => exact ⟨file, rfl, holds⟩
  | some stored =>
      obtain ⟨hid, hpad⟩ := commanded_id_pad hcommanded
      obtain ⟨file', hstore, holds'⟩ := storePlane_holds holds (named.congr hid hpad)
      exact ⟨file', by simp only [hstore], holds'⟩

/-! ## Polling -/

/-- A plane that a poll finds on the ground. -/
def ComesDown (now : Int64) (plane : AtcPlane) : Prop :=
  plane.status = flying ∧ altitudeAt plane now < 0

instance (now : Int64) : DecidablePred (ComesDown now) :=
  fun _ => inferInstanceAs (Decidable (_ ∧ _))

/-- A plane that a poll finds in the air. -/
def StaysUp (now : Int64) (plane : AtcPlane) : Prop :=
  plane.status = flying ∧ ¬ altitudeAt plane now < 0

instance (now : Int64) : DecidablePred (StaysUp now) :=
  fun _ => inferInstanceAs (Decidable (_ ∧ _))

/-- What a poll makes of a plane of the fleet. -/
def polled (now : Int64) (plane : AtcPlane) : AtcPlane :=
  if ComesDown now plane then settle plane now else plane

/-- The planes in the air, as they are now. -/
def aloft (now : Int64) (fleet : List AtcPlane) : List AtcPlane :=
  (fleet.filter fun plane => StaysUp now plane).map fun plane => advance plane now

@[simp] theorem polled_id (now : Int64) (plane : AtcPlane) :
    (polled now plane).id = plane.id := by
  unfold polled
  split <;> rfl

theorem aloft_append (now : Int64) (before after : List AtcPlane) :
    aloft now (before ++ after) = aloft now before ++ aloft now after := by
  rw [aloft, List.filter_append, List.map_append]
  rfl

/-- One more plane in the air, as the buffer has room for it. -/
theorem take_aloft_append (now : Int64) (before : List AtcPlane) (plane : AtcPlane) :
    (aloft now (before ++ [plane])).take maxPlanes =
      if StaysUp now plane ∧ ((aloft now before).take maxPlanes).length < maxPlanes then
        (aloft now before).take maxPlanes ++ [advance plane now]
      else (aloft now before).take maxPlanes := by
  rw [aloft_append, List.take_append, List.length_take]
  by_cases hup : StaysUp now plane
  · have hone : aloft now [plane] = [advance plane now] := by simp [aloft, hup]
    rw [hone]
    by_cases hroom : (aloft now before).length < maxPlanes
    · have hpos : 0 < maxPlanes - (aloft now before).length := by omega
      rw [if_pos ⟨hup, by omega⟩, List.take_of_length_le (l := [advance plane now]) hpos]
    · have hnone : maxPlanes - (aloft now before).length = 0 := by omega
      rw [if_neg (by omega), hnone, List.take_zero, List.append_nil]
  · have hnone : aloft now [plane] = [] := by simp [aloft, hup]
    rw [hnone, List.take_nil, List.append_nil, if_neg fun h => hup h.1]

/-- The body of the loop, by what becomes of the plane it read. -/
theorem pollRow_eq {now : Int64} {poll : Poll} {plane : AtcPlane} {file : Bytes}
    (hdisk : poll.query.disk = Disk.sound file) (hrow : AtcPlane.ofBytes poll.query.row = plane)
    (hlength : poll.query.row.length = sizeofPlane)
    {file' : Bytes} (hdown : ComesDown now plane →
      (storePlane (settle plane now) (Disk.sound file)).2 = Disk.sound file')
    (hup : ¬ ComesDown now plane → file' = file) :
    ∃ row, row.length = sizeofPlane ∧
      pollRow now poll =
        { query := { poll.query with disk := Disk.sound file', row := row }
          buffer :=
            if StaysUp now plane ∧ poll.buffer.length < maxPlanes then
              poll.buffer ++ [advance plane now]
            else poll.buffer
          counters := poll.counters.add [plane] } := by
  by_cases hflying : plane.status = flying
  · have hcount : poll.counters.add [plane] = poll.counters := by
      simp [Counters.add, statusCount, hflying, flying, crashed, landed]
    by_cases haltitude : altitudeAt plane now < 0
    · have hnot : ¬ StaysUp now plane := fun h => h.2 haltitude
      refine ⟨(settle plane now).bytes, AtcPlane.length_bytes _, ?_⟩
      rw [pollRow, hrow, if_pos hflying, calculatePosition_down haltitude, hdisk,
        hdown ⟨hflying, haltitude⟩, hcount, if_neg fun h => hnot h.1]
      rfl
    · have hstays : StaysUp now plane := ⟨hflying, haltitude⟩
      refine ⟨(advance plane now).bytes, AtcPlane.length_bytes _, ?_⟩
      rw [pollRow, hrow, if_pos hflying, calculatePosition_up haltitude, hcount,
        hup fun h => haltitude h.2, hdisk]
      simp [hstays]
  · have hnotUp : ¬ StaysUp now plane := fun h => hflying h.1
    refine ⟨poll.query.row, hlength, ?_⟩
    rw [pollRow, hrow, if_neg hflying, hup fun h => hflying h.1, ← hdisk]
    simp only [hnotUp, false_and, if_false]
    by_cases hcrashed : plane.status = crashed
    · simp [hcrashed, Counters.add, statusCount, crashed, landed]
    · by_cases hlanded : plane.status = landed
      · simp [hlanded, Counters.add, statusCount, crashed, landed]
      · simp [hcrashed, hlanded, Counters.add, statusCount]

/-- The body of the loop settles the plane it read, or returns it, or counts it. -/
theorem pollRow_holds {now : Int64} {file : Bytes} {front rest : List AtcPlane}
    {plane : AtcPlane} (poll : Poll) (holds : Holds file (front ++ plane :: rest))
    (hdisk : poll.query.disk = Disk.sound file) (hrow : poll.query.row = plane.bytes) :
    ∃ file' row, Holds file' (front ++ polled now plane :: rest) ∧
      row.length = sizeofPlane ∧
      pollRow now poll =
        { query := { poll.query with disk := Disk.sound file', row := row }
          buffer :=
            if StaysUp now plane ∧ poll.buffer.length < maxPlanes then
              poll.buffer ++ [advance plane now]
            else poll.buffer
          counters := poll.counters.add [plane] } := by
  have hplane : AtcPlane.ofBytes poll.query.row = plane := by
    rw [hrow, AtcPlane.ofBytes_bytes]
  have hlength : poll.query.row.length = sizeofPlane := by
    rw [hrow, AtcPlane.length_bytes]
  unfold polled
  split
  · rename_i hdown
    have hnamed : (settle plane now).Named := (holds.named plane (by simp)).congr rfl rfl
    obtain ⟨file', hstore, holds'⟩ := storePlane_holds holds hnamed
    rw [put_append_cons holds.distinct (settle_id plane now).symm] at holds'
    obtain ⟨row, hlen, hbody⟩ := pollRow_eq hdisk hplane hlength (fun _ => by rw [hstore])
      fun hnot => absurd hdown hnot
    exact ⟨file', row, holds', hlen, hbody⟩
  · rename_i hup
    obtain ⟨row, hlen, hbody⟩ := pollRow_eq hdisk hplane hlength (fun hdown => absurd hdown hup)
      fun _ => rfl
    exact ⟨file, row, holds, hlen, hbody⟩

omit [Platform] in
/-- The `sto_get` of the loop reads the row under the cursor. -/
theorem stoGet_row {file : Bytes} {n i : Nat} {query : Scan}
    (hn : file.length = fileLength planesDb n) (hlt : i < n)
    (ready : Ready planesDb true file i query) :
    stoGet planesDb noopCmp query =
      (Int32.ofNat planesDb.dataSize, afterRow planesDb true file query.row i) := by
  have hget : (rowsOf planesDb file)[i]? = some (rowAt planesDb file i) := by
    rw [getElem?_rowsOf fits_planes hn, if_pos hlt]
  have hdrop : (rowsOf planesDb file).drop i =
      [] ++ rowAt planesDb file i :: (rowsOf planesDb file).drop (i + 1) := by
    obtain ⟨hin, heq⟩ := List.getElem?_eq_some_iff.mp hget
    rw [List.nil_append, List.drop_eq_getElem_cons hin, heq]
  obtain ⟨hfound, _, _⟩ := stoGet_found noopCmp fits_planes hn ready hdrop (by simp) rfl
  rwa [List.length_nil, Nat.add_zero] at hfound

/-- The scan behind the body of the loop, which left `file'` and `row`. -/
def nextScan (file file' : Bytes) (query : Scan) (row : Bytes) (i : Nat) : Scan :=
  { afterRow planesDb true file query.row i with disk := Disk.sound file', row := row }

omit [Platform] in
theorem ready_nextScan {file row : Bytes} {n i : Nat} (hn : file.length = fileLength planesDb n)
    (hlt : i < n) (hrow : row.length = sizeofPlane) (file' : Bytes) (query : Scan) :
    Ready planesDb true file' (i + 1) (nextScan file file' query row i) where
  disk := rfl
  cursor := rfl
  key := length_key_rowAt hn hlt
  row := fun _ => hrow

/-- A round of the loop where a row is left: `hbody` is what its body does there. -/
theorem pollLoop_row {now : Int64} {file file' row : Bytes} {n i : Nat} {query : Scan}
    {buffer buffer' : List AtcPlane} {counters counters' : Counters}
    (hn : file.length = fileLength planesDb n) (hlt : i < n)
    (ready : Ready planesDb true file i query)
    (hbody : pollRow now
        { query := afterRow planesDb true file query.row i
          buffer := buffer
          counters := counters } =
      { query := nextScan file file' query row i
        buffer := buffer'
        counters := counters' })
    (rounds : Nat) :
    pollLoop now (rounds + 1) (stoGet planesDb noopCmp query).1
        { query := (stoGet planesDb noopCmp query).2
          buffer := buffer
          counters := counters } =
      pollLoop now rounds (stoGet planesDb noopCmp (nextScan file file' query row i)).1
        { query := (stoGet planesDb noopCmp (nextScan file file' query row i)).2
          buffer := buffer'
          counters := counters' } := by
  have hpositive : Int32.ofNat planesDb.dataSize > 0 := by decide
  rw [stoGet_row hn hlt ready, pollLoop, if_pos hpositive, hbody]

/-- The loop ends where no row is left. -/
theorem pollLoop_end {now : Int64} {file : Bytes} {n : Nat} {query : Scan}
    (hn : file.length = fileLength planesDb n) (ready : Ready planesDb true file n query)
    (buffer : List AtcPlane) (counters : Counters) (rounds : Nat) :
    pollLoop now (rounds + 1) (stoGet planesDb noopCmp query).1
        { query := (stoGet planesDb noopCmp query).2
          buffer := buffer
          counters := counters } =
      some (0,
        { query := afterEnd planesDb true file query.row n
          buffer := buffer
          counters := counters }) := by
  have hdrop : (rowsOf planesDb file).drop n = [] :=
    List.drop_eq_nil_of_le (by rw [length_rowsOf fits_planes hn])
  have hend := stoGet_end noopCmp fits_planes hn (Nat.le_refl n) ready (by simp [hdrop])
  rw [hend, pollLoop]
  rfl

/-- The loop, from any row on: `before` are the planes behind the cursor. -/
theorem pollLoop_holds {now : Int64} :
    ∀ (after before : List AtcPlane) (counters : Counters) {file : Bytes} {query : Scan}
      {fuel : Nat}, Holds file (before.map (polled now) ++ after) →
      Ready planesDb true file before.length query → after.length < fuel →
      ∃ file' query', Holds file' ((before ++ after).map (polled now)) ∧
        query'.disk = Disk.sound file' ∧
        pollLoop now fuel (stoGet planesDb noopCmp query).1
            { query := (stoGet planesDb noopCmp query).2
              buffer := (aloft now before).take maxPlanes
              counters := counters } =
          some (0,
            { query := query'
              buffer := (aloft now (before ++ after)).take maxPlanes
              counters := counters.add after }) := by
  intro after
  induction after with
  | nil =>
      intro before counters file query fuel holds ready hfuel
      rw [List.append_nil] at holds
      have hn := holds.length_file
      rw [List.length_map] at hn
      obtain ⟨rounds, rfl⟩ : ∃ rounds, fuel = rounds + 1 := ⟨fuel - 1, by omega⟩
      refine ⟨file, afterEnd planesDb true file query.row before.length, ?_, rfl, ?_⟩
      · rwa [List.append_nil]
      · rw [pollLoop_end hn ready, List.append_nil, Counters.add_nil]
  | cons plane rest ih =>
      intro before counters file query fuel holds ready hfuel
      have hn := holds.length_file
      have hlt : before.length < (before.map (polled now) ++ plane :: rest).length := by simp
      have hat : rowAt planesDb file before.length = rowOf plane := by
        have hget := getElem?_rowsOf (i := before.length) fits_planes hn
        rw [holds.rows, if_pos hlt, List.map_append, List.getElem?_append_right (by simp)] at hget
        simpa using hget.symm
      obtain ⟨rounds, rfl⟩ : ∃ rounds, fuel = rounds + 1 := ⟨fuel - 1, by omega⟩
      -- the body of the loop at this row, then the rest of the loop
      obtain ⟨file', row, holds', hrowLen, hbody⟩ := @pollRow_holds _ now _ _ _ _
        { query := afterRow planesDb true file query.row before.length
          buffer := (aloft now before).take maxPlanes
          counters := counters } holds rfl (by rw [afterRow, if_pos rfl, hat]; rfl)
      have ready' := ready_nextScan hn hlt hrowLen file' query
      have hround := pollLoop_row hn hlt ready hbody rounds
      obtain ⟨file'', query'', holds'', hdisk, hloop⟩ := ih (before ++ [plane])
        (counters.add [plane]) (by simpa using holds') (by simpa using ready')
        (by simpa using hfuel)
      have happend : before ++ [plane] ++ rest = before ++ plane :: rest := by simp
      have hadd : (counters.add [plane]).add rest = counters.add (plane :: rest) := by
        rw [← Counters.add_append]
        rfl
      rw [happend] at holds'' hloop
      rw [hadd, take_aloft_append] at hloop
      exact ⟨file'', query'', holds'', hdisk, hround.trans hloop⟩

/-- A poll on a sound disk is its loop from the first row. -/
theorem getAirplanes_sound (now : Int64) (counters : Counters) (file : Bytes) :
    getAirplanes now counters (Disk.sound file) =
      (pollLoop now (pollFuel (Disk.sound file))
        (stoGet planesDb noopCmp (Scan.open (Disk.sound file) (zeros stoKeySize)
          (zeros sizeofPlane))).1
        { query := (stoGet planesDb noopCmp (Scan.open (Disk.sound file)
            (zeros stoKeySize) (zeros sizeofPlane))).2
          buffer := []
          counters := { counters with crashedCount := 0, landedCount := 0 } }).map
        fun (newPlaneFlag, poll) =>
          if newPlaneFlag = -1 then
            { result := -1
              buffer := poll.buffer
              counters := poll.counters.failed
              disk := poll.query.disk }
          else
            { result := Int32.ofNat poll.buffer.length
              buffer := poll.buffer
              counters :=
                { poll.counters with planesCount := Int32.ofNat poll.buffer.length }
              disk := poll.query.disk } := by
  have hquery : stoQuery (Disk.sound file) (zeros stoKeySize) (zeros sizeofPlane) =
      (some (Scan.open (Disk.sound file) (zeros stoKeySize) (zeros sizeofPlane)),
        Disk.sound file) := rfl
  rw [getAirplanes, hquery]

/-- **What a poll does.**  The planes that came down are settled, the first fifty
that did not are returned, and those that were down before are counted. -/
theorem getAirplanes_holds {file : Bytes} {fleet : List AtcPlane}
    (holds : Holds file fleet) (now : Int64) (counters : Counters) :
    ∃ file', Holds file' (fleet.map (polled now)) ∧
      getAirplanes now counters (Disk.sound file) =
        some
          { result := Int32.ofNat ((aloft now fleet).take maxPlanes).length
            buffer := (aloft now fleet).take maxPlanes
            counters :=
              { planesCount := Int32.ofNat ((aloft now fleet).take maxPlanes).length
                crashedCount := statusCount crashed fleet
                landedCount := statusCount landed fleet }
            disk := Disk.sound file' } := by
  have hfuel : fleet.length < pollFuel (Disk.sound file) := by
    have hle := le_length_of_fileLength fits_planes holds.length_file
    unfold pollFuel
    simp only [List.length_nil]
    omega
  obtain ⟨file', query, holds', hdisk, hloop⟩ := pollLoop_holds fleet []
    { counters with crashedCount := 0, landedCount := 0 } holds
    (ready_open planesDb true file (length_zeros stoKeySize)
      (fun _ => length_zeros sizeofPlane)) hfuel
  refine ⟨file', holds', ?_⟩
  have hnil : (aloft now []).take maxPlanes = [] := rfl
  rw [hnil] at hloop
  rw [getAirplanes_sound, hloop, Option.map_some]
  simp [hdisk, Counters.add]

end Game

end AirTraffic.Atcd
