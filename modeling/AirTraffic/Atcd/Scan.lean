/-
  Atcd/Scan.lean --- the scan of `get_airplanes` on any file of whole rows.

  WHAT THIS FILE IS FOR.  `get_airplanes` reads the planes file row by row and
  stores every plane it finds on the ground into the file it is reading.  Whatever
  the keys and the planes are, such a store adds at most one row ahead of the scan
  and makes no row there fly, so the rows left plus the flying ones among them get
  fewer with every row read (`pollLoop_scan`).  The loop therefore ends
  (`poll_ends`), and what a poll returns and counts can be told from the list of
  the planes it read: the figures add up exactly if none of them came down
  (`accounts_iff`).
-/
import AirTraffic.Storage.Shifted
import AirTraffic.Atcd.Ledger
import AirTraffic.Atcd.Heading

set_option autoImplicit false

namespace AirTraffic.Atcd

open AirTraffic.Foundation AirTraffic.Storage

/-- The planes in the file, in the order of their rows. -/
def planesOf (file : Bytes) : List AtcPlane := (rowsOf planesDb file).map planeOf

theorem length_planesOf {file : Bytes} {n : Nat} (h : file.length = fileLength planesDb n) :
    (planesOf file).length = n := by
  rw [planesOf, List.length_map, length_rowsOf fits_planes h]

theorem getElem?_planesOf {file : Bytes} {n i : Nat} (h : file.length = fileLength planesDb n)
    (hlt : i < n) : (planesOf file)[i]? = some (planeOf (rowAt planesDb file i)) := by
  rw [planesOf, List.getElem?_map, getElem?_rowsOf fits_planes h, if_pos hlt]
  rfl

/-! ## A store ahead of the scan -/

theorem flyingCount_drop_append {plane : AtcPlane} (down : plane.Down) (fleet : List AtcPlane)
    (k : Nat) : flyingCount ((fleet ++ [plane]).drop k) = flyingCount (fleet.drop k) := by
  have hself : flyingCount ([plane].drop (k - fleet.length)) = 0 := by
    cases k - fleet.length with
    | zero => simp [flyingCount, down.not_flying]
    | succ j => simp [flyingCount]
  rw [List.drop_append, flyingCount, List.countP_append]
  exact Nat.add_eq_left.mpr hself

theorem flyingCount_drop_cons {plane old : AtcPlane} (down : plane.Down)
    (before after : List AtcPlane) (k : Nat) :
    flyingCount ((before ++ plane :: after).drop k) ≤
      flyingCount ((before ++ old :: after).drop k) := by
  have hself : flyingCount ((plane :: after).drop (k - before.length)) ≤
      flyingCount ((old :: after).drop (k - before.length)) := by
    cases k - before.length with
    | zero => simp [flyingCount, down.not_flying, List.countP_cons]
    | succ j => simp
  rw [List.drop_append, List.drop_append, flyingCount, flyingCount, List.countP_append,
    List.countP_append]
  exact Nat.add_le_add_left hself _

/-- The rows after a plane that is down was stored: at most one is new, and none of
them flies that did not. -/
theorem pollRemaining_setRows {plane : AtcPlane} (down : plane.Down) (rows : List Row) (k : Nat) :
    rows.length ≤ (setRows plane.bytes plane.bytes rows).length ∧
      pollRemaining k ((setRows plane.bytes plane.bytes rows).map planeOf) ≤
        pollRemaining k (rows.map planeOf) + 1 := by
  rcases setRows_cases plane rows with ⟨_, hset⟩ | ⟨before, old, after, hrows, _, _, hset⟩
  · rw [hset, List.map_append, List.map_singleton, planeOf_data]
    have hcount := flyingCount_drop_append down (rows.map planeOf) k
    simp only [pollRemaining, hcount, List.length_append, List.length_map, List.length_singleton]
    omega
  · rw [hset, hrows, List.map_append, List.map_append, List.map_cons, List.map_cons,
      planeOf_data]
    have hcount := @flyingCount_drop_cons _ (planeOf old) down (before.map planeOf)
      (after.map planeOf) k
    simp only [pollRemaining, List.length_append, List.length_cons, List.length_map]
    omega

/-- A file that the scan behind its first row can be continued on: one of whole rows
with little more to do, or one that ends in the middle of its second row. -/
inductive Continues (n : Nat) (file file' : Bytes) : Prop
  | whole {n' : Nat} (length : file'.length = fileLength planesDb n') (grown : n ≤ n')
      (remaining : ∀ k, 1 ≤ k →
        pollRemaining k (planesOf file') ≤ pollRemaining k (planesOf file) + 1)
  | torn (single : n = 1) (length : file'.length = 80)

/-- The planes behind the first one are where they were when the store went astray. -/
theorem planesOf_shifted {file row : Bytes} {n : Nat} (h : file.length = fileLength planesDb n)
    (hrow : row.length = planesDb.dataSize) (hn : 2 ≤ n) {k : Nat} (hk : 1 ≤ k) :
    (planesOf (shifted file row)).drop k = (planesOf file).drop k := by
  have hsame := fileLength_shifted fits_planes h hrow hn
  apply List.ext_getElem?
  intro i
  rw [List.getElem?_drop, List.getElem?_drop, planesOf, planesOf, List.getElem?_map,
    List.getElem?_map, getElem?_rowsOf fits_planes hsame, getElem?_rowsOf fits_planes h]
  split
  · have hdata := data_rowAt_shifted fits_planes file hrow (by omega : 1 ≤ k + i)
    rw [Option.map_some, Option.map_some, planeOf, planeOf, hdata]
  · rfl

theorem storePlane_continues {file : Bytes} {n : Nat} {plane : AtcPlane}
    (h : file.length = fileLength planesDb n) (hn : 0 < n) (down : plane.Down) :
    ∃ file', storePlane plane (Disk.sound file) =
        (Int32.ofNat sizeofPlane, Disk.sound file') ∧ Continues n file file' := by
  have hrow : plane.bytes.length = planesDb.dataSize := AtcPlane.length_bytes plane
  by_cases shifts : Shifts planesDb file plane.bytes
  · refine ⟨_, stoSet_shifted fits_planes ⟨n, h⟩ hrow shifts, ?_⟩
    rcases Nat.lt_or_ge 1 n with htwo | hone
    · have hsame := fileLength_shifted fits_planes h hrow htwo
      refine .whole hsame (Nat.le_refl n) ?_
      intro k hk
      rw [pollRemaining, pollRemaining, planesOf_shifted h hrow htwo hk, length_planesOf hsame,
        length_planesOf h]
      omega
    · obtain rfl : n = 1 := by omega
      refine .torn rfl ?_
      rw [length_shifted file hrow, h]
      rfl
  · obtain ⟨file', hset, ⟨n', h'⟩, hrows⟩ := stoSet_plain fits_planes ⟨n, h⟩ hrow shifts
    refine ⟨file', hset, .whole h' ?_ ?_⟩
    · have hle := (pollRemaining_setRows down (rowsOf planesDb file) 0).1
      rwa [← hrows, length_rowsOf fits_planes h, length_rowsOf fits_planes h'] at hle
    · intro k _
      have hle := (pollRemaining_setRows down (rowsOf planesDb file) k).2
      rwa [← hrows] at hle

/-! ## A store of two planes -/

/-- A plane that goes down. -/
def falling : AtcPlane :=
  { cruising with id := ⟨[66, 66, 48, 48, 48, 66], rfl⟩, z := 5, elevation := -10 }

/-- The file of a plane that keeps its altitude and of that one. -/
def twoPlanes : Bytes := cruising.key ++ cruising.bytes ++ (falling.key ++ falling.bytes)

theorem whole_twoPlanes : Whole planesDb twoPlanes := ⟨2, by decide +kernel⟩

theorem planesOf_twoPlanes : planesOf twoPlanes = [cruising, falling] := by decide +kernel

theorem holds_twoPlanes : Holds twoPlanes [cruising, falling] where
  whole := whole_twoPlanes
  rows := by decide +kernel
  distinct := by decide
  named := by
    intro plane hmem
    rcases List.mem_pair.mp hmem with rfl | rfl
    · exact ⟨by decide +kernel, rfl⟩
    · exact ⟨by decide +kernel, rfl⟩

/-! ## Rounds -/

section Scan

variable [Platform]

/-- The successful `sto_get`s of the loop. -/
def pollGets (now : Int64) : Nat → Int32 → Poll → Nat
  | 0, _, _ => 0
  | fuel + 1, newPlaneFlag, poll =>
      if newPlaneFlag > 0 then
        let poll := pollRow now poll
        let (newPlaneFlag, query) := stoGet planesDb noopCmp poll.query
        pollGets now fuel newPlaneFlag { poll with query := query } + 1
      else 0

/-- The loop before its first round: the result of the first `sto_get`. -/
def pollStart (file : Bytes) (counters : Counters) : Int32 × Poll :=
  let (newPlaneFlag, query) :=
    stoGet planesDb noopCmp (Scan.open (Disk.sound file) (zeros stoKeySize) (zeros sizeofPlane))
  (newPlaneFlag,
    { query := query
      buffer := []
      counters := { counters with crashedCount := 0, landedCount := 0 } })

omit [Platform] in
theorem pollStart_eq (file : Bytes) (counters : Counters) :
    pollStart file counters =
      ((stoGet planesDb noopCmp (Scan.open (Disk.sound file) (zeros stoKeySize)
          (zeros sizeofPlane))).1,
        { query := (stoGet planesDb noopCmp (Scan.open (Disk.sound file) (zeros stoKeySize)
            (zeros sizeofPlane))).2
          buffer := []
          counters := { counters with crashedCount := 0, landedCount := 0 } }) := by
  unfold pollStart
  generalize stoGet planesDb noopCmp (Scan.open (Disk.sound file) (zeros stoKeySize)
    (zeros sizeofPlane)) = outcome
  rfl

/-- What the scan from row `i` of `file` on comes to: the planes it reads, and the
file it leaves. -/
structure Scanned (now : Int64) (i : Nat) (file : Bytes) (reads : List AtcPlane)
    (file' : Bytes) : Prop where
  bound : reads.length ≤ pollRemaining i (planesOf file)
  rows : i + reads.length ≤ (planesOf file').length
  found : (∃ plane ∈ (planesOf file).drop i, ComesDown now plane) →
    ∃ plane ∈ reads, ComesDown now plane
  quiet : (∀ plane ∈ (planesOf file).drop i, ¬ ComesDown now plane) →
    reads = (planesOf file).drop i ∧ file' = file

/-- The scan ends where no row is left. -/
theorem scanned_end (now : Int64) {file : Bytes} {n : Nat}
    (h : file.length = fileLength planesDb n) : Scanned now n file [] file := by
  have hlength := length_planesOf h
  have hnone : (planesOf file).drop n = [] := List.drop_eq_nil_of_le (Nat.le_of_eq hlength)
  exact
    { bound := Nat.zero_le _
      rows := Nat.le_of_eq hlength.symm
      found := by simp [hnone]
      quiet := fun _ => ⟨hnone.symm, rfl⟩ }

/-- One more row in front of the scan, at which nothing was stored. -/
theorem Scanned.cons {now : Int64} {i : Nat} {file file' : Bytes} {reads : List AtcPlane}
    {plane : AtcPlane} (scanned : Scanned now (i + 1) file reads file')
    (hplane : (planesOf file)[i]? = some plane) (hstays : ¬ ComesDown now plane) :
    Scanned now i file (plane :: reads) file' := by
  obtain ⟨hlt, hget⟩ := List.getElem?_eq_some_iff.mp hplane
  have hdrop : (planesOf file).drop i = plane :: (planesOf file).drop (i + 1) := by
    rw [List.drop_eq_getElem_cons hlt, hget]
  have hless := pollRemaining_succ hplane
  have hbound := scanned.bound
  have hrows := scanned.rows
  refine ⟨?_, ?_, ?_, ?_⟩
  · rw [List.length_cons]
    omega
  · rw [List.length_cons]
    omega
  · rintro ⟨other, hmem, hdown⟩
    rw [hdrop] at hmem
    rcases List.mem_cons.mp hmem with rfl | hmem
    · exact absurd hdown hstays
    · obtain ⟨found, hfound, hcomes⟩ := scanned.found ⟨other, hmem, hdown⟩
      exact ⟨found, List.mem_cons_of_mem _ hfound, hcomes⟩
  · intro hall
    rw [hdrop] at hall ⊢
    obtain ⟨hreads, hfile⟩ := scanned.quiet fun other hmem =>
      hall other (List.mem_cons_of_mem _ hmem)
    exact ⟨by rw [hreads], hfile⟩

/-- One more row in front of the scan, whose plane came down and was stored. -/
theorem scanned_cons_down {now : Int64} {i : Nat} {file file' : Bytes} {reads : List AtcPlane}
    {plane : AtcPlane} (hplane : (planesOf file)[i]? = some plane) (hdown : ComesDown now plane)
    (hbound : reads.length ≤ pollRemaining (i + 1) (planesOf file) + 1)
    (hrows : i + 1 + reads.length ≤ (planesOf file').length) :
    Scanned now i file (plane :: reads) file' := by
  have hone : flyingCount [plane] = 1 := by simp [flyingCount, hdown.1]
  have hless := pollRemaining_succ hplane
  have hmem : plane ∈ (planesOf file).drop i :=
    List.mem_of_getElem? (by rw [List.getElem?_drop, Nat.add_zero, hplane])
  refine ⟨?_, ?_, fun _ => ⟨plane, List.mem_cons_self, hdown⟩, fun hall => ?_⟩
  · rw [List.length_cons]
    omega
  · rw [List.length_cons]
    omega
  · exact absurd hdown (hall plane hmem)

omit [Platform] in
/-- Where the second row has a key and no data, the scan ends. -/
theorem stoGet_torn {file : Bytes} {query : Scan} (hlength : file.length = 80)
    (ready : Ready planesDb true file 1 query) :
    ∃ query', stoGet planesDb noopCmp query = (0, query') ∧
      query'.disk = Disk.sound file := by
  obtain ⟨disk, pos, cursor, key, row⟩ := query
  obtain ⟨rfl, rfl, _, _⟩ := ready
  have hkey : (readAt file (1 * planesDb.rowSize) stoKeySize).length = 16 :=
    length_readAt_of_le (by rw [hlength]; decide)
  have hdata : readAt file (1 * planesDb.rowSize + 16) planesDb.dataSize = [] :=
    readAt_of_length_le _ (by rw [hlength]; decide)
  have hzero : Int32.ofNat 0 = 0 := rfl
  unfold stoGet
  rw [scanFuel_sound, scanUntil, fetchNextRecord]
  cases hread : readAt file (1 * planesDb.rowSize) stoKeySize with
  | nil =>
    rw [hread] at hkey
    exact absurd hkey (by decide)
  | cons c rest =>
    rw [hread] at hkey
    simp only [Disk.fails_sound, Bool.false_eq_true, if_false, Disk.tick_sound, Disk.read_sound,
      hread, fetchData, if_true, hkey, hdata, List.length_nil, hzero, Option.getD_some]
    exact ⟨_, rfl, rfl⟩

/-- A round at a row of the file: the plane read, and the file and the scan behind
it. -/
theorem pollRound_scan (now : Int64) {file : Bytes} {n i : Nat} {query : Scan}
    (before : List AtcPlane) (counters : Counters) (h : file.length = fileLength planesDb n)
    (hlt : i < n) (ready : Ready planesDb true file i query) (rounds : Nat) :
    ∃ plane file' query',
      (planesOf file)[i]? = some plane ∧ Ready planesDb true file' (i + 1) query' ∧
      (ComesDown now plane → Continues n file file') ∧
      (¬ ComesDown now plane → file' = file) ∧
      pollLoop now (rounds + 1) (stoGet planesDb noopCmp query).1
          { query := (stoGet planesDb noopCmp query).2
            buffer := (aloft now before).take maxPlanes
            counters := counters } =
        pollLoop now rounds (stoGet planesDb noopCmp query').1
          { query := (stoGet planesDb noopCmp query').2
            buffer := (aloft now (before ++ [plane])).take maxPlanes
            counters := counters.add [plane] } ∧
      pollGets now (rounds + 1) (stoGet planesDb noopCmp query).1
          { query := (stoGet planesDb noopCmp query).2
            buffer := (aloft now before).take maxPlanes
            counters := counters } =
        pollGets now rounds (stoGet planesDb noopCmp query').1
          { query := (stoGet planesDb noopCmp query').2
            buffer := (aloft now (before ++ [plane])).take maxPlanes
            counters := counters.add [plane] } + 1 := by
  have hplane := getElem?_planesOf h hlt
  generalize hread : planeOf (rowAt planesDb file i) = plane at hplane
  obtain ⟨file', hdown, hup, hcontinues⟩ : ∃ file',
      (ComesDown now plane →
        (storePlane (settle plane now) (Disk.sound file)).2 = Disk.sound file') ∧
      (¬ ComesDown now plane → file' = file) ∧ (ComesDown now plane → Continues n file file') := by
    by_cases hcomes : ComesDown now plane
    · obtain ⟨file', hstore, hcontinues⟩ :=
        storePlane_continues h (by omega) (down_settle plane now)
      exact ⟨file', fun _ => by rw [hstore], fun hnot => absurd hcomes hnot, fun _ => hcontinues⟩
    · exact ⟨file, fun hnot => absurd hnot hcomes, fun _ => rfl, fun hnot => absurd hnot hcomes⟩
  obtain ⟨row, hrow, hbody⟩ := @pollRow_eq _ now
    { query := afterRow planesDb true file query.row i
      buffer := (aloft now before).take maxPlanes
      counters := counters } _ _ rfl hread (length_data_rowAt h hlt) _ hdown hup
  rw [← take_aloft_append] at hbody
  have hpositive : Int32.ofNat planesDb.dataSize > 0 := by decide
  refine ⟨plane, file', _, hplane, ready_nextScan h hlt hrow file' query, hcontinues, hup,
    pollLoop_row h hlt ready hbody rounds, ?_⟩
  rw [stoGet_row h hlt ready, pollGets, if_pos hpositive, hbody]
  rfl

/-- The loop reads nothing where no row is left. -/
theorem pollGets_end {now : Int64} {file : Bytes} {n : Nat} {query : Scan}
    (h : file.length = fileLength planesDb n) (ready : Ready planesDb true file n query)
    (rounds : Nat) (poll : Poll) :
    pollGets now (rounds + 1) (stoGet planesDb noopCmp query).1 poll = 0 := by
  have hdrop : (rowsOf planesDb file).drop n = [] :=
    List.drop_eq_nil_of_le (by rw [length_rowsOf fits_planes h])
  have hend := stoGet_end noopCmp fits_planes h (Nat.le_refl n) ready (by simp [hdrop])
  have hzero : ¬ (0 : Int32) > 0 := by decide
  rw [hend, pollGets, if_neg hzero]

/-- **The scan, from any row on, ends.** -/
theorem pollLoop_scan {now : Int64} :
    ∀ (fuel : Nat) {i n : Nat} {file : Bytes} {query : Scan} (before : List AtcPlane)
      (counters : Counters), file.length = fileLength planesDb n → i ≤ n →
      Ready planesDb true file i query → pollRemaining i (planesOf file) < fuel →
      ∃ reads file' query', Scanned now i file reads file' ∧
        query'.disk = Disk.sound file' ∧
        pollLoop now fuel (stoGet planesDb noopCmp query).1
            { query := (stoGet planesDb noopCmp query).2
              buffer := (aloft now before).take maxPlanes
              counters := counters } =
          some (0,
            { query := query'
              buffer := (aloft now (before ++ reads)).take maxPlanes
              counters := counters.add reads }) ∧
        pollGets now fuel (stoGet planesDb noopCmp query).1
            { query := (stoGet planesDb noopCmp query).2
              buffer := (aloft now before).take maxPlanes
              counters := counters } = reads.length := by
  intro fuel
  induction fuel with
  | zero => intro i n file query before counters _ _ _ hfuel; omega
  | succ rounds ih =>
    intro i n file query before counters h hi ready hfuel
    rcases Nat.lt_or_ge i n with hlt | hge
    · obtain ⟨plane, mid, query', hplane, ready', hcontinues, hup, hround, hgets⟩ :=
        pollRound_scan now before counters h hlt ready rounds
      have hless := pollRemaining_succ hplane
      have happend : ∀ reads, before ++ [plane] ++ reads = before ++ plane :: reads := by simp
      have hadd : ∀ reads, (counters.add [plane]).add reads = counters.add (plane :: reads) :=
        fun reads => (Counters.add_append counters [plane] reads).symm
      -- the file behind this row: as it was, whole again, or torn
      by_cases hdown : ComesDown now plane
      · have hone : flyingCount [plane] = 1 := by simp [flyingCount, hdown.1]
        cases hcontinues hdown with
        | @whole n' hlength hgrown hremaining =>
          have hrest := hremaining (i + 1) (by omega)
          obtain ⟨reads, file', query'', scanned, hdisk, hloop, hcount⟩ :=
            ih (before ++ [plane]) (counters.add [plane]) hlength (by omega) ready' (by omega)
          have hbound := scanned.bound
          rw [happend, hadd] at hloop
          exact ⟨plane :: reads, file', query'',
            scanned_cons_down hplane hdown (by omega) (by have := scanned.rows; omega), hdisk,
            hround.trans hloop, by rw [hgets, hcount, List.length_cons]⟩
        | torn hsingle hlength =>
          obtain rfl : i = 0 := by omega
          obtain ⟨rounds, rfl⟩ : ∃ more, rounds = more + 1 := ⟨rounds - 1, by omega⟩
          obtain ⟨query'', hget, hdisk⟩ := stoGet_torn hlength ready'
          have hcount : (planesOf mid).length = 2 := by
            rw [planesOf, List.length_map, rowsOf, List.length_map, List.length_range, rowCount,
              hlength]
            rfl
          have hzero : ¬ (0 : Int32) > 0 := by decide
          refine ⟨[plane], mid, query'',
            scanned_cons_down hplane hdown (Nat.zero_le _) (by rw [hcount, List.length_nil]; omega),
            hdisk, hround.trans ?_, hgets.trans ?_⟩
          · rw [hget, pollLoop, if_neg hzero]
          · rw [hget, pollGets, if_neg hzero]
            rfl
      · obtain rfl := hup hdown
        obtain ⟨reads, file', query'', scanned, hdisk, hloop, hcount⟩ :=
          ih (before ++ [plane]) (counters.add [plane]) h (by omega) ready' (by omega)
        rw [happend, hadd] at hloop
        exact ⟨plane :: reads, file', query'', scanned.cons hplane hdown, hdisk,
          hround.trans hloop, by rw [hgets, hcount, List.length_cons]⟩
    · obtain rfl : i = n := by omega
      have hloop := @pollLoop_end _ now _ _ _ h ready ((aloft now before).take maxPlanes) counters
        rounds
      refine ⟨[], file, afterEnd planesDb true file query.row i, scanned_end now h, rfl, ?_,
        pollGets_end h ready rounds _⟩
      rw [List.append_nil, Counters.add_nil]
      exact hloop

/-- A poll, by the planes it reads. -/
theorem getAirplanes_scan {file : Bytes} (whole : Whole planesDb file) (now : Int64)
    (counters : Counters) :
    ∃ reads file', Scanned now 0 file reads file' ∧
      getAirplanes now counters (Disk.sound file) =
        some
          { result := Int32.ofNat ((aloft now reads).take maxPlanes).length
            buffer := (aloft now reads).take maxPlanes
            counters :=
              { planesCount := Int32.ofNat ((aloft now reads).take maxPlanes).length
                crashedCount := statusCount crashed reads
                landedCount := statusCount landed reads }
            disk := Disk.sound file' } ∧
      pollGets now (pollFuel (Disk.sound file)) (pollStart file counters).1
        (pollStart file counters).2 = reads.length := by
  obtain ⟨n, h⟩ := whole
  have hfuel : pollRemaining 0 (planesOf file) < pollFuel (Disk.sound file) :=
    pollRemaining_lt_pollFuel (by rw [length_planesOf h, h])
  obtain ⟨reads, file', query, scanned, hdisk, hloop, hgets⟩ := @pollLoop_scan _ now _ 0 n file
    (Scan.open (Disk.sound file) (zeros stoKeySize) (zeros sizeofPlane)) []
    { counters with crashedCount := 0, landedCount := 0 } h (Nat.zero_le n)
    (ready_open planesDb true file (length_zeros stoKeySize)
      (fun _ => length_zeros sizeofPlane)) hfuel
  have hnil : (aloft now []).take maxPlanes = [] := rfl
  rw [hnil, List.nil_append] at hloop
  rw [hnil] at hgets
  refine ⟨reads, file', scanned, ?_, ?_⟩
  · rw [getAirplanes_sound, hloop, Option.map_some]
    simp [hdisk, Counters.add]
  · rw [pollStart_eq]
    exact hgets

/-! ## How long a poll takes -/

/-- **A poll ends.**  On any file of whole rows it does, after at most as many
successful `sto_get`s as the file has rows and flying rows. -/
theorem poll_ends {file : Bytes} (whole : Whole planesDb file) (now : Int64)
    (counters : Counters) :
    (∃ poll, getAirplanes now counters (Disk.sound file) = some poll) ∧
      pollGets now (pollFuel (Disk.sound file)) (pollStart file counters).1
          (pollStart file counters).2 ≤
        (rowsOf planesDb file).length + flyingCount (planesOf file) := by
  obtain ⟨reads, file', scanned, hpoll, hgets⟩ := getAirplanes_scan whole now counters
  refine ⟨⟨_, hpoll⟩, ?_⟩
  have hbound := scanned.bound
  rw [pollRemaining, Nat.sub_zero, List.drop_zero, planesOf, List.length_map] at hbound
  rw [hgets]
  exact hbound

omit [Platform] in
theorem poll_ends_twoPlanes :
    (∃ poll, @getAirplanes x86 10 {} (Disk.sound twoPlanes) = some poll) ∧
      @pollGets x86 10 (pollFuel (Disk.sound twoPlanes)) (pollStart twoPlanes {}).1
          (pollStart twoPlanes {}).2 ≤
        (rowsOf planesDb twoPlanes).length + flyingCount (planesOf twoPlanes) :=
  @poll_ends x86 _ whole_twoPlanes 10 {}

/-! ## What a poll accounts for -/

/-- A plane that the poll neither returns nor counts: it comes down, or has none of
the three statuses. -/
def Missed (now : Int64) (plane : AtcPlane) : Prop :=
  ComesDown now plane ∨ ¬ (plane.status = flying ∨ plane.Down)

instance (now : Int64) : DecidablePred (Missed now) := fun _ => by
  unfold Missed AtcPlane.Down
  infer_instance

/-- The three figures of a poll add up, and two of them are right. -/
structure Accounts (poll : PollResult) : Prop where
  total : poll.result.toInt + (getCrashed poll.counters).toInt +
    (getLanded poll.counters).toInt = (planesOf poll.disk.file).length
  crashed : (getCrashed poll.counters).toInt =
    (planesOf poll.disk.file).countP fun plane => plane.status = crashed
  landed : (getLanded poll.counters).toInt =
    (planesOf poll.disk.file).countP fun plane => plane.status = landed

/-- Every plane read is in the air, crashed or landed, or it is missed. -/
theorem count_reads (now : Int64) (reads : List AtcPlane) :
    (aloft now reads).length + (reads.countP fun plane => plane.status = crashed) +
        (reads.countP fun plane => plane.status = landed) +
        (reads.countP fun plane => Missed now plane) = reads.length := by
  induction reads with
  | nil => rfl
  | cons plane rest ih =>
    have haloft : (aloft now (plane :: rest)).length =
        (aloft now rest).length + if StaysUp now plane then 1 else 0 := by
      rw [aloft, aloft, List.length_map, List.length_map, List.filter_cons]
      by_cases hup : StaysUp now plane
      · simp [hup]
      · simp [hup]
    have hone : (if StaysUp now plane then 1 else 0) + (if plane.status = crashed then 1 else 0) +
        (if plane.status = landed then 1 else 0) + (if Missed now plane then 1 else 0) = 1 := by
      unfold StaysUp Missed ComesDown AtcPlane.Down
      have hfc : flying ≠ crashed := by decide
      have hfl : flying ≠ landed := by decide
      have hcl : crashed ≠ landed := by decide
      by_cases hflying : plane.status = flying
      · by_cases haltitude : altitudeAt plane now < 0
        · simp [hflying, haltitude, hfc, hfl]
        · simp [hflying, haltitude, hfc, hfl]
      · by_cases hcrashed : plane.status = crashed
        · simp [hcrashed, hfc.symm, hcl]
        · by_cases hlanded : plane.status = landed
          · simp [hlanded, hfl.symm, hcl.symm]
          · simp [hflying, hcrashed, hlanded]
    simp only [List.countP_cons, List.length_cons, decide_eq_true_eq, haloft]
    omega

omit [Platform] in
theorem toInt_statusCount {status : Int32} {fleet : List AtcPlane} (h : fleet.length < 2 ^ 31) :
    (statusCount status fleet).toInt = fleet.countP fun plane => plane.status = status := by
  have hle : (fleet.countP fun plane => decide (plane.status = status)) ≤ fleet.length :=
    List.countP_le_length
  exact Int32.toInt_ofNat_of_lt (Nat.lt_of_le_of_lt hle h)

theorem toInt_result (now : Int64) (fleet : List AtcPlane) :
    (Int32.ofNat ((aloft now fleet).take maxPlanes).length).toInt =
      ((aloft now fleet).take maxPlanes).length := by
  have hle : ((aloft now fleet).take maxPlanes).length ≤ maxPlanes := List.length_take_le _ _
  have hmax : maxPlanes < 2 ^ 31 := by decide
  exact Int32.toInt_ofNat_of_lt (Nat.lt_of_le_of_lt hle hmax)

/-- A poll that accounts for every plane misses none. -/
theorem not_missed_of_accounts {file : Bytes} (whole : Whole planesDb file)
    (hsize : (planesOf file).length ≤ maxPlanes) {now : Int64} {counters : Counters}
    (accounts : ∀ poll, getAirplanes now counters (Disk.sound file) = some poll →
      0 ≤ poll.result → Accounts poll) :
    ∀ plane ∈ planesOf file, ¬ Missed now plane := by
  intro plane hmem hmissed
  obtain ⟨reads, file', scanned, hpoll, _⟩ := getAirplanes_scan whole now counters
  have hmax : maxPlanes = 50 := rfl
  have hbound := scanned.bound
  have hrows := scanned.rows
  have hflying : flyingCount (planesOf file) ≤ (planesOf file).length := List.countP_le_length
  rw [pollRemaining, Nat.sub_zero, List.drop_zero] at hbound
  have hreads : reads.length < 2 ^ 31 := by omega
  have hcount := count_reads now reads
  have hresult := toInt_result now reads
  rw [List.length_take] at hresult
  have hnonneg : (0 : Int32) ≤ Int32.ofNat ((aloft now reads).take maxPlanes).length := by
    rw [Int32.le_iff_toInt_le, List.length_take, hresult]
    exact Int.natCast_nonneg _
  have htotal := (accounts _ hpoll hnonneg).total
  simp only [getCrashed, getLanded, toInt_statusCount hreads, List.length_take, hresult] at htotal
  have hnone : (reads.countP fun plane => Missed now plane) = 0 := by omega
  rw [List.countP_eq_zero] at hnone
  simp only [decide_eq_true_eq] at hnone
  -- nothing read came down, so what was read are the rows
  by_cases hfound : ∃ plane ∈ (planesOf file).drop 0, ComesDown now plane
  · obtain ⟨found, hin, hdown⟩ := scanned.found hfound
    exact hnone found hin (Or.inl hdown)
  · rw [not_exists] at hfound
    obtain ⟨rfl, _⟩ := scanned.quiet fun other hother hdown => hfound other ⟨hother, hdown⟩
    exact hnone plane (by rwa [List.drop_zero]) hmissed

theorem accounts_of_not_missed {file : Bytes} (whole : Whole planesDb file)
    (hsize : (planesOf file).length ≤ maxPlanes) {now : Int64} {counters : Counters}
    {poll : PollResult} (hnone : ∀ plane ∈ planesOf file, ¬ Missed now plane)
    (hsome : getAirplanes now counters (Disk.sound file) = some poll) : Accounts poll := by
  obtain ⟨reads, file', scanned, hpoll, _⟩ := getAirplanes_scan whole now counters
  obtain rfl := Option.some.inj (hpoll.symm.trans hsome)
  obtain ⟨hsame, hfile⟩ := scanned.quiet fun plane hmem hdown =>
    hnone plane (by rwa [List.drop_zero] at hmem) (Or.inl hdown)
  rw [List.drop_zero] at hsame
  rw [hsame, hfile]
  have hmax : maxPlanes = 50 := rfl
  have hreads : (planesOf file).length < 2 ^ 31 := by omega
  have hcount := count_reads now (planesOf file)
  have hresult := toInt_result now (planesOf file)
  rw [List.length_take] at hresult
  have hzero : ((planesOf file).countP fun plane => Missed now plane) = 0 := by
    rw [List.countP_eq_zero]
    simpa using hnone
  refine ⟨?_, toInt_statusCount hreads, toInt_statusCount hreads⟩
  simp only [getCrashed, getLanded, toInt_statusCount hreads, List.length_take, hresult]
  omega

/-- **When a poll accounts for every plane.**  On a file of at most `maxPlanes` rows:
exactly if no plane comes down in it, and every plane is flying, landed or
crashed. -/
theorem accounts_iff {file : Bytes} (whole : Whole planesDb file)
    (hsize : (planesOf file).length ≤ maxPlanes) (now : Int64) (counters : Counters) :
    (∀ poll, getAirplanes now counters (Disk.sound file) = some poll → 0 ≤ poll.result →
        Accounts poll) ↔
      ∀ plane ∈ planesOf file, ¬ Missed now plane :=
  ⟨not_missed_of_accounts whole hsize, fun hnone _ hsome _ =>
    accounts_of_not_missed whole hsize hnone hsome⟩

omit [Platform] in
theorem accounts_iff_twoPlanes :
    (∀ poll, @getAirplanes x86 10 {} (Disk.sound twoPlanes) = some poll → 0 ≤ poll.result →
        Accounts poll) ↔
      ∀ plane ∈ planesOf twoPlanes, ¬ @Missed x86 10 plane :=
  @accounts_iff x86 _ whole_twoPlanes (by rw [planesOf_twoPlanes]; decide) 10 {}

omit [Platform] in
theorem falling_missed : @Missed x86 10 falling := by
  left
  decide +kernel

omit [Platform] in
/-- The plane that comes down is neither returned nor counted. -/
theorem falling_not_accounted :
    ¬ ∀ (platform : Platform) (file : Bytes), Whole planesDb file →
      (planesOf file).length ≤ maxPlanes → ((planesOf file).map AtcPlane.id).Nodup →
        ∀ (now : Int64) (counters : Counters) (poll : PollResult),
          @getAirplanes platform now counters (Disk.sound file) = some poll →
            0 ≤ poll.result → Accounts poll := by
  intro accounts
  have hsize : (planesOf twoPlanes).length ≤ maxPlanes := by
    rw [planesOf_twoPlanes]
    decide
  have hdistinct : ((planesOf twoPlanes).map AtcPlane.id).Nodup := by
    rw [planesOf_twoPlanes]
    decide
  have hnone := @not_missed_of_accounts x86 _ whole_twoPlanes hsize 10 {}
    (accounts x86 _ whole_twoPlanes hsize hdistinct 10 {})
  exact hnone falling (by rw [planesOf_twoPlanes]; simp) falling_missed

/-! ## What a poll does to a fleet -/

/-- What `get_airplanes` is for: the first planes in the air at their place at the
time, the planes on the ground filed as such, and the others counted. -/
structure Polls (now : Int64) (fleet : List AtcPlane) (poll : PollResult) (file' : Bytes) :
    Prop where
  buffer : poll.buffer =
    ((fleet.filter fun plane => StaysUp now plane).take maxPlanes).map
      fun plane => advance plane now
  /-- A plane returned differs from the one stored in its position alone. -/
  position : ∀ plane ∈ fleet, ∃ x y,
    advance plane now = { plane with x := x, y := y, z := altitudeAt plane now }
  result : poll.result.toInt = poll.buffer.length
  room : poll.buffer.length ≤ maxPlanes
  rows : rowsOf planesDb file' = fleet.map fun plane => rowOf (polled now plane)
  kept : ∀ plane ∈ fleet, ¬ ComesDown now plane → polled now plane = plane
  down : ∀ plane ∈ fleet, ComesDown now plane →
    (polled now plane).id = plane.id ∧ (polled now plane).Down
  crashed : (getCrashed poll.counters).toInt = fleet.countP fun plane => plane.status = crashed
  landed : (getLanded poll.counters).toInt = fleet.countP fun plane => plane.status = landed

/-- **A poll end to end.** -/
theorem poll_polls {file : Bytes} {fleet : List AtcPlane} (holds : Holds file fleet)
    (hsize : fleet.length < 2 ^ 31) (now : Int64) (counters : Counters) :
    ∃ poll file', getAirplanes now counters (Disk.sound file) = some poll ∧
      poll.disk = Disk.sound file' ∧ Polls now fleet poll file' := by
  obtain ⟨file', holds', hpoll⟩ := getAirplanes_holds holds now counters
  refine ⟨_, file', hpoll, rfl, ?_⟩
  exact
    { buffer := (List.map_take ..).symm
      position := fun plane _ => ⟨_, _, rfl⟩
      result := toInt_result now fleet
      room := List.length_take_le _ _
      rows := by rw [holds'.rows, List.map_map]; rfl
      kept := fun plane _ hup => if_neg hup
      down := by
        intro plane _ hcomes
        refine ⟨polled_id now plane, ?_⟩
        rw [polled, if_pos hcomes]
        exact down_settle plane now
      crashed := toInt_statusCount hsize
      landed := toInt_statusCount hsize }

omit [Platform] in
theorem poll_polls_twoPlanes :
    ∃ poll file', @getAirplanes x86 10 {} (Disk.sound twoPlanes) = some poll ∧
      poll.disk = Disk.sound file' ∧ @Polls x86 10 [cruising, falling] poll file' :=
  @poll_polls x86 _ _ holds_twoPlanes (by decide) 10 {}

end Scan

end AirTraffic.Atcd
