/-
  Storage/Failure.lean --- `sto_set` on a disk that fails.

  WHAT THIS FILE IS FOR.  Every call to the system can fail, and `sto_set` gives
  up at the first one that does.  Its search makes two calls for each row it
  looks at and changes nothing; then it writes the data of a row, or first the
  key of a new one and the data after that.  So it has failed without a trace
  unless the write of the data fails and the key before it was written: that
  leaves a key without data at the end of the file (`leaves_store_iff`).
-/
import AirTraffic.Storage.OrderedMap

set_option autoImplicit false

namespace AirTraffic.Storage

open AirTraffic.Foundation

variable {db : StoDatabase}

/-! ## Fetching a key -/

/-- The scan of `sto_set` before row `i` of `file`, on a disk that may fail. -/
structure Standing (file : Bytes) (i : Nat) (s : Scan) : Prop where
  file : s.disk.file = file
  cursor : s.cursor = i
  key : s.key.length = stoKeySize

/-- A fetch of a key makes two calls; if both succeed, it goes as on a disk that
never fails. -/
theorem fetchKey_of_clean {s : Scan} (clean : s.disk.Clean 2) :
    fetchNextRecord db false s =
      ((fetchNextRecord db false { s with disk := .sound s.disk.file }).1,
        { (fetchNextRecord db false { s with disk := .sound s.disk.file }).2 with
          disk := s.disk.skip 2 }) := by
  obtain ⟨hseek, hread⟩ := (s.disk.clean_succ 1).mp clean
  rw [Disk.clean_one] at hseek
  have htick : s.disk.tick.fails = false := by rw [Disk.tick_eq_skip]; exact hread
  have hskip : s.disk.tick.tick = s.disk.skip 2 := by
    rw [Disk.tick_eq_skip, Disk.tick_eq_skip, Disk.skip_add]
  unfold fetchNextRecord
  simp only [hseek, Disk.read, htick, Disk.fails_sound, Bool.false_eq_true, if_false,
    Disk.tick_sound, Disk.file_tick, fetchData, hskip]
  split <;> simp_all

/-- If one of them fails, nothing is fetched and nothing changed. -/
theorem fetchKey_of_not_clean {s : Scan} (h : ¬ s.disk.Clean 2) :
    (fetchNextRecord db false s).1 = -1 ∧
      (fetchNextRecord db false s).2.disk.file = s.disk.file := by
  unfold fetchNextRecord
  split
  next hseek => exact ⟨rfl, rfl⟩
  next hseek =>
    have htick : s.disk.tick.fails = true := by
      rw [Disk.clean_succ, Disk.clean_one] at h
      rw [Disk.tick_eq_skip]
      by_contra hread
      exact h ⟨by simpa using hseek, by simpa using hread⟩
    simp [Disk.read, htick, fetchData]

theorem fetchKey_row {file : Bytes} {n i : Nat} {s : Scan} (h : file.length = fileLength db n)
    (hi : i < n) (standing : Standing file i s) (clean : s.disk.Clean 2) :
    fetchNextRecord db false s =
      (fetchCount db false,
        { afterRow db false file s.row i with disk := s.disk.skip 2 }) := by
  obtain ⟨rfl, rfl, hkey⟩ := standing
  have ready : Ready db false s.disk.file s.cursor { s with disk := .sound s.disk.file } :=
    ⟨rfl, rfl, hkey, by simp⟩
  rw [fetchKey_of_clean clean, fetchNextRecord_row h hi ready]

theorem fetchKey_end {file : Bytes} {n : Nat} {s : Scan} (fits : db.Fits)
    (h : file.length = fileLength db n) (standing : Standing file n s)
    (clean : s.disk.Clean 2) :
    fetchNextRecord db false s =
      (0, { afterEnd db false file s.row n with disk := s.disk.skip 2 }) := by
  obtain ⟨rfl, rfl, hkey⟩ := standing
  have ready : Ready db false s.disk.file s.cursor { s with disk := .sound s.disk.file } :=
    ⟨rfl, rfl, hkey, by simp⟩
  rw [fetchKey_of_clean clean, fetchNextRecord_end fits h ready]

/-! ## Searching -/

/-- A row that does not match is passed over. -/
theorem scanUntil_pass {file : Bytes} {n i : Nat} {stop : Scan → Bool} {test : Bytes → Bool}
    {s : Scan} (hstop : ∀ s, stop s = test s.key) (fits : db.Fits)
    (h : file.length = fileLength db n) (hi : i < n)
    (hpass : test (rowAt db file i).key = false) (standing : Standing file i s)
    (clean : s.disk.Clean 2) (fuel : Nat) :
    ∃ next, Standing file (i + 1) next ∧ next.disk = s.disk.skip 2 ∧
      scanUntil db false stop (fuel + 1) s = scanUntil db false stop fuel next := by
  refine ⟨{ afterRow db false file s.row i with disk := s.disk.skip 2 },
    ⟨standing.file, rfl, length_key_rowAt h hi⟩, rfl, ?_⟩
  conv_lhs => unfold scanUntil
  rw [fetchKey_row h hi standing clean]
  have hgo : stop { afterRow db false file s.row i with disk := s.disk.skip 2 } = false :=
    (hstop _).trans hpass
  simp only [fetchCount_ne_zero fits, fetchCount_ne_neg_one fits, if_false, hgo,
    Bool.false_eq_true]

/-- A fetch that fails ends the search. -/
theorem scanUntil_of_not_clean {stop : Scan → Bool} {s : Scan} (h : ¬ s.disk.Clean 2)
    (fuel : Nat) :
    ∃ t, scanUntil db false stop (fuel + 1) s = some (-1, t) ∧ t.disk.file = s.disk.file := by
  obtain ⟨hres, hfile⟩ := @fetchKey_of_not_clean db _ h
  refine ⟨(fetchNextRecord db false s).2, ?_, hfile⟩
  unfold scanUntil
  dsimp only
  rw [hres]
  rfl

/-- Rows that the search passes over. -/
theorem scanUntil_skip {file : Bytes} {n : Nat} {stop : Scan → Bool} {test : Bytes → Bool}
    (hstop : ∀ s, stop s = test s.key) (fits : db.Fits) (h : file.length = fileLength db n)
    (fuel : Nat) : ∀ {rounds i : Nat} {s : Scan}, i + rounds ≤ n →
      (∀ k, i ≤ k → k < i + rounds → test (rowAt db file k).key = false) →
      Standing file i s → s.disk.Clean (2 * rounds) →
      ∃ t, Standing file (i + rounds) t ∧ t.disk = s.disk.skip (2 * rounds) ∧
        scanUntil db false stop (fuel + rounds) s = scanUntil db false stop fuel t := by
  intro rounds
  induction rounds with
  | zero =>
      intro i s _ _ standing _
      exact ⟨s, standing, rfl, rfl⟩
  | succ rounds ih =>
      intro i s hin hskip standing clean
      have hcalls : 2 * (rounds + 1) = 2 + 2 * rounds := by omega
      rw [hcalls, Disk.clean_add] at clean
      obtain ⟨next, hnext, hdisk, hpass⟩ := scanUntil_pass hstop fits h (by omega)
        (hskip i (Nat.le_refl i) (by omega)) standing clean.1 (fuel + rounds)
      rw [← hdisk] at clean
      obtain ⟨t, hstanding, hlast, hscan⟩ := ih (by omega)
        (fun k hk hlt => hskip k (by omega) (by omega)) hnext clean.2
      have hindex : i + 1 + rounds = i + (rounds + 1) := by omega
      refine ⟨t, hindex ▸ hstanding, ?_, hpass.trans hscan⟩
      rw [hlast, hdisk, Disk.skip_add, hcalls]

/-- A call of the search fails. -/
theorem scanUntil_fails {file : Bytes} {n : Nat} {stop : Scan → Bool} {test : Bytes → Bool}
    (hstop : ∀ s, stop s = test s.key) (fits : db.Fits) (h : file.length = fileLength db n) :
    ∀ {rounds i fuel : Nat} {s : Scan}, rounds < fuel → i + rounds ≤ n →
      (∀ k, i ≤ k → k < i + rounds → test (rowAt db file k).key = false) →
      Standing file i s → ¬ s.disk.Clean (2 * rounds + 2) →
      ∃ t, scanUntil db false stop fuel s = some (-1, t) ∧ t.disk.file = file := by
  intro rounds
  induction rounds with
  | zero =>
      intro i fuel s hfuel _ _ standing unclean
      obtain ⟨fuel, rfl⟩ := Nat.exists_eq_succ_of_ne_zero (Nat.ne_of_gt hfuel)
      rw [← standing.file]
      exact scanUntil_of_not_clean unclean fuel
  | succ rounds ih =>
      intro i fuel s hfuel hin hskip standing unclean
      obtain ⟨fuel, rfl⟩ := Nat.exists_eq_succ_of_ne_zero (Nat.ne_of_gt (Nat.zero_lt_of_lt hfuel))
      by_cases clean : s.disk.Clean 2
      · have hcalls : 2 * (rounds + 1) + 2 = 2 + (2 * rounds + 2) := by omega
        obtain ⟨next, hnext, hdisk, hpass⟩ := scanUntil_pass hstop fits h (by omega)
          (hskip i (Nat.le_refl i) (by omega)) standing clean fuel
        rw [hcalls, Disk.clean_add, ← hdisk] at unclean
        obtain ⟨t, hscan, hfile⟩ := ih (Nat.lt_of_succ_lt_succ hfuel) (by omega)
          (fun k hk hlt => hskip k (by omega) (by omega)) hnext fun hrest => unclean ⟨clean, hrest⟩
        exact ⟨t, hpass.trans hscan, hfile⟩
      · rw [← standing.file]
        exact scanUntil_of_not_clean clean fuel

/-! ## Setting -/

/-- The number of the row at which the search of `sto_set` stops: the first that
matches, or the one behind the last. -/
def searchStop (db : StoDatabase) (file key : Bytes) : Nat :=
  (rowsOf db file).findIdx fun stored => keyMatches key (strnlen key stoKeySize) stored.key

/-- Where `sto_set` writes first. -/
def writePos (db : StoDatabase) (file key : Bytes) : Nat :=
  if searchStop db file key < rowCount db file then
    searchStop db file key * db.rowSize + stoKeySize
  else searchStop db file key * db.rowSize

/-- `sto_set` writes the key: no row matches, or the one that does has an empty
key. -/
def WritesKey (db : StoDatabase) (file key : Bytes) : Prop :=
  ∀ stored, (rowsOf db file)[searchStop db file key]? = some stored →
    stoKeyEmpty stored.key = true

/-- The calls that `sto_set` makes before it writes: `open`, and two for each row
that it looks at. -/
def searchCalls (db : StoDatabase) (file key : Bytes) : Nat :=
  1 + (2 * searchStop db file key + 2)

theorem searchStop_le {file : Bytes} {n : Nat} (fits : db.Fits)
    (h : file.length = fileLength db n) (key : Bytes) : searchStop db file key ≤ n := by
  rw [← length_rowsOf fits h]
  exact List.findIdx_le_length

theorem not_match_of_lt_searchStop {file key : Bytes} {n k : Nat} (fits : db.Fits)
    (h : file.length = fileLength db n) (hk : k < searchStop db file key) :
    keyMatches key (strnlen key stoKeySize) (rowAt db file k).key = false := by
  have hn := searchStop_le fits h key
  have hget := getElem?_rowsOf fits h k
  rw [if_pos (by omega), List.getElem?_eq_some_iff] at hget
  obtain ⟨_, hrow⟩ := hget
  have hnot := List.not_of_lt_findIdx hk
  rw [hrow] at hnot
  exact hnot

theorem match_of_searchStop_lt {file key : Bytes} {n : Nat} (fits : db.Fits)
    (h : file.length = fileLength db n) (hlt : searchStop db file key < n) :
    keyMatches key (strnlen key stoKeySize) (rowAt db file (searchStop db file key)).key =
      true := by
  have hget := getElem?_rowsOf fits h (searchStop db file key)
  rw [if_pos hlt, List.getElem?_eq_some_iff] at hget
  obtain ⟨_, hrow⟩ := hget
  rw [← hrow]
  exact List.findIdx_getElem (p := fun stored : Row =>
    keyMatches key (strnlen key stoKeySize) stored.key)

theorem standing_open (disk : Disk) :
    Standing disk.file 0 (Scan.open disk.tick (zeros stoKeySize) []) :=
  ⟨rfl, rfl, length_zeros _⟩

/-- A call fails before `sto_set` writes. -/
theorem stoSet_search_fails {disk : Disk} {row key : Bytes} (fits : db.Fits)
    (whole : Whole db disk.file) (unclean : ¬ disk.Clean (searchCalls db disk.file key)) :
    (stoSet db row key disk).1 = -1 ∧ (stoSet db row key disk).2.file = disk.file := by
  obtain ⟨n, h⟩ := whole
  by_cases hopen : disk.fails = true
  · have hquery : stoQuery disk (zeros stoKeySize) [] = (none, disk.tick) := by
      rw [stoQuery, hopen]
      rfl
    unfold stoSet
    rw [hquery]
    exact ⟨rfl, rfl⟩
  · rw [Bool.not_eq_true] at hopen
    have hrest : ¬ disk.tick.Clean (2 * searchStop db disk.file key + 2) := by
      intro hrest
      rw [Disk.tick_eq_skip] at hrest
      exact unclean ((disk.clean_add 1 _).mpr ⟨disk.clean_one.mpr hopen, hrest⟩)
    have hle := searchStop_le fits h key
    have hlength := le_length_of_fileLength fits h
    have hfuel : searchStop db disk.file key < scanFuel disk.tick := by
      simp only [scanFuel, Disk.file_tick]
      omega
    have hfails := @scanUntil_fails db _ _ (fun s => keyMatches key (strnlen key stoKeySize) s.key)
      (keyMatches key (strnlen key stoKeySize)) (fun _ => rfl) fits h
    obtain ⟨t, hscan, hfile⟩ := hfails hfuel (by omega)
      (fun k _ hk => not_match_of_lt_searchStop fits h (by omega)) (standing_open disk) hrest
    rw [stoSet_of_open hopen hscan]
    exact ⟨rfl, hfile⟩

/-- The last round of the search: a row that matches, or the end of the file. -/
theorem scanUntil_stop {file key : Bytes} {n : Nat} (fits : db.Fits)
    (h : file.length = fileLength db n) {s : Scan}
    (standing : Standing file (searchStop db file key) s) (clean : s.disk.Clean 2) (fuel : Nat) :
    ∃ res q, scanUntil db false (fun s => keyMatches key (strnlen key stoKeySize) s.key)
        (fuel + 1) s = some (res, q) ∧
      res ≠ -1 ∧ q.pos = writePos db file key ∧
      (stoKeyEmpty q.key = true ↔ WritesKey db file key) ∧ q.disk = s.disk.skip 2 := by
  have hle := searchStop_le fits h key
  have hcount := rowCount_eq fits h
  have hget := getElem?_rowsOf fits h (searchStop db file key)
  unfold scanUntil WritesKey writePos
  by_cases hlt : searchStop db file key < n
  · rw [fetchKey_row h hlt standing clean, hget, if_pos hlt, hcount, if_pos hlt]
    have hmatch := match_of_searchStop_lt fits h hlt
    refine ⟨_, { afterRow db false file s.row (searchStop db file key) with
      disk := s.disk.skip 2 }, ?_, fetchCount_ne_neg_one fits false, rfl, ?_, rfl⟩
    · simp only [fetchCount_ne_zero fits, fetchCount_ne_neg_one fits, if_false, afterRow, hmatch,
        if_true]
    · constructor
      · intro hempty stored hstored
        exact Option.some.inj hstored ▸ hempty
      · intro hempty
        exact hempty _ rfl
  · have heq : searchStop db file key = n := by omega
    rw [heq] at standing
    rw [fetchKey_end fits h standing clean, hget, if_neg hlt, hcount, if_neg hlt, heq]
    refine ⟨0, { afterEnd db false file s.row n with disk := s.disk.skip 2 }, rfl, by decide, rfl,
      ?_, rfl⟩
    exact iff_of_true (by simp [afterEnd, stoKeyEmpty]) (by simp)

/-- No call fails before `sto_set` writes. -/
theorem stoSet_of_clean {disk : Disk} {key : Bytes} (row : Bytes) (fits : db.Fits)
    (whole : Whole db disk.file) (clean : disk.Clean (searchCalls db disk.file key)) :
    ∃ q : Scan, q.pos = writePos db disk.file key ∧
      (stoKeyEmpty q.key = true ↔ WritesKey db disk.file key) ∧
      q.disk = disk.skip (searchCalls db disk.file key) ∧
      stoSet db row key disk = stoSetWrite row key (strnlen key stoKeySize) q := by
  obtain ⟨n, h⟩ := whole
  obtain ⟨hfirst, hrest⟩ := (disk.clean_add 1 _).mp clean
  have hopen := disk.clean_one.mp hfirst
  rw [← Disk.tick_eq_skip, Disk.clean_add] at hrest
  have hle := searchStop_le fits h key
  have hlength := le_length_of_fileLength fits h
  have hfuel : scanFuel disk.tick =
      scanFuel disk.tick - 1 - searchStop db disk.file key + 1 + searchStop db disk.file key := by
    simp only [scanFuel, Disk.file_tick]
    omega
  have hskip := @scanUntil_skip db _ _ (fun s => keyMatches key (strnlen key stoKeySize) s.key)
    (keyMatches key (strnlen key stoKeySize)) (fun _ => rfl) fits h
    (scanFuel disk.tick - 1 - searchStop db disk.file key + 1)
  obtain ⟨t, hstanding, hdisk, hscan⟩ := hskip (by omega)
    (fun k _ hk => not_match_of_lt_searchStop fits h (by omega)) (standing_open disk) hrest.1
  rw [Nat.zero_add] at hstanding
  have hclean : t.disk.Clean 2 := hdisk ▸ hrest.2
  obtain ⟨res, q, hstop, hres, hpos, hkey, hskip⟩ := scanUntil_stop fits h hstanding hclean
    (scanFuel disk.tick - 1 - searchStop db disk.file key)
  rw [← hfuel, hstop] at hscan
  refine ⟨q, hpos, hkey, ?_, ?_⟩
  · have hopened : (Scan.open disk.tick (zeros stoKeySize) []).disk = disk.skip 1 :=
      disk.tick_eq_skip
    rw [hskip, hdisk, hopened, Disk.skip_add, Disk.skip_add]
    rfl
  · rw [stoSet_of_open hopen hscan, if_neg hres]

/-! ## Writing -/

/-- The data of a row that has its key. -/
theorem stoSetWrite_data {s : Scan} (row key : Bytes) (keyLen : Nat)
    (h : stoKeyEmpty s.key = false) : stoSetWrite row key keyLen s = s.disk.write s.pos row := by
  unfold stoSetWrite
  rw [h]
  rfl

/-- The key, and the data behind it. -/
theorem stoSetWrite_key {s : Scan} (row key : Bytes) (h : stoKeyEmpty s.key = true)
    (ok : s.disk.fails = false) :
    stoSetWrite row key (strnlen key stoKeySize) s =
      (s.disk.wrote s.pos (storedKey key)).write (s.pos + stoKeySize) row := by
  have hlength : (storedKey key).length = stoKeySize := by
    rw [← strncpy_key]
    exact length_strncpy_key key
  unfold stoSetWrite
  rw [h, strncpy_key, Disk.write_of_not_fails ok, hlength]
  rfl

theorem stoSetWrite_key_fails {s : Scan} (row key : Bytes) (h : stoKeyEmpty s.key = true)
    (fails : s.disk.fails = true) :
    stoSetWrite row key (strnlen key stoKeySize) s = (-1, s.disk.tick) := by
  unfold stoSetWrite
  rw [h, strncpy_key, Disk.write_of_fails fails]
  rfl

/-! ## Failing -/

/-- A later use of the store: a `sto_set`, or a scan of so many `sto_get`. -/
inductive StoCall where
  | set (row key : Bytes)
  | get (filter : StoFilter) (times : Nat) (keyBuffer rowBuffer : Bytes)

/-- So many calls of `sto_get` on one cursor, and where they leave it. -/
def stoGetTimes (db : StoDatabase) (filter : StoFilter) : Nat → Scan → List (Int32 × Row) × Scan
  | 0, s => ([], s)
  | n + 1, s =>
      let (res, s) := stoGet db filter s
      let (rest, last) := stoGetTimes db filter n s
      ((res, { key := s.key, data := s.row }) :: rest, last)

/-- What the calls return, and the disk behind them. -/
def StoCall.run (db : StoDatabase) : StoCall → Disk → List (Int32 × Row) × Disk
  | .set row key, disk =>
      let (res, disk) := stoSet db row key disk
      ([(res, { key := key, data := row })], disk)
  | .get filter times keyBuffer rowBuffer, disk =>
      match stoQuery disk keyBuffer rowBuffer with
      | (none, disk) => ([(-1, { key := keyBuffer, data := rowBuffer })], disk)
      | (some q, _) =>
          let (results, last) := stoGetTimes db filter times q
          (results, last.disk)

/-- What a sequence of calls returns. -/
def outcomes (db : StoDatabase) : List StoCall → Disk → List (List (Int32 × Row))
  | [], _ => []
  | call :: rest, disk => (call.run db disk).1 :: outcomes db rest (call.run db disk).2

/-- If `sto_set` fails, it has not changed the file, and the calls behind it go as
if it had not been made, whatever fails then. -/
def LeavesStore (db : StoDatabase) (row key : Bytes) (disk : Disk) : Prop :=
  (stoSet db row key disk).1 = -1 →
    (stoSet db row key disk).2.file = disk.file ∧
      ∀ (later : List StoCall) (faults : List Bool),
        outcomes db later ⟨(stoSet db row key disk).2.file, faults⟩ =
          outcomes db later ⟨disk.file, faults⟩

/-- The key of a row is written and the write of its data fails. -/
structure TearsRow (db : StoDatabase) (key : Bytes) (disk : Disk) : Prop where
  writesKey : WritesKey db disk.file key
  written : disk.Clean (searchCalls db disk.file key + 1)
  fails : (disk.skip (searchCalls db disk.file key + 1)).fails = true
  /-- The key was not there before. -/
  absent : readAt disk.file (writePos db disk.file key) stoKeySize ≠ storedKey key

/-- The key that was written stays. -/
theorem TearsRow.file_eq {disk : Disk} {key : Bytes} (tears : TearsRow db key disk) (row : Bytes)
    (fits : db.Fits) (whole : Whole db disk.file) :
    (stoSet db row key disk).1 = -1 ∧ (stoSet db row key disk).2.file =
      writeAt disk.file (writePos db disk.file key) (storedKey key) := by
  obtain ⟨clean, hkeyWrite⟩ := (disk.clean_succ _).mp tears.written
  obtain ⟨q, hpos, hkey, hdisk, hset⟩ := stoSet_of_clean row fits whole clean
  have hfails : (q.disk.wrote q.pos (storedKey key)).fails = true := by
    rw [Disk.fails_wrote, hdisk, Disk.tick_eq_skip, Disk.skip_add]
    exact tears.fails
  rw [hset, stoSetWrite_key row key (hkey.mpr tears.writesKey) (by rw [hdisk]; exact hkeyWrite),
    Disk.write_of_fails hfails, hpos, hdisk]
  exact ⟨rfl, rfl⟩

/-- Every other failure leaves the file as it was. -/
theorem file_of_failed {disk : Disk} {row key : Bytes} (fits : db.Fits)
    (whole : Whole db disk.file) (hrow : row.length = db.dataSize)
    (intact : ¬ TearsRow db key disk) (failed : (stoSet db row key disk).1 = -1) :
    (stoSet db row key disk).2.file = disk.file := by
  have hsize : Int32.ofNat row.length ≠ -1 := by
    rw [hrow]
    exact ofNat_ne_neg_one fits.data_lt
  by_cases clean : disk.Clean (searchCalls db disk.file key)
  · obtain ⟨q, hpos, hkey, hdisk, hset⟩ := stoSet_of_clean row fits whole clean
    rw [hset] at failed ⊢
    cases hempty : stoKeyEmpty q.key with
    | false =>
        rw [stoSetWrite_data row key _ hempty] at failed ⊢
        cases hfails : q.disk.fails with
        | true => rw [Disk.write_of_fails hfails, hdisk]; rfl
        | false =>
            rw [Disk.write_of_not_fails hfails] at failed
            exact absurd failed hsize
    | true =>
        cases hfails : q.disk.fails with
        | true => rw [stoSetWrite_key_fails row key hempty hfails, hdisk]; rfl
        | false =>
            rw [stoSetWrite_key row key hempty hfails] at failed ⊢
            cases hdata : (q.disk.wrote q.pos (storedKey key)).fails with
            | true =>
                have hthere : readAt disk.file (writePos db disk.file key) stoKeySize =
                    storedKey key := by
                  by_contra habsent
                  refine intact ⟨hkey.mp hempty, (disk.clean_succ _).mpr ⟨clean, ?_⟩, ?_, habsent⟩
                  · rw [← hdisk]
                    exact hfails
                  · rw [← Disk.skip_add, ← hdisk, ← Disk.tick_eq_skip]
                    exact hdata
                rw [Disk.write_of_fails hdata, hpos, hdisk]
                rw [← length_storedKey key] at hthere
                exact writeAt_eq_self (storedKey_ne_nil key) hthere
            | false =>
                rw [Disk.write_of_not_fails hdata] at failed
                exact absurd failed hsize
  · exact (stoSet_search_fails fits whole clean).2

/-- The file behind a `sto_set` that succeeds. -/
theorem file_of_success {disk : Disk} {row key : Bytes} (fits : db.Fits)
    (whole : Whole db disk.file) (success : (stoSet db row key disk).1 ≠ -1) :
    (WritesKey db disk.file key → (stoSet db row key disk).2.file =
        writeAt disk.file (writePos db disk.file key) (storedKey key ++ row)) ∧
      (¬ WritesKey db disk.file key → (stoSet db row key disk).2.file =
        writeAt disk.file (writePos db disk.file key) row) := by
  by_cases clean : disk.Clean (searchCalls db disk.file key)
  · obtain ⟨q, hpos, hkey, hdisk, hset⟩ := stoSet_of_clean row fits whole clean
    have hfile : q.disk.file = disk.file := by rw [hdisk, Disk.file_skip]
    rw [hset] at success ⊢
    constructor
    · intro writes
      have hempty := hkey.mpr writes
      cases hfails : q.disk.fails with
      | true =>
          rw [stoSetWrite_key_fails row key hempty hfails] at success
          exact absurd rfl success
      | false =>
          rw [stoSetWrite_key row key hempty hfails] at success ⊢
          cases hdata : (q.disk.wrote q.pos (storedKey key)).fails with
          | true =>
              rw [Disk.write_of_fails hdata] at success
              exact absurd rfl success
          | false =>
              have happend := writeAt_writeAt_append disk.file q.pos (storedKey key) row
              rw [length_storedKey] at happend
              rw [Disk.write_of_not_fails hdata, Disk.file_wrote, Disk.file_wrote, hfile, happend,
                hpos]
    · intro keeps
      have hfull : stoKeyEmpty q.key = false := by
        rw [← Bool.not_eq_true]
        exact fun hempty => keeps (hkey.mp hempty)
      rw [stoSetWrite_data row key _ hfull] at success ⊢
      cases hfails : q.disk.fails with
      | true =>
          rw [Disk.write_of_fails hfails] at success
          exact absurd rfl success
      | false => rw [Disk.write_of_not_fails hfails, Disk.file_wrote, hfile, hpos]
  · exact absurd (stoSet_search_fails fits whole clean).1 success

/-- **When a failed `sto_set` leaves no trace.**  Unless it fails between the key
of a new row and its data. -/
theorem leaves_store_iff {disk : Disk} {row : Bytes} (key : Bytes) (fits : db.Fits)
    (whole : Whole db disk.file) (hrow : row.length = db.dataSize) :
    LeavesStore db row key disk ↔ ¬ TearsRow db key disk := by
  constructor
  · intro leaves tears
    obtain ⟨hfailed, hfile⟩ := tears.file_eq row fits whole
    have hsame := hfile.symm.trans (leaves hfailed).1
    have hthere := readAt_writeAt_self disk.file (writePos db disk.file key) (storedKey key)
    rw [hsame, length_storedKey] at hthere
    exact tears.absent hthere
  · intro intact failed
    have hfile := file_of_failed fits whole hrow intact failed
    refine ⟨hfile, ?_⟩
    intro later faults
    rw [hfile]

/-- The database of the planes. -/
def rowsOf48 : StoDatabase := { rowSize := 64, dataSize := 48 }

theorem fits_rowsOf48 : rowsOf48.Fits :=
  fits_of_stoInit (by decide : stoInit 48 = some rowsOf48) (by decide) (by decide)

/-- `open`, `lseek`, `read` and the write of the key succeed, and the next call
fails. -/
def fifthFails : Disk := { file := [], faults := [false, false, false, false, true] }

theorem fifthFails_tears : TearsRow rowsOf48 [65] fifthFails where
  writesKey := by
    intro stored hstored
    rw [fifthFails, rowsOf_nil fits_rowsOf48] at hstored
    exact absurd hstored (by simp)
  written := by decide
  fails := by decide
  absent := by decide

theorem fifthFails_leaves_iff :
    LeavesStore rowsOf48 (zeros 48) [65] fifthFails ↔ ¬ TearsRow rowsOf48 [65] fifthFails :=
  leaves_store_iff [65] fits_rowsOf48 (whole_nil rowsOf48) (length_zeros 48)

theorem key_without_data_stays :
    ¬ ∀ (db : StoDatabase) (row key : Bytes) (disk : Disk), db.Fits → Whole db disk.file →
      row.length = db.dataSize → LeavesStore db row key disk := by
  intro hleaves
  have hunchanged := hleaves rowsOf48 (zeros 48) [65] fifthFails fits_rowsOf48
    (whole_nil rowsOf48) (length_zeros 48)
  obtain ⟨hfailed, hfile⟩ := fifthFails_tears.file_eq (zeros 48) fits_rowsOf48 (whole_nil rowsOf48)
  have hsame := hfile.symm.trans (hunchanged hfailed).1
  exact absurd (congrArg List.length hsame) (by decide)

end AirTraffic.Storage
