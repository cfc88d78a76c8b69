/-
  Storage/Lookup.lean --- looking up a row by its key.

  WHAT THIS FILE IS FOR.  `sto_get_by_id` is `sto_get` with a filter that accepts
  the rows whose key is not the one asked for.  So whatever it returns is a row of
  another key, and what it does not find may be there.  It answers right only on
  a store in which nothing was ever set (`reads_back_iff`).  The argument looks at
  nothing but the first row, whose key no `sto_set` ever changes (`FirstRow`).
-/
import AirTraffic.Storage.Failure
import AirTraffic.Storage.Layout

set_option autoImplicit false

namespace AirTraffic.Storage

open AirTraffic.Foundation

variable {db : StoDatabase}

/-- `_get_by_id` -/
def getById (orig : Bytes) : StoFilter := fun _ key => strncmp key orig stoKeySize ≠ 0

/-- `sto_get_by_id`: its result, and the scan it ends with, whose row buffer is the
caller's and whose key is `tmp_key`. -/
def stoGetById (db : StoDatabase) (key row : Bytes) (disk : Disk) : Int32 × Scan :=
  match stoQuery disk (zeros stoKeySize) row with
  | (none, disk) => (-1, Scan.open disk (zeros stoKeySize) row)
  | (some q, _) => stoGet db (getById key) q

/-- The data of the last `sto_set` for a key. -/
def lastSet (calls : List (Bytes × Bytes)) (key : Bytes) : Option Bytes :=
  (calls.reverse.find? fun call => storedKey call.1 = storedKey key).map Prod.snd

/-- After the history, `sto_get_by_id` answers for the key as it was set last. -/
structure ReadsBack (db : StoDatabase) (calls : List (Bytes × Bytes)) (key row : Bytes) : Prop where
  found : ∀ data, lastSet calls key = some data →
    0 < (stoGetById db key row (stoSets db calls (.sound []))).1 ∧
      (stoGetById db key row (stoSets db calls (.sound []))).2.row = data
  missing : lastSet calls key = none →
    (stoGetById db key row (stoSets db calls (.sound []))).1 = 0
  /-- A row that is returned is the key's. -/
  own : 0 < (stoGetById db key row (stoSets db calls (.sound []))).1 →
    (stoGetById db key row (stoSets db calls (.sound []))).2.key = storedKey key

/-! ## Comparing stored keys -/

theorem strncmp_storedKey_iff (key other : Bytes) :
    strncmp (storedKey key) other stoKeySize = 0 ↔ storedKey key = storedKey other := by
  have hle : (key.take (strnlen key stoKeySize)).length ≤ stoKeySize := by
    rw [length_take_strnlen]
    exact strnlen_le key stoKeySize
  have hlength : strnlen (storedKey key) stoKeySize = (key.take (strnlen key stoKeySize)).length :=
    strnlen_nulPad (nulFree_take_strnlen key stoKeySize) hle
  have htake : (storedKey key).take (strnlen (storedKey key) stoKeySize) =
      key.take (strnlen key stoKeySize) := by
    rw [hlength]
    exact List.take_left' rfl
  rw [strncmp_eq_zero_iff, htake]
  constructor
  · intro heq
    rw [storedKey, storedKey, heq]
  · exact take_eq_of_storedKey_eq

theorem getById_storedKey (key other data : Bytes) :
    getById key data (storedKey other) = true ↔ storedKey other ≠ storedKey key := by
  rw [getById, decide_eq_true_eq, ne_eq, strncmp_storedKey_iff]

/-! ## The first row -/

/-- The file begins with a row of this key. -/
structure FirstRow (db : StoDatabase) (key file : Bytes) : Prop where
  key : readAt file 0 stoKeySize = key
  whole : stoKeySize + db.dataSize ≤ file.length

/-- On a disk that never fails a fetch of a key changes nothing, and where there is
a first row it ends behind the key of that. -/
theorem fetchKey_sound {file : Bytes} (hrow : stoKeySize ≤ db.rowSize)
    (hfile : stoKeySize ≤ file.length) {s : Scan} (disk : s.disk = .sound file) :
    (fetchNextRecord db false s).2.disk = .sound file ∧
      stoKeySize ≤ (fetchNextRecord db false s).2.pos := by
  have hpos : stoKeySize ≤
      s.cursor * db.rowSize + (readAt file (s.cursor * db.rowSize) stoKeySize).length := by
    by_cases hfirst : s.cursor = 0
    · rw [hfirst, Nat.zero_mul, length_readAt_of_le (by omega)]
      omega
    · have hnext := Nat.le_mul_of_pos_left db.rowSize (Nat.pos_of_ne_zero hfirst)
      omega
  unfold fetchNextRecord
  rw [disk]
  cases hread : readAt file (s.cursor * db.rowSize) stoKeySize with
  | nil =>
      rw [hread] at hpos
      simp only [Disk.fails_sound, Bool.false_eq_true, if_false, Disk.tick_sound,
        Disk.read_sound, hread]
      exact ⟨trivial, hpos⟩
  | cons c rest =>
      rw [hread] at hpos
      simp only [Disk.fails_sound, Bool.false_eq_true, if_false, Disk.tick_sound,
        Disk.read_sound, hread, fetchData]
      exact ⟨trivial, hpos⟩

/-- So does the search of `sto_set`. -/
theorem scanUntil_sound {file : Bytes} {stop : Scan → Bool} (hrow : stoKeySize ≤ db.rowSize)
    (hfile : stoKeySize ≤ file.length) : ∀ {fuel : Nat} {s : Scan} {res : Int32} {q : Scan},
      s.disk = .sound file → scanUntil db false stop fuel s = some (res, q) →
      q.disk = .sound file ∧ stoKeySize ≤ q.pos := by
  intro fuel
  induction fuel with
  | zero =>
      intro s res q _ hscan
      exact absurd hscan (by simp [scanUntil])
  | succ fuel ih =>
      intro s res q hdisk hscan
      have hfetch := fetchKey_sound hrow hfile hdisk
      unfold scanUntil at hscan
      dsimp only at hscan
      split at hscan
      · exact (Prod.mk.inj (Option.some.inj hscan)).2 ▸ hfetch
      · split at hscan
        · exact (Prod.mk.inj (Option.some.inj hscan)).2 ▸ hfetch
        · split at hscan
          · exact (Prod.mk.inj (Option.some.inj hscan)).2 ▸ hfetch
          · exact ih hfetch.1 hscan

/-- The writes of `sto_set` make no file shorter. -/
theorem stoSetWrite_sound {s : Scan} {file : Bytes} (row key : Bytes) (keyLen : Nat)
    (disk : s.disk = .sound file) : ∃ file', (stoSetWrite row key keyLen s).2 = .sound file' ∧
      file.length ≤ file'.length := by
  unfold stoSetWrite
  rw [disk]
  split
  · cases hfirst : (Disk.sound file).write s.pos (strncpy (zeros stoKeySize) key keyLen) with
    | mk written after =>
        obtain ⟨_, rfl⟩ := Prod.mk.inj (hfirst.symm.trans (Disk.write_sound file _ _))
        dsimp only
        split
        · refine ⟨_, rfl, ?_⟩
          rw [length_writeAt]
          omega
        · refine ⟨_, rfl, ?_⟩
          rw [length_writeAt, length_writeAt]
          omega
  · refine ⟨writeAt file s.pos row, rfl, ?_⟩
    rw [length_writeAt]
    omega

/-- `sto_set` on a disk that never fails writes where its search stopped, or
nothing. -/
theorem stoSet_sound_cases (hrow : 0 < db.rowSize) (row key file : Bytes) :
    ∃ res q, scanUntil db false (fun s => keyMatches key (strnlen key stoKeySize) s.key)
        (scanFuel (.sound file)) (Scan.open (.sound file) (zeros stoKeySize) []) = some (res, q) ∧
      ((stoSet db row key (.sound file)).2 = q.disk ∨
        stoSet db row key (.sound file) = stoSetWrite row key (strnlen key stoKeySize) q) := by
  have hremaining : (Scan.open (.sound file) (zeros stoKeySize) []).remaining db <
      scanFuel (.sound file) := by
    simp only [Scan.remaining, Scan.open, scanFuel]
    omega
  have hsome := scanUntil_isSome hrow false
    (fun s => keyMatches key (strnlen key stoKeySize) s.key) hremaining
  obtain ⟨⟨res, q⟩, hscan⟩ := Option.isSome_iff_exists.mp hsome
  refine ⟨res, q, hscan, ?_⟩
  rw [stoSet_of_open rfl hscan]
  split
  next => exact .inl rfl
  next => exact .inr rfl

/-- No `sto_set` changes the key of the first row. -/
theorem FirstRow.stoSet {key file : Bytes} (first : FirstRow db key file)
    (hrow : stoKeySize ≤ db.rowSize) (call : Bytes × Bytes) :
    ∃ file', (stoSet db call.2 call.1 (.sound file)).2 = .sound file' ∧ FirstRow db key file' := by
  have hlength := first.whole
  have hpositive : 0 < db.rowSize := Nat.lt_of_lt_of_le (by decide) hrow
  obtain ⟨res, q, hscan, hset⟩ := stoSet_sound_cases hpositive call.2 call.1 file
  obtain ⟨hdisk, hpos⟩ := scanUntil_sound hrow (by omega) rfl hscan
  rcases hset with hsame | hwrite
  · exact ⟨file, hsame.trans hdisk, first⟩
  · obtain ⟨file', hfile', hle⟩ := stoSetWrite_sound call.2 call.1 (strnlen call.1 stoKeySize)
      hdisk
    refine ⟨file', by rw [hwrite, hfile'], ?_, by omega⟩
    have hread : readAt (stoSetWrite call.2 call.1 (strnlen call.1 stoKeySize) q).2.file 0
        stoKeySize = readAt file 0 stoKeySize :=
      readAt_stoSetWrite hdisk (by omega) (by omega)
    rw [hfile'] at hread
    exact hread.trans first.key

/-- A search of an empty file ends at once. -/
theorem scanUntil_nil (db : StoDatabase) (wantRow : Bool) (stop : Scan → Bool) (fuel : Nat)
    (key row : Bytes) :
    scanUntil db wantRow stop (fuel + 1) (Scan.open (.sound []) key row) =
      some (0, afterEnd db wantRow [] row 0) := by
  have hread : readAt [] (0 * db.rowSize) stoKeySize = [] :=
    readAt_of_length_le _ (Nat.zero_le _)
  unfold scanUntil fetchNextRecord
  simp only [Scan.open, Disk.fails_sound, Bool.false_eq_true, if_false, Disk.tick_sound,
    Disk.read_sound, hread]
  rfl

/-- The first `sto_set` makes the first row. -/
theorem firstRow_of_stoSet (call : Bytes × Bytes) (hdata : call.2.length = db.dataSize) :
    ∃ file, (stoSet db call.2 call.1 (.sound [])).2 = .sound file ∧
      FirstRow db (storedKey call.1) file := by
  have hset : stoSet db call.2 call.1 (.sound []) =
      stoSetWrite call.2 call.1 (strnlen call.1 stoKeySize) (afterEnd db false [] [] 0) :=
    stoSet_of_scan (scanUntil_nil db false _ 0 (zeros stoKeySize) []) (by decide)
  have hwrite := stoSetWrite_key (s := afterEnd db false [] [] 0) call.2 call.1
    (by simp [afterEnd, stoKeyEmpty]) rfl
  have hpos : (afterEnd db false [] [] 0).pos = 0 := Nat.zero_mul _
  have hkey := length_storedKey call.1
  refine ⟨writeAt (writeAt [] 0 (storedKey call.1)) stoKeySize call.2, ?_, ?_, ?_⟩
  · rw [hset, hwrite, hpos, Nat.zero_add]
    rfl
  · have hfirst := readAt_writeAt_self [] 0 (storedKey call.1)
    rw [hkey] at hfirst
    rw [readAt_writeAt_before _ (by omega) (by rw [length_writeAt]; omega), hfirst]
  · rw [length_writeAt, hdata]
    omega

/-- After a history the file begins with the key that was set first. -/
theorem firstRow_of_stoSets {call : Bytes × Bytes} (hrow : stoKeySize ≤ db.rowSize)
    (hdata : call.2.length = db.dataSize) (rest : List (Bytes × Bytes)) :
    ∃ file, stoSets db (call :: rest) (.sound []) = .sound file ∧
      FirstRow db (storedKey call.1) file := by
  induction rest using List.reverseRecOn with
  | nil => exact firstRow_of_stoSet call hdata
  | append_singleton rest last ih =>
      obtain ⟨file, hfile, hfirst⟩ := ih
      obtain ⟨file', hset, hfirst'⟩ := hfirst.stoSet hrow last
      refine ⟨file', ?_, hfirst'⟩
      have hlast : stoSets db (call :: (rest ++ [last])) (.sound []) =
          (stoSet db last.2 last.1 (stoSets db (call :: rest) (.sound []))).2 := by
        rw [stoSets, ← List.cons_append, List.foldl_append]
        rfl
      rw [hlast, hfile, hset]

/-! ## Getting -/

/-- A row that the search stops at has passed its test. -/
theorem stop_of_scanUntil {wantRow : Bool} {stop : Scan → Bool} : ∀ {fuel : Nat} {s q : Scan}
    {res : Int32}, scanUntil db wantRow stop fuel s = some (res, q) → res ≠ 0 → res ≠ -1 →
      stop q = true := by
  intro fuel
  induction fuel with
  | zero =>
      intro s q res hscan
      exact absurd hscan (by simp [scanUntil])
  | succ fuel ih =>
      intro s q res hscan hzero hfail
      unfold scanUntil at hscan
      dsimp only at hscan
      split at hscan
      · exact absurd (Prod.mk.inj (Option.some.inj hscan)).1.symm hzero
      · split at hscan
        · exact absurd (Prod.mk.inj (Option.some.inj hscan)).1.symm hfail
        · split at hscan
          next hstop => exact (Prod.mk.inj (Option.some.inj hscan)).2 ▸ hstop
          next => exact ih hscan hzero hfail

/-- What `sto_get_by_id` returns is a row of another key. -/
theorem key_of_stoGetById {key row : Bytes} {disk : Disk}
    (h : 0 < (stoGetById db key row disk).1) :
    (stoGetById db key row disk).2.key ≠ storedKey key := by
  have hres : ∀ {res : Int32}, 0 < res → res ≠ 0 ∧ res ≠ -1 := by
    intro res hpos
    constructor
    · rintro rfl
      exact absurd hpos (by decide)
    · rintro rfl
      exact absurd hpos (by decide)
  intro heq
  unfold stoGetById at h heq
  cases hquery : stoQuery disk (zeros stoKeySize) row with
  | mk query after =>
      rw [hquery] at h heq
      cases query with
      | none => exact absurd h (by simp)
      | some q =>
          dsimp only at h heq
          unfold stoGet at h heq
          cases hscan : scanUntil db true (fun s => getById key s.row s.key)
              (scanFuel q.disk) q with
          | none =>
              rw [hscan] at h
              exact absurd h (by simp)
          | some found =>
              obtain ⟨res, t⟩ := found
              rw [hscan, Option.getD_some] at h heq
              have hstop := stop_of_scanUntil hscan (hres h).1 (hres h).2
              dsimp only at hstop heq
              rw [heq, getById_storedKey] at hstop
              exact hstop rfl

/-- A first row with another key is returned. -/
theorem stoGetById_of_firstRow {first key row file : Bytes} (h : FirstRow db (storedKey first) file)
    (other : storedKey first ≠ storedKey key) (hpos : 0 < db.dataSize)
    (hlt : db.dataSize < 2 ^ 31) : (stoGetById db key row (.sound file)).1 ≠ 0 := by
  have hlength := h.whole
  have hkeyLength : (readAt file 0 stoKeySize).length = stoKeySize :=
    length_readAt_of_le (by omega)
  have hdataLength : (readAt file stoKeySize db.dataSize).length = db.dataSize :=
    length_readAt_of_le (by omega)
  have hread := h.key
  have hfetch : fetchNextRecord db true (Scan.open (.sound file) (zeros stoKeySize) row) =
      (Int32.ofNat db.dataSize,
        { disk := .sound file
          pos := 0 * db.rowSize + stoKeySize + db.dataSize
          cursor := 1
          key := storedKey first
          row := writeAt row 0 (readAt file stoKeySize db.dataSize) }) := by
    have hover : writeAt (zeros stoKeySize) 0 (storedKey first) = storedKey first :=
      writeAt_zero_of_length_le (by rw [length_zeros, length_storedKey])
    unfold fetchNextRecord
    cases hstored : storedKey first with
    | nil => exact absurd hstored (storedKey_ne_nil first)
    | cons c rest =>
        have hsize : (c :: rest).length = stoKeySize := by rw [← hstored, length_storedKey]
        rw [hstored] at hread hover
        simp only [Scan.open, Disk.fails_sound, Bool.false_eq_true, if_false, Disk.tick_sound,
          Disk.read_sound, Nat.zero_mul, hread, hover, fetchData, if_true, hsize, Nat.zero_add,
          hdataLength]
  have hzero := ofNat_ne_zero hpos hlt
  have hget : stoGetById db key row (.sound file) =
      stoGet db (getById key) (Scan.open (.sound file) (zeros stoKeySize) row) := rfl
  have hdisk : (Scan.open (.sound file) (zeros stoKeySize) row).disk = .sound file := rfl
  rw [hget]
  unfold stoGet
  rw [hdisk, scanFuel_sound, scanUntil, hfetch]
  simp only [hzero, ofNat_ne_neg_one hlt, if_false, (getById_storedKey key first _).mpr other,
    if_true, Option.getD_some]
  exact hzero

/-- **When a lookup answers for its key.**  Only if nothing was ever set. -/
theorem reads_back_iff {dataTypeSize : Nat} {db : StoDatabase}
    (hinit : stoInit dataTypeSize = some db) (hsize : dataTypeSize < 2 ^ 31)
    {calls : List (Bytes × Bytes)} (hdata : ∀ call ∈ calls, call.2.length = dataTypeSize)
    (key row : Bytes) : ReadsBack db calls key row ↔ calls = [] := by
  obtain ⟨hpos, rfl, hrow⟩ := stoInit_eq hinit hsize
  have hroom : stoKeySize ≤ db.rowSize := by
    have hkeySize : stoKeySize = 16 := rfl
    omega
  constructor
  · intro reads
    cases calls with
    | nil => rfl
    | cons call rest =>
        obtain ⟨file, hfile, hfirst⟩ :=
          firstRow_of_stoSets hroom (hdata call List.mem_cons_self) rest
        cases hlast : lastSet (call :: rest) key with
        | some data =>
            have hpositive := (reads.found data hlast).1
            exact absurd (reads.own hpositive) (key_of_stoGetById hpositive)
        | none =>
            have hother : storedKey call.1 ≠ storedKey key := by
              rw [lastSet, Option.map_eq_none_iff, List.find?_eq_none] at hlast
              simpa using hlast call (by simp)
            have hzero := reads.missing hlast
            rw [hfile] at hzero
            exact absurd hzero (stoGetById_of_firstRow hfirst hother hpos hsize)
  · rintro rfl
    have hzero : (stoGetById db key row (stoSets db [] (.sound []))).1 = 0 := by
      have hget : stoGetById db key row (stoSets db [] (.sound [])) =
          stoGet db (getById key) (Scan.open (.sound []) (zeros stoKeySize) row) := rfl
      have hdisk : (Scan.open (.sound []) (zeros stoKeySize) row).disk = .sound [] := rfl
      rw [hget, stoGet, hdisk, scanFuel_sound, scanUntil_nil]
      rfl
    refine ⟨?_, fun _ => hzero, ?_⟩
    · intro data hlast
      exact absurd hlast (by simp [lastSet])
    · intro hpositive
      rw [hzero] at hpositive
      exact absurd hpositive (by decide)

theorem reads_back_two_keys :
    ReadsBack rowsOf48 [([65], zeros 48), ([66], zeros 48)] [65] (zeros 48) ↔
      [(([65] : Bytes), zeros 48), ([66], zeros 48)] = [] :=
  reads_back_iff (by decide : stoInit 48 = some rowsOf48) (by decide) (by decide) [65] (zeros 48)

/-- One plane is stored and looked up. -/
theorem lookup_misses_own_row :
    ¬ ∀ (dataTypeSize : Nat) (db : StoDatabase), stoInit dataTypeSize = some db →
      dataTypeSize < 2 ^ 31 → ∀ (calls : List (Bytes × Bytes)) (len : Nat),
        (∀ call ∈ calls, call.2.length = dataTypeSize ∧ strnlen call.1 stoKeySize = len) →
          ∀ key row : Bytes, strnlen key stoKeySize = len → row.length = dataTypeSize →
            ReadsBack db calls key row := by
  intro hreads
  have hinit : stoInit 48 = some rowsOf48 := by decide
  have hback := hreads 48 rowsOf48 hinit (by decide) [([65], zeros 48)] 1 (by decide) [65]
    (zeros 48) (by decide) (length_zeros 48)
  have hpositive := (hback.found (zeros 48) rfl).1
  exact absurd (hback.own hpositive) (key_of_stoGetById hpositive)

end AirTraffic.Storage
