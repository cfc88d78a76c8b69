/-
  Storage/Specs.lean --- one specification for each store operation.

  WHAT THIS FILE IS FOR.  On a sound disk that holds whole rows,
  `_fetch_next_record` returns the row under the cursor, the search loop stops
  at the first row its test accepts, `sto_get` returns the next row the filter
  accepts, and `sto_set` is `upsert` on the rows: the first row whose key
  matches gets the new data, and if there is none a new row is appended
  (`stoSet_sound`).
-/
import AirTraffic.Storage.Rows

set_option autoImplicit false

namespace AirTraffic.Storage

open AirTraffic.Foundation

variable {db : StoDatabase}

/-! ## Fetching -/

/-- The scan stands before row `i` of `file`, with buffers of the right size. -/
structure Ready (db : StoDatabase) (wantRow : Bool) (file : Bytes) (i : Nat)
    (s : Scan) : Prop where
  disk : s.disk = Disk.sound file
  cursor : s.cursor = i
  key : s.key.length = stoKeySize
  row : wantRow = true → s.row.length = db.dataSize

/-- The scan after row `i` was fetched; `row` is the buffer it started with. -/
def afterRow (db : StoDatabase) (wantRow : Bool) (file row : Bytes) (i : Nat) : Scan :=
  { disk := Disk.sound file
    pos := i * db.rowSize + stoKeySize + if wantRow then db.dataSize else 0
    cursor := i + 1
    key := (rowAt db file i).key
    row := if wantRow then (rowAt db file i).data else row }

/-- The scan after the end of the file was found at row `n`. -/
def afterEnd (db : StoDatabase) (wantRow : Bool) (file row : Bytes) (n : Nat) : Scan :=
  { disk := Disk.sound file
    pos := n * db.rowSize
    cursor := n
    key := zeros stoKeySize
    row := if wantRow then zeros db.dataSize else row }

/-- What a successful fetch returns: the bytes of its last read. -/
def fetchCount (db : StoDatabase) (wantRow : Bool) : Int32 :=
  if wantRow then Int32.ofNat db.dataSize else Int32.ofNat stoKeySize

theorem ofNat_ne_zero {n : Nat} (hpos : 0 < n) (hlt : n < 2 ^ 31) : Int32.ofNat n ≠ 0 := by
  intro h
  have := Int32.toInt_ofNat_of_lt hlt
  rw [h, Int32.toInt_zero] at this
  omega

theorem ofNat_ne_neg_one {n : Nat} (hlt : n < 2 ^ 31) : Int32.ofNat n ≠ -1 := by
  intro h
  have hn := Int32.toInt_ofNat_of_lt hlt
  have hneg : (-1 : Int32).toInt = -1 := by decide
  rw [h, hneg] at hn
  omega

theorem fetchCount_ne_zero (fits : db.Fits) (wantRow : Bool) :
    fetchCount db wantRow ≠ 0 := by
  cases wantRow with
  | true => exact ofNat_ne_zero fits.data_pos fits.data_lt
  | false => exact ofNat_ne_zero (by decide) (by decide)

theorem fetchCount_ne_neg_one (fits : db.Fits) (wantRow : Bool) :
    fetchCount db wantRow ≠ -1 := by
  cases wantRow with
  | true => exact ofNat_ne_neg_one fits.data_lt
  | false => exact ofNat_ne_neg_one (by decide)

/-- The row under the cursor is fetched. -/
theorem fetchNextRecord_row {file : Bytes} {n i : Nat} {wantRow : Bool} {s : Scan}
    (h : file.length = fileLength db n) (hi : i < n)
    (ready : Ready db wantRow file i s) :
    fetchNextRecord db wantRow s =
      (fetchCount db wantRow, afterRow db wantRow file s.row i) := by
  obtain ⟨disk, pos, cursor, key, row⟩ := s
  obtain ⟨rfl, rfl, hkey, hrow⟩ := ready
  have hkeyLen := length_key_rowAt h hi
  have hdataLen := length_data_rowAt h hi
  cases hread : readAt file (cursor * db.rowSize) stoKeySize with
  | nil =>
      have : (0 : Nat) = stoKeySize := by rw [← hkeyLen, rowAt, hread]; rfl
      exact absurd this (by decide)
  | cons c rest =>
      have hlen : (c :: rest).length = stoKeySize := by rw [← hkeyLen, rowAt, hread]
      have hover : writeAt key 0 (c :: rest) = (rowAt db file cursor).key := by
        rw [writeAt_zero_of_length_le (by rw [hlen]; exact Nat.le_of_eq hkey), rowAt, hread]
      simp only [fetchNextRecord, Disk.fails_sound, Bool.false_eq_true, if_false,
        Disk.tick_sound, Disk.read_sound, hread, hover, hlen]
      cases wantRow with
      | false => rfl
      | true =>
          have hdata : readAt file (cursor * db.rowSize + stoKeySize) db.dataSize =
              (rowAt db file cursor).data := rfl
          have hfill : writeAt row 0 (rowAt db file cursor).data =
              (rowAt db file cursor).data :=
            writeAt_zero_of_length_le (by rw [hdataLen]; exact Nat.le_of_eq (hrow rfl))
          simp only [fetchData, Disk.read_sound, if_true, hdata, hdataLen, hfill]
          rfl

/-- Behind the last row the scan ends. -/
theorem fetchNextRecord_end {file : Bytes} {n : Nat} {wantRow : Bool} {s : Scan}
    (fits : db.Fits) (h : file.length = fileLength db n)
    (ready : Ready db wantRow file n s) :
    fetchNextRecord db wantRow s = (0, afterEnd db wantRow file s.row n) := by
  obtain ⟨disk, pos, cursor, key, row⟩ := s
  obtain ⟨rfl, rfl, hkey, hrow⟩ := ready
  have hread : readAt file (cursor * db.rowSize) stoKeySize = [] :=
    readAt_of_length_le _ (by rw [h]; exact fileLength_le fits cursor)
  simp only [fetchNextRecord, Disk.fails_sound, Bool.false_eq_true, if_false,
    Disk.tick_sound, Disk.read_sound, hread]
  rfl

theorem ready_afterRow {file row : Bytes} {n i : Nat} {wantRow : Bool}
    (h : file.length = fileLength db n) (hi : i < n) :
    Ready db wantRow file (i + 1) (afterRow db wantRow file row i) where
  disk := rfl
  cursor := rfl
  key := length_key_rowAt h hi
  row := by
    intro hwant
    simp only [afterRow, hwant, if_true]
    exact length_data_rowAt h hi

theorem ready_afterEnd (db : StoDatabase) (wantRow : Bool) (file row : Bytes) (n : Nat) :
    Ready db wantRow file n (afterEnd db wantRow file row n) where
  disk := rfl
  cursor := rfl
  key := length_zeros _
  row := by
    intro hwant
    simp [afterEnd, hwant]

/-! ## Searching -/

theorem scanFuel_sound (file : Bytes) : scanFuel (Disk.sound file) = file.length + 1 := rfl

/-- The search stops at the first row its test accepts. -/
theorem scanUntil_found {file : Bytes} {n i j : Nat} {wantRow : Bool}
    (stop : Scan → Bool) (fits : db.Fits) (h : file.length = fileLength db n)
    (hij : i ≤ j) (hj : j < n) (row : Bytes)
    (hskip : ∀ k, i ≤ k → k < j → stop (afterRow db wantRow file row k) = false)
    (hstop : stop (afterRow db wantRow file row j) = true) :
    ∀ (fuel : Nat) {s : Scan}, j - i < fuel → Ready db wantRow file i s →
      (wantRow = false → s.row = row) →
      scanUntil db wantRow stop fuel s =
        some (fetchCount db wantRow, afterRow db wantRow file row j) := by
  intro fuel
  induction fuel generalizing i with
  | zero => intro s hfuel; omega
  | succ fuel ih =>
      intro s hfuel ready hbuffer
      have hsame : afterRow db wantRow file s.row i = afterRow db wantRow file row i := by
        cases wantRow with
        | true => rfl
        | false => rw [hbuffer rfl]
      rw [scanUntil, fetchNextRecord_row h (by omega) ready, hsame]
      simp only [fetchCount_ne_zero fits, fetchCount_ne_neg_one fits, if_false]
      by_cases heq : i = j
      · subst heq
        rw [hstop, if_pos rfl]
      · rw [hskip i (Nat.le_refl i) (by omega)]
        exact ih (by omega) (fun k hk hkj => hskip k (by omega) hkj) (by omega)
          (ready_afterRow h (by omega))
          (fun hwant => by simp [afterRow, hwant])

/-- A search that accepts no row runs to the end of the file. -/
theorem scanUntil_end {file : Bytes} {n i : Nat} {wantRow : Bool}
    (stop : Scan → Bool) (fits : db.Fits) (h : file.length = fileLength db n)
    (hin : i ≤ n) (row : Bytes)
    (hskip : ∀ k, i ≤ k → k < n → stop (afterRow db wantRow file row k) = false) :
    ∀ (fuel : Nat) {s : Scan}, n - i < fuel → Ready db wantRow file i s →
      (wantRow = false → s.row = row) →
      scanUntil db wantRow stop fuel s =
        some (0, afterEnd db wantRow file row n) := by
  intro fuel
  induction fuel generalizing i with
  | zero => intro s hfuel; omega
  | succ fuel ih =>
      intro s hfuel ready hbuffer
      unfold scanUntil
      by_cases heq : i = n
      · subst heq
        have hsame : afterEnd db wantRow file s.row i = afterEnd db wantRow file row i := by
          cases wantRow with
          | true => rfl
          | false => rw [hbuffer rfl]
        rw [fetchNextRecord_end fits h ready, hsame]
        rfl
      · have hsame :
            afterRow db wantRow file s.row i = afterRow db wantRow file row i := by
          cases wantRow with
          | true => rfl
          | false => rw [hbuffer rfl]
        rw [fetchNextRecord_row h (by omega) ready, hsame]
        simp only [fetchCount_ne_zero fits, fetchCount_ne_neg_one fits, if_false]
        rw [hskip i (Nat.le_refl i) (by omega)]
        exact ih (by omega) (fun k hk hkn => hskip k (by omega) hkn) (by omega)
          (ready_afterRow h (by omega))
          (fun hwant => by simp [afterRow, hwant])

/-! ## Getting a row -/

theorem getElem?_append_length {α : Type} (before : List α) (row : α) (after : List α) :
    (before ++ row :: after)[before.length]? = some row := by
  simp

/-- `sto_get` returns the next row the filter accepts. -/
theorem stoGet_found {file : Bytes} (filter : StoFilter) {n i : Nat} {s : Scan}
    {before after : List Row} {row : Row} (fits : db.Fits)
    (h : file.length = fileLength db n) (ready : Ready db true file i s)
    (hrows : (rowsOf db file).drop i = before ++ row :: after)
    (hbefore : ∀ other ∈ before, filter other.data other.key = false)
    (hrow : filter row.data row.key = true) :
    stoGet db filter s =
        (Int32.ofNat db.dataSize, afterRow db true file s.row (i + before.length)) ∧
      rowAt db file (i + before.length) = row ∧ i + before.length < n := by
  have hget : ∀ k, (before ++ row :: after)[k]? =
      if i + k < n then some (rowAt db file (i + k)) else none := by
    intro k
    rw [← hrows, List.getElem?_drop, getElem?_rowsOf fits h]
  have hn : i + before.length < n := by
    by_contra hge
    have := hget before.length
    rw [getElem?_append_length, if_neg hge] at this
    exact absurd this (by simp)
  have hat : rowAt db file (i + before.length) = row := by
    have := hget before.length
    rw [getElem?_append_length, if_pos hn] at this
    exact (Option.some.inj this).symm
  have hfuel := le_length_of_fileLength fits h
  have hscan := scanUntil_found (fun s => filter s.row s.key) fits h
    (Nat.le_add_right i before.length) hn s.row
    (by
      intro k hk hkj
      have := hget (k - i)
      rw [List.getElem?_append_left (by omega), if_pos (by omega),
        Nat.add_sub_cancel' hk] at this
      exact hbefore _ (List.mem_of_getElem? this))
    (by simp only [afterRow, hat, if_true]; exact hrow)
    (scanFuel s.disk) (by rw [ready.disk, scanFuel_sound]; omega) ready
    (fun _ => rfl)
  refine ⟨?_, hat, hn⟩
  rw [stoGet, hscan, Option.getD_some]
  rfl

/-- `sto_get` returns 0 when no row is left that the filter accepts. -/
theorem stoGet_end {file : Bytes} (filter : StoFilter) {n i : Nat} {s : Scan}
    (fits : db.Fits) (h : file.length = fileLength db n) (hin : i ≤ n)
    (ready : Ready db true file i s)
    (hnone : ∀ row ∈ (rowsOf db file).drop i, filter row.data row.key = false) :
    stoGet db filter s = (0, afterEnd db true file s.row n) := by
  have hfuel := le_length_of_fileLength fits h
  have hscan := scanUntil_end (fun s => filter s.row s.key) fits h hin s.row
    (by
      intro k hk hkn
      apply hnone (rowAt db file k)
      apply List.mem_of_getElem? (i := k - i)
      rw [List.getElem?_drop, Nat.add_sub_cancel' hk, getElem?_rowsOf fits h, if_pos hkn])
    (scanFuel s.disk) (by rw [ready.disk, scanFuel_sound]; omega) ready
    (fun _ => rfl)
  rw [stoGet, hscan, Option.getD_some]

/-- `n` calls of `sto_get` on one cursor: what each returns and leaves in the
key and row buffers. -/
def stoGets (db : StoDatabase) (filter : StoFilter) : Nat → Scan → List (Int32 × Row)
  | 0, _ => []
  | n + 1, s =>
      let (res, s) := stoGet db filter s
      (res, { key := s.key, data := s.row }) :: stoGets db filter n s

/-- What a successful `sto_get` gives the caller. -/
def hit (db : StoDatabase) (row : Row) : Int32 × Row := (Int32.ofNat db.dataSize, row)

/-- What `sto_get` gives the caller behind the last row. -/
def miss (db : StoDatabase) : Int32 × Row :=
  (0, { key := zeros stoKeySize, data := zeros db.dataSize })

/-- Behind the last row every call returns 0. -/
theorem stoGets_end {file : Bytes} {filter : StoFilter} {n : Nat} (fits : db.Fits)
    (h : file.length = fileLength db n) :
    ∀ {calls i : Nat} {s : Scan}, i ≤ n → Ready db true file i s →
      (∀ row ∈ (rowsOf db file).drop i, filter row.data row.key = false) →
      stoGets db filter calls s = List.replicate calls (miss db) := by
  intro calls
  induction calls with
  | zero => intro i s _ _ _; rfl
  | succ calls ih =>
      intro i s hin ready hnone
      have hdrop : (rowsOf db file).drop n = [] :=
        List.drop_eq_nil_of_le (Nat.le_of_eq (length_rowsOf fits h))
      have hrest := ih (Nat.le_refl n) (ready_afterEnd db true file s.row n)
        (by rw [hdrop]; simp)
      rw [stoGets, stoGet_end filter fits h hin ready hnone, List.replicate_succ]
      simp only
      rw [hrest]
      rfl

/-- Repeated `sto_get` returns the rows ahead of the cursor that the filter
accepts, in order, and then 0. -/
theorem stoGets_eq {file : Bytes} {filter : StoFilter} {n : Nat} (fits : db.Fits)
    (h : file.length = fileLength db n) (extra : Nat) :
    ∀ {accepted : List Row} {i : Nat} {s : Scan}, i ≤ n → Ready db true file i s →
      ((rowsOf db file).drop i).filter (fun row => filter row.data row.key) = accepted →
      stoGets db filter (accepted.length + extra) s =
        accepted.map (hit db) ++ List.replicate extra (miss db) := by
  intro accepted
  induction accepted with
  | nil =>
      intro i s hin ready haccepted
      rw [List.filter_eq_nil_iff] at haccepted
      rw [List.length_nil, Nat.zero_add, List.map_nil, List.nil_append]
      exact stoGets_end fits h hin ready fun row hmem => by simpa using haccepted row hmem
  | cons head rest ih =>
      intro i s hin ready haccepted
      rcases forall_not_or_first (fun row : Row => filter row.data row.key)
          ((rowsOf db file).drop i) with hnone | ⟨before, row, after, hrows, hbefore, hrow⟩
      · have hnil : ((rowsOf db file).drop i).filter
            (fun row => filter row.data row.key) = [] := by
          rw [List.filter_eq_nil_iff]
          intro row hmem
          simp [hnone row hmem]
        rw [hnil] at haccepted
        exact absurd haccepted (by simp)
      · have hskip : before.filter (fun row => filter row.data row.key) = [] := by
          rw [List.filter_eq_nil_iff]
          intro other hmem
          simp [hbefore other hmem]
        rw [hrows, List.filter_append, hskip, List.nil_append,
          List.filter_cons_of_pos (by exact hrow)] at haccepted
        obtain ⟨rfl, hafter⟩ := List.cons.inj haccepted
        obtain ⟨hgot, hat, hlt⟩ := stoGet_found filter fits h ready hrows hbefore hrow
        have hdrop : (rowsOf db file).drop (i + before.length + 1) = after := by
          rw [Nat.add_assoc, ← List.drop_drop, hrows, List.drop_append]
          simp
        have hrest := ih (by omega) (ready_afterRow h hlt) (by rw [hdrop]; exact hafter)
          (s := afterRow db true file s.row (i + before.length))
        have hsucc : (row :: rest).length + extra = rest.length + extra + 1 := by
          rw [List.length_cons]; omega
        rw [hsucc, stoGets, hgot, List.map_cons, List.cons_append]
        simp only
        rw [hrest]
        simp only [afterRow, hat, if_true, hit]

/-! ## Setting a row -/

/-- The rows after `sto_set`: the first row whose key matches gets the data, a
key that no row matches gets a new row. -/
def setRows (row key : Bytes) (rows : List Row) : List Row :=
  let keyLen := strnlen key stoKeySize
  upsert (fun stored => keyMatches key keyLen stored.key)
    (fun stored => { stored with data := row })
    { key := strncpy (zeros stoKeySize) key keyLen, data := row } rows

theorem length_strncpy_key (key : Bytes) :
    (strncpy (zeros stoKeySize) key (strnlen key stoKeySize)).length = stoKeySize := by
  have hle := strnlen_le key stoKeySize
  have hpart := strnlen_le key (strnlen key stoKeySize)
  rw [strncpy, length_writeAt, List.length_append, length_zeros, length_zeros,
    List.length_take]
  omega

theorem ready_open (db : StoDatabase) (wantRow : Bool) (file : Bytes) {key row : Bytes}
    (hkey : key.length = stoKeySize) (hrow : wantRow = true → row.length = db.dataSize) :
    Ready db wantRow file 0 (Scan.open (Disk.sound file) key row) where
  disk := rfl
  cursor := rfl
  key := hkey
  row := hrow

/-- `sto_set` on a disk whose file can be opened. -/
theorem stoSet_of_open {row key : Bytes} {disk : Disk} (hopen : disk.fails = false) {res : Int32}
    {q : Scan} (hscan : scanUntil db false (fun s => keyMatches key (strnlen key stoKeySize) s.key)
      (scanFuel disk.tick) (Scan.open disk.tick (zeros stoKeySize) []) = some (res, q)) :
    stoSet db row key disk =
      if res = -1 then (-1, q.disk) else stoSetWrite row key (strnlen key stoKeySize) q := by
  have hquery : stoQuery disk (zeros stoKeySize) [] =
      (some (Scan.open disk.tick (zeros stoKeySize) []), disk.tick) := by
    rw [stoQuery, hopen]
    rfl
  have hfuel : (Scan.open disk.tick (zeros stoKeySize) []).disk = disk.tick := rfl
  unfold stoSet
  rw [hquery]
  dsimp only
  rw [hfuel, hscan, Option.getD_some]

/-- `sto_set` writes where its search stopped. -/
theorem stoSet_of_scan {file row key : Bytes} {res : Int32} {q : Scan}
    (hscan : scanUntil db false (fun s => keyMatches key (strnlen key stoKeySize) s.key)
      (file.length + 1) (Scan.open (Disk.sound file) (zeros stoKeySize) []) = some (res, q))
    (hres : res ≠ -1) :
    stoSet db row key (Disk.sound file) =
      stoSetWrite row key (strnlen key stoKeySize) q := by
  rw [← scanFuel_sound] at hscan
  exact (stoSet_of_open rfl hscan).trans (if_neg hres)

/-- No row matches: the key and the data go behind the last row. -/
theorem stoSet_append {file row : Bytes} (key : Bytes) (fits : db.Fits) (whole : Whole db file)
    (hrow : row.length = db.dataSize)
    (hnone : ∀ stored ∈ rowsOf db file,
      keyMatches key (strnlen key stoKeySize) stored.key = false) :
    ∃ file', stoSet db row key (Disk.sound file) =
        (Int32.ofNat db.dataSize, Disk.sound file') ∧
      Whole db file' ∧ rowsOf db file' = setRows row key (rowsOf db file) := by
  obtain ⟨n, h⟩ := whole
  have hfuel := le_length_of_fileLength fits h
  have ready : Ready db false file 0 (Scan.open (Disk.sound file) (zeros stoKeySize) []) :=
    ready_open db false file (length_zeros stoKeySize) (by simp)
  have hscan := scanUntil_end (fun s => keyMatches key (strnlen key stoKeySize) s.key)
    fits h (Nat.zero_le n) []
    (by
      intro k _ hk
      apply hnone (rowAt db file k)
      apply List.mem_of_getElem? (i := k)
      rw [getElem?_rowsOf fits h, if_pos hk])
    (file.length + 1) (by omega) ready (fun _ => rfl)
  have hkeyLen := length_strncpy_key key
  refine ⟨writeAt file (n * db.rowSize)
    (strncpy (zeros stoKeySize) key (strnlen key stoKeySize) ++ row), ?_,
    ⟨n + 1, length_writeAt_end fits h hkeyLen hrow⟩, ?_⟩
  · rw [stoSet_of_scan hscan (by decide)]
    have hwritten : ¬ Int32.ofNat stoKeySize = -1 := by decide
    have hzero : stoKeyEmpty (zeros stoKeySize) = true := by simp [stoKeyEmpty]
    simp only [stoSetWrite, afterEnd, hzero, if_true, Disk.write_sound, hkeyLen,
      hwritten, if_false, hrow]
    have happend := writeAt_writeAt_append file (n * db.rowSize)
      (strncpy (zeros stoKeySize) key (strnlen key stoKeySize)) row
    rw [hkeyLen] at happend
    rw [happend]
  · rw [rowsOf_writeAt_end fits h hkeyLen hrow, setRows, upsert_of_forall_not hnone]

/-- The first row that matches gets the data and keeps its key. -/
theorem stoSet_overwrite {file row : Bytes} (key : Bytes) {before after : List Row}
    {stored : Row} (fits : db.Fits) (whole : Whole db file) (hrow : row.length = db.dataSize)
    (hrows : rowsOf db file = before ++ stored :: after)
    (hbefore : ∀ other ∈ before,
      keyMatches key (strnlen key stoKeySize) other.key = false)
    (hstored : keyMatches key (strnlen key stoKeySize) stored.key = true)
    (hfull : stoKeyEmpty stored.key = false) :
    ∃ file', stoSet db row key (Disk.sound file) =
        (Int32.ofNat db.dataSize, Disk.sound file') ∧
      Whole db file' ∧ rowsOf db file' = setRows row key (rowsOf db file) := by
  obtain ⟨n, h⟩ := whole
  have hfuel := le_length_of_fileLength fits h
  have ready : Ready db false file 0 (Scan.open (Disk.sound file) (zeros stoKeySize) []) :=
    ready_open db false file (length_zeros stoKeySize) (by simp)
  have hn : before.length < n := by
    have := length_rowsOf fits h
    rw [hrows, List.length_append, List.length_cons] at this
    omega
  have hget : ∀ k, k < n → (before ++ stored :: after)[k]? = some (rowAt db file k) := by
    intro k hk
    rw [← hrows, getElem?_rowsOf fits h, if_pos hk]
  have hat : rowAt db file before.length = stored := by
    have := hget before.length hn
    simpa using this.symm
  have hscan := scanUntil_found
    (fun s => keyMatches key (strnlen key stoKeySize) s.key)
    fits h (Nat.zero_le before.length) hn []
    (by
      intro k _ hk
      apply hbefore (rowAt db file k)
      apply List.mem_of_getElem? (i := k)
      have := hget k (by omega)
      rwa [List.getElem?_append_left hk] at this)
    (by rw [afterRow, hat]; exact hstored)
    (file.length + 1) (by omega) ready (fun _ => rfl)
  refine ⟨writeAt file (before.length * db.rowSize + stoKeySize) row, ?_,
    ⟨n, length_writeAt_data h hrow hn⟩, ?_⟩
  · rw [stoSet_of_scan hscan (fetchCount_ne_neg_one fits false)]
    simp only [stoSetWrite, afterRow, hat, hfull, Bool.false_eq_true, if_false,
      Nat.add_zero, Disk.write_sound, hrow]
  · rw [rowsOf_writeAt_data fits h hrow hrows, hrows, setRows,
      upsert_append_cons hbefore hstored]

/-- `sto_set` is `upsert` if the first row that matches, where there is one, has a key:
a row without one is taken for the end of the file. -/
theorem stoSet_of_first {file row : Bytes} (key : Bytes) (fits : db.Fits)
    (whole : Whole db file) (hrow : row.length = db.dataSize)
    (hfirst : ∀ before stored after, rowsOf db file = before ++ stored :: after →
      (∀ other ∈ before, keyMatches key (strnlen key stoKeySize) other.key = false) →
        keyMatches key (strnlen key stoKeySize) stored.key = true →
          stoKeyEmpty stored.key = false) :
    ∃ file', stoSet db row key (Disk.sound file) =
        (Int32.ofNat db.dataSize, Disk.sound file') ∧
      Whole db file' ∧ rowsOf db file' = setRows row key (rowsOf db file) := by
  rcases forall_not_or_first
      (fun stored : Row => keyMatches key (strnlen key stoKeySize) stored.key)
      (rowsOf db file) with hnone | ⟨before, stored, after, hrows, hbefore, hstored⟩
  · exact stoSet_append key fits whole hrow hnone
  · exact stoSet_overwrite key fits whole hrow hrows hbefore hstored
      (hfirst before stored after hrows hbefore hstored)

/-- **`sto_set` is `upsert`.**  Rows with an empty key are excluded where the
key matches: `sto_set` takes such a row for the end of the file. -/
theorem stoSet_sound {file row : Bytes} (key : Bytes) (fits : db.Fits) (whole : Whole db file)
    (hrow : row.length = db.dataSize)
    (hempty : ∀ stored ∈ rowsOf db file,
      keyMatches key (strnlen key stoKeySize) stored.key = true →
        stoKeyEmpty stored.key = false) :
    ∃ file', stoSet db row key (Disk.sound file) =
        (Int32.ofNat db.dataSize, Disk.sound file') ∧
      Whole db file' ∧ rowsOf db file' = setRows row key (rowsOf db file) := by
  apply stoSet_of_first key fits whole hrow
  intro before stored after hrows _ hstored
  exact hempty stored (by rw [hrows]; simp) hstored

end AirTraffic.Storage
