/-
  Storage/Steps.lean --- `sto_set` and a scan, one access of the file at a time.

  WHAT THIS FILE IS FOR.  `Sto.lean` gives `sto_set` and `sto_get` as functions of
  the disk.  When several processes use the file, what a process has read so far
  and what it is about to write have to be told apart from the file itself.  A
  `SetRun` is a `sto_set` on its way: `access` is its next access, and `rest`
  what the call does when it goes on alone.  An access leaves `rest` as it is
  (`rest_access`), and at the start `rest` is `sto_set` (`rest_start`).  A
  `ScanRun` is the same for a caller that gets all rows.
-/
import AirTraffic.Storage.Lookup

set_option autoImplicit false

namespace AirTraffic.Storage

open AirTraffic.Foundation

/-! ## Readers -/

/-- `struct sto_cursor` and the buffers of its caller, without the file. -/
structure Reader where
  pos : Nat
  cursor : Nat
  key : Bytes
  row : Bytes
  deriving DecidableEq, Repr

/-- The reader goes on with this file. -/
def Reader.on (file : Bytes) (r : Reader) : Scan :=
  { disk := .sound file, pos := r.pos, cursor := r.cursor, key := r.key, row := r.row }

/-- What a scan is without its disk. -/
def Scan.reader (s : Scan) : Reader :=
  { pos := s.pos, cursor := s.cursor, key := s.key, row := s.row }

/-- The cursor of `sto_query`. -/
def Reader.open (key row : Bytes) : Reader := { pos := 0, cursor := 0, key := key, row := row }

variable {db : StoDatabase}

theorem Scan.eq_on {s : Scan} {file : Bytes} (h : s.disk = .sound file) :
    s = s.reader.on file := by
  obtain ⟨disk, pos, cursor, key, row⟩ := s
  cases h
  rfl

theorem Reader.on_open (file key row : Bytes) :
    (Reader.open key row).on file = Scan.open (.sound file) key row := rfl

/-- A fetch changes no byte of the file. -/
theorem disk_fetchNextRecord {s : Scan} {file : Bytes} (wantRow : Bool)
    (h : s.disk = .sound file) : (fetchNextRecord db wantRow s).2.disk = .sound file := by
  have hdata : ∀ (bytesRead : Int32) (t : Scan), t.disk = .sound file →
      (fetchData db wantRow bytesRead t).2.disk = .sound file := by
    intro bytesRead t ht
    unfold fetchData
    split
    · rw [ht]
      rfl
    · exact ht
  unfold fetchNextRecord
  rw [h]
  simp only [Disk.fails_sound, Bool.false_eq_true, if_false, Disk.tick_sound, Disk.read_sound]
  cases readAt file (s.cursor * db.rowSize) stoKeySize with
  | nil => rfl
  | cons c rest => exact hdata _ _ rfl

/-- `_fetch_next_record` on this file. -/
def fetch (db : StoDatabase) (wantRow : Bool) (file : Bytes) (r : Reader) : Int32 × Reader :=
  ((fetchNextRecord db wantRow (r.on file)).1, (fetchNextRecord db wantRow (r.on file)).2.reader)

theorem fetchNextRecord_on (wantRow : Bool) (file : Bytes) (r : Reader) :
    fetchNextRecord db wantRow (r.on file) =
      ((fetch db wantRow file r).1, (fetch db wantRow file r).2.on file) :=
  Prod.ext rfl (Scan.eq_on (disk_fetchNextRecord wantRow rfl))

/-- Behind the end of the file there is nothing to fetch. -/
theorem fetch_behind {file : Bytes} {r : Reader} (wantRow : Bool)
    (h : file.length ≤ r.cursor * db.rowSize) : (fetch db wantRow file r).1 = 0 := by
  have hread : readAt file (r.cursor * db.rowSize) stoKeySize = [] := readAt_of_length_le _ h
  simp only [fetch, fetchNextRecord, Reader.on, Disk.fails_sound, Bool.false_eq_true, if_false,
    Disk.tick_sound, Disk.read_sound, hread]

/-! ## Searching -/

/-- A search that ended needs no more rounds. -/
theorem scanUntil_succ {wantRow : Bool} {stop : Scan → Bool} :
    ∀ {fuel : Nat} {s : Scan} {found : Int32 × Scan},
      scanUntil db wantRow stop fuel s = some found →
      scanUntil db wantRow stop (fuel + 1) s = some found := by
  intro fuel
  induction fuel with
  | zero =>
      intro s found h
      exact absurd h (by simp [scanUntil])
  | succ fuel ih =>
      intro s found h
      rw [scanUntil] at h ⊢
      dsimp only at h ⊢
      split at h
      · rwa [if_pos ‹_›]
      · rw [if_neg ‹_›]
        split at h
        · rwa [if_pos ‹_›]
        · rw [if_neg ‹_›]
          split at h
          · rwa [if_pos ‹_›]
          · rw [if_neg ‹_›]
            exact ih h

theorem disk_scanUntil {wantRow : Bool} {stop : Scan → Bool} {file : Bytes} :
    ∀ {fuel : Nat} {s : Scan} {found : Int32 × Scan}, s.disk = .sound file →
      scanUntil db wantRow stop fuel s = some found → found.2.disk = .sound file := by
  intro fuel
  induction fuel with
  | zero =>
      intro s found _ h
      exact absurd h (by simp [scanUntil])
  | succ fuel ih =>
      intro s found hdisk h
      have hfetch : (fetchNextRecord db wantRow s).2.disk = .sound file :=
        disk_fetchNextRecord wantRow hdisk
      rw [scanUntil] at h
      dsimp only at h
      split at h
      · exact Option.some.inj h ▸ hfetch
      · split at h
        · exact Option.some.inj h ▸ hfetch
        · split at h
          · exact Option.some.inj h ▸ hfetch
          · exact ih hfetch h

/-- The search of `sto_set` from where a reader is, with rounds enough. -/
def search (db : StoDatabase) (key file : Bytes) (r : Reader) : Int32 × Scan :=
  (scanUntil db false (fun s => keyMatches key (strnlen key stoKeySize) s.key)
    (scanFuel (.sound file)) (r.on file)).getD (-1, r.on file)

/-- The search goes on with what a fetch left. -/
theorem search_eq (hrow : 0 < db.rowSize) (key file : Bytes) (r : Reader) :
    search db key file r =
      let (res, next) := fetch db false file r
      if res = 0 then (0, next.on file)
      else if res = -1 then (-1, next.on file)
      else if keyMatches key (strnlen key stoKeySize) next.key then (res, next.on file)
      else search db key file next := by
  have hfetch := @fetchNextRecord_on db false file r
  have hlt := remaining_fetchNextRecord_lt hrow false (r.on file)
  rw [hfetch] at hlt
  have hfuel : scanFuel (.sound file) = file.length + 1 := rfl
  rw [search, hfuel, scanUntil, hfetch]
  dsimp only
  split
  · rfl
  · split
    · rfl
    · rename_i hzero hfail
      have hkey : ((fetch db false file r).2.on file).key = (fetch db false file r).2.key := rfl
      rw [hkey]
      split
      · rfl
      · have hless : ((fetch db false file r).2.on file).remaining db < file.length := by
          refine Nat.lt_of_lt_of_le (hlt hzero hfail) ?_
          simp only [Scan.remaining, Reader.on, List.length_nil]
          omega
        obtain ⟨found, hfound⟩ := Option.isSome_iff_exists.mp (scanUntil_isSome hrow false
          (fun s => keyMatches key (strnlen key stoKeySize) s.key) hless)
        rw [search, hfuel, scanUntil_succ hfound, hfound]
        rfl

/-! ## `sto_set` -/

/-- What a `sto_set` does next. -/
inductive SetStage where
  /-- It fetches the key of a row. -/
  | search (r : Reader)
  /-- It writes its key. -/
  | writeKey (pos : Nat)
  /-- It writes its row. -/
  | writeRow (pos : Nat)
  /-- It has its result, and closes the file. -/
  | wrote (res : Int32)
  deriving DecidableEq, Repr

/-- A `sto_set` on its way. -/
structure SetRun where
  row : Bytes
  key : Bytes
  stage : SetStage
  deriving DecidableEq, Repr

namespace SetRun

/-- Behind `sto_query`. -/
def start (row key : Bytes) : SetRun :=
  { row := row, key := key, stage := .search (Reader.open (zeros stoKeySize) []) }

def keyLen (c : SetRun) : Nat := strnlen c.key stoKeySize

/-- The search has stopped. -/
def found (r : Reader) : SetStage := if stoKeyEmpty r.key then .writeKey r.pos else .writeRow r.pos

/-- The next access of the file. -/
def access (db : StoDatabase) (c : SetRun) (file : Bytes) : SetRun × Bytes :=
  match c.stage with
  | .search r =>
      let (res, next) := fetch db false file r
      ({ c with
          stage :=
            if res = 0 then found next
            else if res = -1 then .wrote (-1)
            else if keyMatches c.key c.keyLen next.key then found next
            else .search next },
        file)
  | .writeKey pos =>
      ({ c with stage := .writeRow (pos + stoKeySize) },
        writeAt file pos (strncpy (zeros stoKeySize) c.key c.keyLen))
  | .writeRow pos =>
      ({ c with stage := .wrote (Int32.ofNat c.row.length) }, writeAt file pos c.row)
  | .wrote _ => (c, file)

/-- So many accesses, one after the other. -/
def accesses (db : StoDatabase) : Nat → SetRun → Bytes → SetRun × Bytes
  | 0, c, file => (c, file)
  | n + 1, c, file => accesses db n (c.access db file).1 (c.access db file).2

@[simp]
theorem row_access (c : SetRun) (file : Bytes) : (c.access db file).1.row = c.row := by
  unfold access
  split <;> rfl

@[simp]
theorem key_access (c : SetRun) (file : Bytes) : (c.access db file).1.key = c.key := by
  unfold access
  split <;> rfl

/-- The result of the call, and the file, when it goes on alone. -/
def rest (db : StoDatabase) (c : SetRun) (file : Bytes) : Int32 × Bytes :=
  match c.stage with
  | .search r =>
      let (res, q) := search db c.key file r
      if res = -1 then (-1, file)
      else
        let (res, disk) := stoSetWrite c.row c.key c.keyLen q
        (res, disk.file)
  | .writeKey pos =>
      (Int32.ofNat c.row.length,
        writeAt (writeAt file pos (strncpy (zeros stoKeySize) c.key c.keyLen))
          (pos + stoKeySize) c.row)
  | .writeRow pos => (Int32.ofNat c.row.length, writeAt file pos c.row)
  | .wrote res => (res, file)

/-- The writes of a call whose search has stopped. -/
theorem rest_found (c : SetRun) (file : Bytes) (r : Reader) :
    { c with stage := found r }.rest db file =
      ((stoSetWrite c.row c.key c.keyLen (r.on file)).1,
        (stoSetWrite c.row c.key c.keyLen (r.on file)).2.file) := by
  have hlength : (strncpy (zeros stoKeySize) c.key c.keyLen).length = stoKeySize :=
    length_strncpy_key c.key
  have hkeySize : ¬ Int32.ofNat stoKeySize = -1 := by decide
  have hwrites : stoSetWrite c.row c.key c.keyLen (r.on file) =
      if stoKeyEmpty r.key then
        (Int32.ofNat c.row.length, .sound (writeAt (writeAt file r.pos
          (strncpy (zeros stoKeySize) c.key c.keyLen)) (r.pos + stoKeySize) c.row))
      else (Int32.ofNat c.row.length, .sound (writeAt file r.pos c.row)) := by
    simp only [stoSetWrite, Reader.on, Disk.write_sound, hlength, hkeySize, if_false]
  rw [hwrites, found]
  split <;> rfl

/-- An access leaves what the call does as it is. -/
theorem rest_access (hrow : 0 < db.rowSize) (c : SetRun) (file : Bytes) :
    (c.access db file).1.rest db (c.access db file).2 = c.rest db file := by
  cases hstage : c.stage with
  | search r =>
      have hminus : ¬ (0 : Int32) = -1 := by decide
      simp only [access, rest, hstage]
      rw [search_eq hrow]
      by_cases hzero : (fetch db false file r).1 = 0
      · simp only [if_pos hzero, if_neg hminus]
        exact rest_found c file _
      · by_cases hfail : (fetch db false file r).1 = -1
        · simp only [if_neg hzero, if_pos hfail, if_true]
        · by_cases hkey : keyMatches c.key c.keyLen (fetch db false file r).2.key = true
          · have hkey' := hkey
            rw [keyLen] at hkey'
            simp only [if_neg hzero, if_neg hfail, if_pos hkey, if_pos hkey']
            exact rest_found c file _
          · have hkey' := hkey
            rw [keyLen] at hkey'
            simp only [if_neg hzero, if_neg hfail, if_neg hkey, if_neg hkey']
            rfl
  | writeKey pos => simp only [access, rest, hstage, keyLen]
  | writeRow pos => simp only [access, rest, hstage]
  | wrote res => simp only [access, rest, hstage]

/-- At the start this is `sto_set`. -/
theorem rest_start (hrow : 0 < db.rowSize) (row key file : Bytes) :
    (start row key).rest db file =
      ((stoSet db row key (.sound file)).1, (stoSet db row key (.sound file)).2.file) := by
  obtain ⟨res, q, hscan, _⟩ := stoSet_sound_cases hrow row key file
  have hdisk : q.disk = .sound file := disk_scanUntil rfl hscan
  have hsearch : search db key file (Reader.open (zeros stoKeySize) []) = (res, q) := by
    rw [search, Reader.on_open, hscan]
    rfl
  rw [stoSet_of_open rfl hscan]
  simp only [start, rest, keyLen, hsearch]
  split
  · rw [hdisk]
  · rfl

end SetRun

/-! ## A scan -/

/-- All rows that `sto_get` returns, from here to the end of the file. -/
inductive Gets (db : StoDatabase) : Scan → List Row → Prop
  | stop {s t : Scan} (get : stoGet db noopCmp s = (0, t)) : Gets db s []
  | row {s t : Scan} {res : Int32} {rows : List Row} (get : stoGet db noopCmp s = (res, t))
      (hzero : res ≠ 0) (hfail : res ≠ -1) (rest : Gets db t rows) :
      Gets db s ({ key := t.key, data := t.row } :: rows)

/-- A caller that gets all rows, on its way.  `buffer` is what its row held at the
start, and `whole` says that it has kept its lock. -/
structure ScanRun where
  buffer : Bytes
  got : List Row
  reader : Reader
  whole : Bool
  deriving DecidableEq, Repr

/-- `sto_get` without a filter is one fetch. -/
theorem stoGet_noop (file : Bytes) (r : Reader) :
    stoGet db noopCmp (r.on file) =
      ((fetch db true file r).1, (fetch db true file r).2.on file) := by
  have hfuel : scanFuel (.sound file) = file.length + 1 := rfl
  have hdisk : (r.on file).disk = .sound file := rfl
  rw [stoGet, hdisk, hfuel, scanUntil, fetchNextRecord_on]
  simp only [noopCmp, if_true]
  split
  · rename_i hzero
    rw [hzero]
    rfl
  · split
    · rename_i hfail
      rw [hfail]
      rfl
    · rfl

namespace ScanRun

/-- Behind `sto_query`. -/
def start (buffer : Bytes) : ScanRun :=
  { buffer := buffer, got := [], reader := Reader.open (zeros stoKeySize) buffer, whole := true }

/-- `sto_get` returns a row. -/
def took (c : ScanRun) (next : Reader) : ScanRun :=
  { c with got := c.got ++ [{ key := next.key, data := next.row }], reader := next }

/-- The rows of a scan that has this file for itself. -/
def AllRows (db : StoDatabase) (buffer file : Bytes) (rows : List Row) : Prop :=
  Gets db (Scan.open (.sound file) (zeros stoKeySize) buffer) rows

/-- With the rows that are still to come, the caller has got all rows of the file. -/
def Continues (db : StoDatabase) (c : ScanRun) (file : Bytes) : Prop :=
  ∀ rows, Gets db (c.reader.on file) rows → AllRows db c.buffer file (c.got ++ rows)

theorem continues_start (db : StoDatabase) (buffer file : Bytes) :
    (start buffer).Continues db file := fun _ h => h

theorem Continues.took {c : ScanRun} {file : Bytes} (h : c.Continues db file)
    (hzero : (fetch db true file c.reader).1 ≠ 0) (hfail : (fetch db true file c.reader).1 ≠ -1) :
    (c.took (fetch db true file c.reader).2).Continues db file := by
  intro rows hrows
  have hmore := h _ (.row (stoGet_noop file c.reader) hzero hfail hrows)
  rw [ScanRun.took, List.append_assoc]
  exact hmore

theorem Continues.stop {c : ScanRun} {file : Bytes} (h : c.Continues db file)
    (hzero : (fetch db true file c.reader).1 = 0) : AllRows db c.buffer file c.got := by
  have hstop : stoGet db noopCmp (c.reader.on file) = _ := stoGet_noop file c.reader
  rw [hzero] at hstop
  have hall := h [] (.stop hstop)
  rwa [List.append_nil] at hall

end ScanRun

end AirTraffic.Storage
