/-
  Storage/Sto.lean --- `storage.c`: rows of a fixed size in one file.

  WHAT THIS FILE IS FOR.  The translation of the store: `sto_init`, the row scan
  `_fetch_next_record`, the read `sto_get` and the write `sto_set`.  A row is a
  key of `STO_KEY_SIZE` bytes followed by the data; rows start at multiples of
  the row size.  `sto_get` and `sto_set` search the rows ahead of the cursor
  with one and the same loop, `scanUntil`.  It is given as many rounds as the
  file has bytes and pending failures, and `scanUntil_isSome` says that it never
  runs out of them.

  The lock calls change no byte of the file and their results are ignored by
  these functions, so they do not occur here; a stack buffer that a call
  declares without initialising it starts as zeros.
-/
import AirTraffic.Foundation.CString
import AirTraffic.Storage.Disk

set_option autoImplicit false

namespace AirTraffic.Storage

open AirTraffic.Foundation

/-- `STO_KEY_SIZE` -/
def stoKeySize : Nat := 16

/-- `ROUND_UP(number, mask)`, in `size_t` arithmetic. -/
def roundUp (number mask : UInt64) : UInt64 :=
  (number + mask - 2) &&& ~~~(mask - 1)

/-- `struct sto_database`, without the names: there is one file. -/
structure StoDatabase where
  rowSize : Nat
  dataSize : Nat
  deriving DecidableEq, Repr

/-- `sto_init` -/
def stoInit (dataTypeSize : Nat) : Option StoDatabase :=
  if dataTypeSize = 0 then none
  else
    some
      { dataSize := dataTypeSize
        rowSize := (roundUp (UInt64.ofNat (stoKeySize + dataTypeSize)) 32).toNat }

/-! ## Scanning -/

/-- What a scan works on: the disk, the offset of the descriptor, the cursor,
and the caller's key and row buffers. -/
structure Scan where
  disk : Disk
  pos : Nat
  cursor : Nat
  key : Bytes
  row : Bytes
  deriving DecidableEq, Repr

/-- The data read of `_fetch_next_record`, made when the caller passed a row
buffer; its count replaces the one of the key read. -/
def fetchData (db : StoDatabase) (wantRow : Bool) (bytesRead : Int32) (s : Scan) :
    Int32 × Scan :=
  if wantRow then
    match s.disk.read s.pos db.dataSize with
    | (none, disk) => (-1, { s with disk := disk })
    | (some data, disk) =>
        (Int32.ofNat data.length, { s with
          disk := disk
          pos := s.pos + data.length
          row := writeAt s.row 0 data })
  else (bytesRead, s)

/-- `_fetch_next_record`.  The offset is a multiple of 32, so the `int` it is
narrowed to for the error check is -1 only when `lseek` fails. -/
def fetchNextRecord (db : StoDatabase) (wantRow : Bool) (s : Scan) : Int32 × Scan :=
  if s.disk.fails then (-1, { s with disk := s.disk.tick })
  else
    let offset := s.cursor * db.rowSize
    match s.disk.tick.read offset stoKeySize with
    | (none, disk) =>
        -- the failure goes unnoticed when a data read follows
        fetchData db wantRow (-1)
          { s with disk := disk, pos := offset, cursor := s.cursor + 1 }
    | (some [], disk) =>
        (0, { s with
          disk := disk
          pos := offset
          key := zeros stoKeySize
          row := if wantRow then zeros db.dataSize else s.row })
    | (some bytes, disk) =>
        fetchData db wantRow (Int32.ofNat bytes.length) { s with
          disk := disk
          pos := offset + bytes.length
          cursor := s.cursor + 1
          key := writeAt s.key 0 bytes }

/-- The search loop of `sto_get` and `sto_set`: fetch rows until the end of the
file (0), an error (-1) or a row at which to stop. -/
def scanUntil (db : StoDatabase) (wantRow : Bool) (stop : Scan → Bool) :
    Nat → Scan → Option (Int32 × Scan)
  | 0, _ => none
  | fuel + 1, s =>
      let (res, s) := fetchNextRecord db wantRow s
      if res = 0 then some (0, s)
      else if res = -1 then some (-1, s)
      else if stop s then some (res, s)
      else scanUntil db wantRow stop fuel s

/-- Rounds enough for any scan of the disk. -/
def scanFuel (disk : Disk) : Nat := disk.file.length + disk.faults.length + 1

/-- The cursor `sto_query` opens at the first row, with the caller's buffers. -/
def Scan.open (disk : Disk) (key row : Bytes) : Scan :=
  { disk := disk, pos := 0, cursor := 0, key := key, row := row }

/-- `sto_query`: `none` when the file cannot be opened. -/
def stoQuery (disk : Disk) (key row : Bytes) : Option Scan × Disk :=
  if disk.fails then (none, disk.tick)
  else (some (Scan.open disk.tick key row), disk.tick)

/-- `sto_filter`: decides on a row by its data and its key. -/
abbrev StoFilter : Type := Bytes → Bytes → Bool

/-- `_noop_cmp` -/
def noopCmp : StoFilter := fun _ _ => true

/-- `sto_get` -/
def stoGet (db : StoDatabase) (filter : StoFilter) (s : Scan) : Int32 × Scan :=
  (scanUntil db true (fun s => filter s.row s.key) (scanFuel s.disk) s).getD (-1, s)

/-! ## Writing -/

/-- `sto_key_empty` -/
def stoKeyEmpty (key : Bytes) : Bool := key = zeros stoKeySize

/-- The row `sto_set` stops at: the first `keyLen` bytes of its key are those of
the key it was given. -/
def keyMatches (key : Bytes) (keyLen : Nat) (stored : Bytes) : Bool :=
  strncmp stored key keyLen = 0

/-- The writes of `sto_set`, from the position the search left. -/
def stoSetWrite (row key : Bytes) (keyLen : Nat) (s : Scan) : Int32 × Disk :=
  if stoKeyEmpty s.key then
    let (written, disk) := s.disk.write s.pos (strncpy (zeros stoKeySize) key keyLen)
    if written = -1 then (-1, disk) else disk.write (s.pos + stoKeySize) row
  else s.disk.write s.pos row

/-- `sto_set`; `row` is the `data_size` bytes to store. -/
def stoSet (db : StoDatabase) (row key : Bytes) (disk : Disk) : Int32 × Disk :=
  match stoQuery disk (zeros stoKeySize) [] with
  | (none, disk) => (-1, disk)
  | (some q, _) =>
      let keyLen := strnlen key stoKeySize
      let (res, q) := (scanUntil db false (fun s => keyMatches key keyLen s.key)
        (scanFuel q.disk) q).getD (-1, q)
      if res = -1 then (-1, q.disk) else stoSetWrite row key keyLen q

/-! ## The search ends -/

/-- Bytes of the file from the cursor on, and failures still to come. -/
def Scan.remaining (db : StoDatabase) (s : Scan) : Nat :=
  s.disk.file.length - s.cursor * db.rowSize + s.disk.faults.length

theorem length_faults_tick_le (disk : Disk) :
    disk.tick.faults.length ≤ disk.faults.length := by
  simp [Disk.tick]

theorem length_faults_tick_lt {disk : Disk} (h : disk.fails = true) :
    disk.tick.faults.length < disk.faults.length := by
  cases hfaults : disk.faults with
  | nil => simp [Disk.fails, hfaults] at h
  | cons fault rest => simp [Disk.tick, hfaults]

theorem fetchData_remaining_le (db : StoDatabase) (wantRow : Bool)
    (bytesRead : Int32) (s : Scan) :
    (fetchData db wantRow bytesRead s).2.remaining db ≤ s.remaining db := by
  have htick := length_faults_tick_le s.disk
  cases wantRow with
  | false => exact Nat.le_refl _
  | true =>
      by_cases hdata : s.disk.fails = true
      · simp only [fetchData, Disk.read, hdata, if_true, Scan.remaining,
          Disk.file_tick]
        omega
      · simp only [fetchData, Disk.read, hdata, Bool.false_eq_true, if_true,
          if_false, Scan.remaining, Disk.file_tick]
        omega

/-- A row that was fetched brings the end of the file, or of the failures,
closer. -/
theorem remaining_fetchNextRecord_lt {db : StoDatabase} (hrow : 0 < db.rowSize)
    (wantRow : Bool) (s : Scan) (hzero : (fetchNextRecord db wantRow s).1 ≠ 0)
    (hfail : (fetchNextRecord db wantRow s).1 ≠ -1) :
    (fetchNextRecord db wantRow s).2.remaining db < s.remaining db := by
  have htick := length_faults_tick_le s.disk
  have hnext : (s.cursor + 1) * db.rowSize = s.cursor * db.rowSize + db.rowSize := by
    rw [Nat.add_mul, Nat.one_mul]
  unfold fetchNextRecord at hzero hfail ⊢
  by_cases hseek : s.disk.fails = true
  · rw [if_pos hseek] at hfail
    exact absurd rfl hfail
  · rw [if_neg hseek] at hzero hfail ⊢
    by_cases hread : s.disk.tick.fails = true
    · -- the key read failed: a failure is used up
      have hlt := length_faults_tick_lt hread
      simp only [Disk.read, hread, if_true] at hzero hfail ⊢
      refine Nat.lt_of_le_of_lt (fetchData_remaining_le db wantRow _ _) ?_
      simp only [Scan.remaining, Disk.file_tick, hnext]
      omega
    · have htick₂ := length_faults_tick_le s.disk.tick
      simp only [Disk.read, hread, Bool.false_eq_true, if_false, Disk.file_tick]
        at hzero hfail ⊢
      cases hkey : readAt s.disk.file (s.cursor * db.rowSize) stoKeySize with
      | nil =>
          rw [hkey] at hzero
          exact absurd rfl hzero
      | cons c rest =>
          have hinside : s.cursor * db.rowSize < s.disk.file.length := by
            by_contra hpast
            rw [readAt_of_length_le stoKeySize (Nat.le_of_not_lt hpast)] at hkey
            exact absurd hkey (by simp)
          refine Nat.lt_of_le_of_lt (fetchData_remaining_le db wantRow _ _) ?_
          simp only [Scan.remaining, Disk.file_tick, hnext]
          omega

/-- The search loop ends. -/
theorem scanUntil_isSome {db : StoDatabase} (hrow : 0 < db.rowSize) (wantRow : Bool)
    (stop : Scan → Bool) : ∀ {fuel : Nat} {s : Scan}, s.remaining db < fuel →
      (scanUntil db wantRow stop fuel s).isSome = true := by
  intro fuel
  induction fuel with
  | zero => intro s h; omega
  | succ fuel ih =>
      intro s h
      have hlt := remaining_fetchNextRecord_lt hrow wantRow s
      unfold scanUntil
      cases hfetch : fetchNextRecord db wantRow s with
      | mk res next =>
          rw [hfetch] at hlt
          by_cases hzero : res = 0
          · simp [hzero]
          · by_cases hfail : res = -1
            · simp [hfail]
            · have hrest := ih (Nat.lt_of_lt_of_le (hlt hzero hfail)
                (Nat.le_of_lt_succ h))
              by_cases hstop : stop next = true
              · simp [hzero, hfail, hstop]
              · simp [hzero, hfail, hstop, hrest]

end AirTraffic.Storage
