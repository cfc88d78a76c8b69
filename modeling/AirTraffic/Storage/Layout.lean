/-
  Storage/Layout.lean --- rows that do not overlap.

  WHAT THIS FILE IS FOR.  `sto_init` rounds the length of a row up to a multiple
  of 32.  The macro adds 30 before it clears the low bits, so a row of one byte
  more than a multiple loses that byte: the row behind it starts on its last
  one.  For every other size the rows lie apart, and what `sto_set` writes to a
  row is not seen by the reads of an earlier one (`rows_apart_iff`).
-/
import AirTraffic.Storage.OrderedMap

set_option autoImplicit false

namespace AirTraffic.Storage

open AirTraffic.Foundation

variable {db : StoDatabase}

/-- The bytes of the file that belong to row `i`: its key and its data. -/
def StoDatabase.InRow (db : StoDatabase) (i off : Nat) : Prop :=
  i * db.rowSize ≤ off ∧ off < i * db.rowSize + (stoKeySize + db.dataSize)

/-- `_fetch_next_record` of row `i`, into the caller's buffers. -/
def fetchRow (db : StoDatabase) (file : Bytes) (i : Nat) (key row : Bytes) : Int32 × Scan :=
  fetchNextRecord db true { Scan.open (Disk.sound file) key row with cursor := i }

/-- Rows of a size at which they have room, lie apart and can be written without
touching each other. -/
structure RowsApart (db : StoDatabase) : Prop where
  aligned : 32 ∣ db.rowSize
  room : stoKeySize + db.dataSize ≤ db.rowSize
  disjoint : ∀ i j off, i < j → ¬ (db.InRow i off ∧ db.InRow j off)
  /-- The writes of `sto_set` in row `j`, which begin at the row or behind its
  key. -/
  kept : ∀ (i j : Nat) (s : Scan) (file row key keyBuffer rowBuffer : Bytes), i < j →
    i * db.rowSize + (stoKeySize + db.dataSize) ≤ file.length → s.disk = Disk.sound file →
    s.pos = j * db.rowSize ∨ s.pos = j * db.rowSize + stoKeySize →
      (fetchRow db (stoSetWrite row key (strnlen key stoKeySize) s).2.file i keyBuffer
          rowBuffer).2.row =
        (fetchRow db file i keyBuffer rowBuffer).2.row

/-- The row that a fetch reads depends on the bytes of the row. -/
theorem fetchRow_congr {file file' : Bytes} {i : Nat}
    (hin : i * db.rowSize + (stoKeySize + db.dataSize) ≤ file.length)
    (hsame : ∀ a n, a + n ≤ i * db.rowSize + (stoKeySize + db.dataSize) →
      readAt file' a n = readAt file a n) (keyBuffer rowBuffer : Bytes) :
    (fetchRow db file' i keyBuffer rowBuffer).2.row =
      (fetchRow db file i keyBuffer rowBuffer).2.row := by
  have hkey := hsame (i * db.rowSize) stoKeySize (by omega)
  have hlength : (readAt file (i * db.rowSize) stoKeySize).length = stoKeySize :=
    length_readAt_of_le (by omega)
  have hdata := hsame (i * db.rowSize + stoKeySize) db.dataSize (by omega)
  cases hread : readAt file (i * db.rowSize) stoKeySize with
  | nil =>
      rw [hread] at hlength
      exact absurd hlength (by decide)
  | cons c rest =>
      rw [hread] at hlength
      simp only [fetchRow, fetchNextRecord, Scan.open, Disk.fails_sound, Bool.false_eq_true,
        if_false, Disk.tick_sound, Disk.read_sound, hkey, hread, fetchData, if_true, hlength,
        hdata]

/-- The writes of `sto_set` begin where its search stopped. -/
theorem readAt_stoSetWrite {s : Scan} {file row key : Bytes} {keyLen a n : Nat}
    (disk : s.disk = Disk.sound file) (below : a + n ≤ s.pos) (inside : a + n ≤ file.length) :
    readAt (stoSetWrite row key keyLen s).2.file a n = readAt file a n := by
  unfold stoSetWrite
  rw [disk]
  split
  · cases hfirst : (Disk.sound file).write s.pos (strncpy (zeros stoKeySize) key keyLen) with
    | mk written after =>
        obtain ⟨_, rfl⟩ := Prod.mk.inj (hfirst.symm.trans (Disk.write_sound file _ _))
        have hkey := readAt_writeAt_before (strncpy (zeros stoKeySize) key keyLen) below inside
        dsimp only
        split
        · exact hkey
        · exact (readAt_writeAt_before row (by omega) (by rw [length_writeAt]; omega)).trans hkey
  · exact readAt_writeAt_before _ below inside

/-- Rows with room lie apart. -/
theorem rowsApart_of_room (aligned : 32 ∣ db.rowSize)
    (room : stoKeySize + db.dataSize ≤ db.rowSize) : RowsApart db where
  aligned := aligned
  room := room
  disjoint := by
    rintro i j off hij ⟨⟨_, hbelow⟩, habove, _⟩
    have hstart : (i + 1) * db.rowSize ≤ j * db.rowSize := Nat.mul_le_mul_right _ hij
    rw [Nat.succ_mul] at hstart
    omega
  kept := by
    intro i j s file row key keyBuffer rowBuffer hij hin disk hpos
    have hstart : (i + 1) * db.rowSize ≤ j * db.rowSize := Nat.mul_le_mul_right _ hij
    rw [Nat.succ_mul] at hstart
    apply fetchRow_congr hin
    intro a n hle
    exact readAt_stoSetWrite disk (by omega) (by omega)

/-- **When rows do not overlap.**  For every size but those that leave the
remainder 1. -/
theorem rows_apart_iff {dataTypeSize : Nat} {db : StoDatabase}
    (hsize : stoKeySize + dataTypeSize + 30 < 2 ^ 64)
    (hinit : stoInit dataTypeSize = some db) :
    RowsApart db ↔ (stoKeySize + dataTypeSize) % 32 ≠ 1 := by
  obtain ⟨hpos, hdata, hrow⟩ := stoInit_size hinit hsize
  constructor
  · intro apart
    have hroom := apart.room
    omega
  · intro hmod
    exact rowsApart_of_room ⟨_, by rw [hrow, Nat.mul_comm]⟩ (by omega)

theorem rows_apart_planes : RowsApart { rowSize := 64, dataSize := 48 } :=
  (rows_apart_iff (by decide) (by decide : stoInit 48 = some { rowSize := 64, dataSize := 48 })).mpr
    (by decide)

/-- Data of 17 bytes: a row has 33 bytes, and the next one starts at 32. -/
theorem rows_overlap : ¬ ∀ (dataTypeSize : Nat) (db : StoDatabase), 0 < dataTypeSize →
    stoKeySize + dataTypeSize + 30 < 2 ^ 64 → stoInit dataTypeSize = some db → RowsApart db := by
  intro hall
  have hinit : stoInit 17 = some { rowSize := 32, dataSize := 17 } := by decide
  have hroom := (hall 17 _ (by decide) (by decide) hinit).room
  exact absurd hroom (by decide)

end AirTraffic.Storage
