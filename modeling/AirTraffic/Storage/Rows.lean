/-
  Storage/Rows.lean --- the file as a table of rows.

  WHAT THIS FILE IS FOR.  `Sto.lean` works on bytes.  Here a file of whole rows
  is read as the list of its rows (`rowsOf`), and the two writes of `sto_set` get
  their meaning in those terms: one replaces the data of a row
  (`rowsOf_writeAt_data`), the other one adds a row (`rowsOf_writeAt_end`).  With
  `Specs.lean`, the layers above never look at bytes of the file again.

  THE LAYOUT.  Row `i` starts at `i * rowSize`; the last row is not padded, and
  the gap that a new row leaves behind it is filled with zeros by the file
  system.  Nothing here depends on what the gaps hold.
-/
import AirTraffic.Foundation.CInt
import AirTraffic.Foundation.Table
import AirTraffic.Storage.Sto

set_option autoImplicit false

namespace AirTraffic.Storage

open AirTraffic.Foundation

/-- One row: its key and its data. -/
structure Row where
  key : Bytes
  data : Bytes
  deriving DecidableEq, Repr

/-- Row sizes for which rows do not run into each other, and data that an `int`
can count. -/
structure StoDatabase.Fits (db : StoDatabase) : Prop where
  data_pos : 0 < db.dataSize
  data_lt : db.dataSize < 2 ^ 31
  row_le : stoKeySize + db.dataSize ≤ db.rowSize

/-- The length of a file of `n` rows. -/
def fileLength (db : StoDatabase) : Nat → Nat
  | 0 => 0
  | n + 1 => n * db.rowSize + (stoKeySize + db.dataSize)

/-- The file consists of whole rows. -/
def Whole (db : StoDatabase) (file : Bytes) : Prop :=
  ∃ n, file.length = fileLength db n

/-- The number of rows of a file of whole rows. -/
def rowCount (db : StoDatabase) (file : Bytes) : Nat :=
  (file.length + db.rowSize - 1) / db.rowSize

/-- The bytes of row `i`. -/
def rowAt (db : StoDatabase) (file : Bytes) (i : Nat) : Row :=
  { key := readAt file (i * db.rowSize) stoKeySize
    data := readAt file (i * db.rowSize + stoKeySize) db.dataSize }

/-- The rows of the file, first to last. -/
def rowsOf (db : StoDatabase) (file : Bytes) : List Row :=
  (List.range (rowCount db file)).map (rowAt db file)

variable {db : StoDatabase}

/-! ## Offsets -/

theorem StoDatabase.Fits.row_pos (fits : db.Fits) : 0 < db.rowSize := by
  have := fits.row_le
  have := fits.data_pos
  omega

theorem fileLength_le (fits : db.Fits) (n : Nat) : fileLength db n ≤ n * db.rowSize := by
  cases n with
  | zero => exact Nat.zero_le _
  | succ n =>
      rw [fileLength, Nat.succ_mul]
      exact Nat.add_le_add_left fits.row_le _

/-- A row below the end lies inside the file. -/
theorem row_end_le_fileLength {n i : Nat} (db : StoDatabase) (h : i < n) :
    i * db.rowSize + (stoKeySize + db.dataSize) ≤ fileLength db n := by
  cases n with
  | zero => omega
  | succ n =>
      unfold fileLength
      exact Nat.add_le_add_right (Nat.mul_le_mul_right _ (Nat.le_of_lt_succ h)) _

/-- A row ends before the next one starts. -/
theorem row_end_le_start {i j : Nat} (fits : db.Fits) (h : i < j) :
    i * db.rowSize + (stoKeySize + db.dataSize) ≤ j * db.rowSize := by
  calc i * db.rowSize + (stoKeySize + db.dataSize)
      ≤ i * db.rowSize + db.rowSize := Nat.add_le_add_left fits.row_le _
    _ = (i + 1) * db.rowSize := by rw [Nat.succ_mul]
    _ ≤ j * db.rowSize := Nat.mul_le_mul_right _ h

theorem rowCount_eq {file : Bytes} {n : Nat} (fits : db.Fits)
    (h : file.length = fileLength db n) : rowCount db file = n := by
  have hpos := fits.row_pos
  rw [rowCount, h]
  cases n with
  | zero =>
      rw [fileLength, Nat.zero_add]
      exact Nat.div_eq_of_lt (by omega)
  | succ n =>
      have hle := fits.row_le
      have hkey : 0 < stoKeySize := by decide
      have hsucc : (n + 1) * db.rowSize = n * db.rowSize + db.rowSize := Nat.succ_mul _ _
      have hsucc₂ : (n + 1 + 1) * db.rowSize = (n + 1) * db.rowSize + db.rowSize :=
        Nat.succ_mul _ _
      apply Nat.div_eq_of_lt_le
      · rw [fileLength]; omega
      · rw [fileLength]; omega

theorem le_length_of_fileLength {file : Bytes} {n : Nat} (fits : db.Fits)
    (h : file.length = fileLength db n) : n ≤ file.length := by
  cases n with
  | zero => exact Nat.zero_le _
  | succ n =>
      have hkey : 0 < stoKeySize := by decide
      have : n * 1 ≤ n * db.rowSize := Nat.mul_le_mul_left n fits.row_pos
      rw [h, fileLength]
      omega

theorem getElem?_rowsOf {file : Bytes} {n : Nat} (fits : db.Fits)
    (h : file.length = fileLength db n) (i : Nat) :
    (rowsOf db file)[i]? = if i < n then some (rowAt db file i) else none := by
  rw [rowsOf, rowCount_eq fits h, List.getElem?_map]
  by_cases hi : i < n
  · rw [List.getElem?_range hi, if_pos hi]
    rfl
  · rw [List.getElem?_eq_none (by rw [List.length_range]; omega), if_neg hi]
    rfl

theorem length_rowsOf {file : Bytes} {n : Nat} (fits : db.Fits)
    (h : file.length = fileLength db n) : (rowsOf db file).length = n := by
  rw [rowsOf, rowCount_eq fits h, List.length_map, List.length_range]

theorem length_key_rowAt {file : Bytes} {n i : Nat}
    (h : file.length = fileLength db n) (hi : i < n) :
    (rowAt db file i).key.length = stoKeySize := by
  have := row_end_le_fileLength db hi
  exact length_readAt_of_le (by omega)

theorem length_data_rowAt {file : Bytes} {n i : Nat}
    (h : file.length = fileLength db n) (hi : i < n) :
    (rowAt db file i).data.length = db.dataSize := by
  have := row_end_le_fileLength db hi
  exact length_readAt_of_le (by omega)

/-! ## Writing a row -/

/-- Overwriting the data of one row. -/
theorem rowAt_writeAt_data {file row : Bytes} {n i j : Nat} (fits : db.Fits)
    (h : file.length = fileLength db n) (hrow : row.length = db.dataSize)
    (hi : i < n) (hj : j < n) :
    rowAt db (writeAt file (j * db.rowSize + stoKeySize) row) i =
      if i = j then { key := (rowAt db file j).key, data := row }
      else rowAt db file i := by
  have hin := row_end_le_fileLength db hi
  by_cases heq : i = j
  · subst heq
    rw [if_pos rfl, rowAt, rowAt, readAt_writeAt_before row (by omega) (by omega),
      ← hrow, readAt_writeAt_self]
  · rw [if_neg heq, rowAt, rowAt]
    rcases Nat.lt_or_gt_of_ne heq with hlt | hgt
    · have hend := row_end_le_start fits hlt
      rw [readAt_writeAt_before row (by omega) (by omega),
        readAt_writeAt_before row (by omega) (by omega)]
    · have hend := row_end_le_start fits hgt
      rw [readAt_writeAt_after file _ (by omega),
        readAt_writeAt_after file _ (by omega)]

/-- Writing a new row behind the last one. -/
theorem rowAt_writeAt_end {file key row : Bytes} {n i : Nat} (fits : db.Fits)
    (h : file.length = fileLength db n) (hkey : key.length = stoKeySize)
    (hrow : row.length = db.dataSize) (hi : i ≤ n) :
    rowAt db (writeAt file (n * db.rowSize) (key ++ row)) i =
      if i = n then { key := key, data := row } else rowAt db file i := by
  by_cases heq : i = n
  · subst heq
    have hread : readAt (key ++ row) (stoKeySize) db.dataSize = row := by
      rw [readAt, List.drop_left' hkey, List.take_of_length_le (by omega)]
    rw [if_pos rfl, rowAt,
      readAt_writeAt_inside file (Nat.le_refl _) (by rw [List.length_append]; omega),
      readAt_writeAt_inside file (by omega) (by rw [List.length_append]; omega),
      Nat.sub_self, Nat.add_sub_cancel_left, hread, readAt, List.drop_zero,
      List.take_left' hkey]
  · have hlt : i < n := by omega
    have hin := row_end_le_fileLength db hlt
    have hend := row_end_le_start fits hlt
    rw [if_neg heq, rowAt, rowAt,
      readAt_writeAt_before _ (by omega) (by omega),
      readAt_writeAt_before _ (by omega) (by omega)]

theorem length_writeAt_data {file row : Bytes} {n j : Nat}
    (h : file.length = fileLength db n) (hrow : row.length = db.dataSize) (hj : j < n) :
    (writeAt file (j * db.rowSize + stoKeySize) row).length = fileLength db n := by
  have hin := row_end_le_fileLength db hj
  rw [length_writeAt]
  omega

theorem length_writeAt_end {file key row : Bytes} {n : Nat} (fits : db.Fits)
    (h : file.length = fileLength db n) (hkey : key.length = stoKeySize)
    (hrow : row.length = db.dataSize) :
    (writeAt file (n * db.rowSize) (key ++ row)).length = fileLength db (n + 1) := by
  have hle := fileLength_le fits n
  rw [length_writeAt, List.length_append, h, fileLength]
  omega

theorem rowsOf_writeAt_data {file row : Bytes} {n : Nat} {before after : List Row}
    {old : Row} (fits : db.Fits) (h : file.length = fileLength db n)
    (hrow : row.length = db.dataSize)
    (hrows : rowsOf db file = before ++ old :: after) :
    rowsOf db (writeAt file (before.length * db.rowSize + stoKeySize) row) =
      before ++ { old with data := row } :: after := by
  have hn : before.length + (after.length + 1) = n := by
    rw [← length_rowsOf fits h, hrows, List.length_append, List.length_cons]
  have hj : before.length < n := by omega
  have hlen := length_writeAt_data h hrow hj
  have hold : rowAt db file before.length = old := by
    have hget := getElem?_rowsOf fits h before.length
    rw [hrows, if_pos hj] at hget
    simpa using hget.symm
  apply List.ext_getElem?
  intro i
  rw [getElem?_rowsOf fits hlen]
  by_cases hi : i < n
  · rw [if_pos hi, rowAt_writeAt_data fits h hrow hi hj]
    have hget := getElem?_rowsOf fits h i
    rw [if_pos hi, hrows] at hget
    by_cases heq : i = before.length
    · subst heq
      rw [if_pos rfl, hold]
      simp
    · rw [if_neg heq, ← hget, List.getElem?_append, List.getElem?_append]
      split
      · rfl
      · have hpos : i - before.length = i - before.length - 1 + 1 := by omega
        rw [hpos, List.getElem?_cons_succ, List.getElem?_cons_succ]
  · rw [if_neg hi]
    symm
    apply List.getElem?_eq_none
    rw [List.length_append, List.length_cons]
    omega

theorem rowsOf_writeAt_end {file key row : Bytes} {n : Nat} (fits : db.Fits)
    (h : file.length = fileLength db n) (hkey : key.length = stoKeySize)
    (hrow : row.length = db.dataSize) :
    rowsOf db (writeAt file (n * db.rowSize) (key ++ row)) =
      rowsOf db file ++ [{ key := key, data := row }] := by
  have hlen := length_writeAt_end fits h hkey hrow
  have hrows := length_rowsOf fits h
  apply List.ext_getElem?
  intro i
  rw [getElem?_rowsOf fits hlen, List.getElem?_append, hrows, getElem?_rowsOf fits h]
  by_cases hi : i < n
  · have hle : i < n + 1 := by omega
    have hne : i ≠ n := by omega
    rw [if_pos hle, if_pos hi, rowAt_writeAt_end fits h hkey hrow (by omega),
      if_neg hne, if_pos hi]
  · by_cases heq : i = n
    · subst heq
      rw [if_pos (Nat.lt_succ_self i), if_neg hi,
        rowAt_writeAt_end fits h hkey hrow (Nat.le_refl i), if_pos rfl, Nat.sub_self]
      rfl
    · have hgt : ¬ i < n + 1 := by omega
      rw [if_neg hgt, if_neg hi]
      symm
      apply List.getElem?_eq_none
      rw [List.length_singleton]
      omega

end AirTraffic.Storage
