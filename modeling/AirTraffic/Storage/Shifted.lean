/-
  Storage/Shifted.lean --- `sto_set` on any file of whole rows.

  WHAT THIS FILE IS FOR.  `stoSet_sound` leaves out the rows whose key is empty.
  Only the empty key matches such a row, it matches every row, and so its search
  ends at the first one.  If that has an empty key too, it is taken for the end of
  the file: the key and the data go behind its key, over its own data and into the
  row behind it (`stoSet_shifted`).  In every other case `sto_set` is `upsert`
  (`stoSet_plain`).
-/
import AirTraffic.Storage.OwnKey

set_option autoImplicit false

namespace AirTraffic.Storage

open AirTraffic.Foundation

variable {db : StoDatabase}

/-- The key is empty, and so is that of the first row. -/
def Shifts (db : StoDatabase) (file key : Bytes) : Prop :=
  strnlen key stoKeySize = 0 ∧ ∃ first ∈ (rowsOf db file).head?, stoKeyEmpty first.key = true

/-- The file with a key and data behind the key of its first row. -/
def shifted (file row : Bytes) : Bytes := writeAt file stoKeySize (zeros stoKeySize ++ row)

theorem keyMatches_empty {key : Bytes} (hkey : strnlen key stoKeySize = 0) (stored : Bytes) :
    keyMatches key (strnlen key stoKeySize) stored = true := by
  rw [keyMatches_iff_take, hkey, List.take_zero, List.take_zero]

theorem storedKey_empty {key : Bytes} (hkey : strnlen key stoKeySize = 0) :
    storedKey key = zeros stoKeySize := by
  rw [storedKey, hkey, List.take_zero]
  rfl

/-- A key that matches an empty one is empty. -/
theorem strnlen_of_matches_empty {key stored : Bytes} (hempty : stoKeyEmpty stored = true)
    (hmatch : keyMatches key (strnlen key stoKeySize) stored = true) :
    strnlen key stoKeySize = 0 := by
  by_contra hne
  have hstored := storedKey_of_matches_empty hempty hmatch
  unfold stoKeyEmpty at hempty
  rw [decide_eq_true_eq, hstored, ← @storedKey_empty [] rfl] at hempty
  have htake := take_eq_of_storedKey_eq hempty
  have hlength := length_take_strnlen key stoKeySize
  rw [htake, List.take_nil, List.length_nil] at hlength
  exact hne hlength.symm

/-- **`sto_set` where the first row is taken for the end of the file.** -/
theorem stoSet_shifted {file row key : Bytes} (fits : db.Fits) (whole : Whole db file)
    (hrow : row.length = db.dataSize) (shifts : Shifts db file key) :
    stoSet db row key (Disk.sound file) =
      (Int32.ofNat db.dataSize, Disk.sound (shifted file row)) := by
  obtain ⟨n, h⟩ := whole
  obtain ⟨hkey, first, hfirst, hempty⟩ := shifts
  have hpos : 0 < n := by
    have hlength := length_rowsOf fits h
    cases hrows : rowsOf db file with
    | nil => exact absurd hfirst (by simp [hrows])
    | cons head rest => rw [← hlength, hrows]; exact Nat.succ_pos _
  have hat : rowAt db file 0 = first := by
    have hget := getElem?_rowsOf fits h 0
    rw [if_pos hpos, ← List.head?_eq_getElem?, hfirst] at hget
    exact (Option.some.inj hget).symm
  have hscan := scanUntil_found (fun s => keyMatches key (strnlen key stoKeySize) s.key) fits h
    (Nat.le_refl 0) hpos [] (fun k _ hk => absurd hk (Nat.not_lt_zero k))
    (keyMatches_empty hkey _) (file.length + 1) (by omega)
    (ready_open db false file (length_zeros stoKeySize) (by simp)) (fun _ => rfl)
  have hwritten : ¬ Int32.ofNat stoKeySize = -1 := by decide
  have hcopy := (strncpy_key key).trans (storedKey_empty hkey)
  have happend := writeAt_writeAt_append file stoKeySize (zeros stoKeySize) row
  rw [length_zeros] at happend
  rw [stoSet_of_scan hscan (fetchCount_ne_neg_one fits false)]
  simp only [stoSetWrite, afterRow, hat, hempty, if_true, Bool.false_eq_true, if_false,
    Nat.add_zero, Nat.zero_mul, Nat.zero_add, Disk.write_sound, hcopy, length_zeros, hwritten,
    hrow]
  rw [happend, shifted]

/-- **`sto_set` is `upsert`** everywhere else. -/
theorem stoSet_plain {file row key : Bytes} (fits : db.Fits) (whole : Whole db file)
    (hrow : row.length = db.dataSize) (plain : ¬ Shifts db file key) :
    ∃ file', stoSet db row key (Disk.sound file) =
        (Int32.ofNat db.dataSize, Disk.sound file') ∧
      Whole db file' ∧ rowsOf db file' = setRows row key (rowsOf db file) := by
  apply stoSet_of_first key fits whole hrow
  intro before stored after hrows hbefore hstored
  rw [← Bool.not_eq_true]
  intro hempty
  have hkey := strnlen_of_matches_empty hempty hstored
  cases before with
  | nil => exact plain ⟨hkey, stored, by rw [hrows]; rfl, hempty⟩
  | cons first rest =>
      have hmiss := hbefore first List.mem_cons_self
      rw [keyMatches_empty hkey] at hmiss
      exact absurd hmiss (by simp)

/-! ## What is left of the rows -/

theorem length_shifted (file : Bytes) {row : Bytes} (hrow : row.length = db.dataSize) :
    (shifted file row).length = max file.length (stoKeySize + (stoKeySize + db.dataSize)) := by
  rw [shifted, length_writeAt, List.length_append, length_zeros, hrow]

/-- With a second row the file stays as long as it was. -/
theorem fileLength_shifted {file row : Bytes} {n : Nat} (fits : db.Fits)
    (h : file.length = fileLength db n) (hrow : row.length = db.dataSize) (hn : 2 ≤ n) :
    (shifted file row).length = fileLength db n := by
  have hend := row_end_le_fileLength db (i := 1) (by omega : 1 < n)
  have hle := fits.row_le
  have hkey : stoKeySize = 16 := rfl
  rw [length_shifted file hrow, h]
  omega

/-- The data of the rows behind the first one stays. -/
theorem data_rowAt_shifted {row : Bytes} {i : Nat} (fits : db.Fits) (file : Bytes)
    (hrow : row.length = db.dataSize) (hi : 1 ≤ i) :
    (rowAt db (shifted file row) i).data = (rowAt db file i).data := by
  have hle := fits.row_le
  have hstart := Nat.mul_le_mul_right db.rowSize hi
  rw [Nat.one_mul] at hstart
  apply readAt_writeAt_after
  rw [List.length_append, length_zeros, hrow]
  omega

end AirTraffic.Storage
