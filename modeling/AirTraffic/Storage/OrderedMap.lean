/-
  Storage/OrderedMap.lean --- the store refines an ordered map.

  WHAT THIS FILE IS FOR.  A database made by `sto_init` has room for its rows
  unless the rounding macro rounds down, which it does for one residue of the
  row length (`fits_of_stoInit`).  When all keys have one length, a stored key
  matches a key exactly if it is that key padded with NULs (`keyMatches_iff`),
  so `sto_set` stores under the padded key (`stoSet_put`) and the file after any
  history is the ordered map of that history (`rowsOf_stoSets`).
-/
import AirTraffic.Storage.Specs

set_option autoImplicit false

namespace AirTraffic.Storage

open AirTraffic.Foundation

/-! ## Row sizes -/

/-- Clearing the low five bits. -/
theorem and_not_low_five (x : BitVec 64) : x &&& ~~~31#64 = (x >>> 5) <<< 5 := by
  apply BitVec.eq_of_getLsbD_eq
  intro i hi
  have hlow : (31#64).getLsbD i = decide (i < 5) := by
    have hones : (31 : Nat) = 2 ^ 5 - 1 := by decide
    rw [BitVec.getLsbD_ofNat, hones, Nat.testBit_two_pow_sub_one]
    simp [hi]
  rw [BitVec.getLsbD_and, BitVec.getLsbD_not, hlow, BitVec.getLsbD_shiftLeft,
    BitVec.getLsbD_ushiftRight]
  by_cases h : i < 5
  · simp [h]
  · have hback : 5 + (i - 5) = i := by omega
    simp [h, hi, hback]

/-- `ROUND_UP` adds 30, not 31, before it clears the low bits. -/
theorem toNat_roundUp {number : UInt64} (h : number.toNat + 30 < 2 ^ 64) :
    (roundUp number 32).toNat = (number.toNat + 30) / 32 * 32 := by
  have hsum : (number + 32 - 2).toNat = number.toNat + 30 := by
    have heq : number + 32 - 2 = number + 30 := by grind
    rw [heq, UInt64.toNat_add]
    exact Nat.mod_eq_of_lt h
  have hround : (roundUp number 32).toBitVec =
      ((number + 32 - 2).toBitVec >>> 5) <<< 5 := and_not_low_five _
  have hnat : (number + 32 - 2).toBitVec.toNat = number.toNat + 30 := hsum
  have hdef : (roundUp number 32).toNat = (roundUp number 32).toBitVec.toNat := rfl
  rw [hdef, hround, BitVec.toNat_shiftLeft, BitVec.toNat_ushiftRight, hnat,
    Nat.shiftRight_eq_div_pow, Nat.shiftLeft_eq, Nat.mod_eq_of_lt (by omega)]

/-- The sizes that `sto_init` computes. -/
theorem stoInit_size {dataTypeSize : Nat} {db : StoDatabase}
    (h : stoInit dataTypeSize = some db) (hsize : stoKeySize + dataTypeSize + 30 < 2 ^ 64) :
    0 < dataTypeSize ∧ db.dataSize = dataTypeSize ∧
      db.rowSize = (stoKeySize + dataTypeSize + 30) / 32 * 32 := by
  unfold stoInit at h
  split at h
  · exact absurd h (by simp)
  · rename_i hpos
    have hdb := Option.some.inj h
    have hnat : (UInt64.ofNat (stoKeySize + dataTypeSize)).toNat =
        stoKeySize + dataTypeSize := by
      apply UInt64.toNat_ofNat_of_lt'
      have hword : UInt64.size = 2 ^ 64 := rfl
      omega
    have hround := toNat_roundUp (by rw [hnat]; exact hsize)
    rw [hnat] at hround
    subst hdb
    exact ⟨Nat.pos_of_ne_zero hpos, rfl, hround⟩

/-- The database `sto_init` makes. -/
theorem stoInit_eq {dataTypeSize : Nat} {db : StoDatabase}
    (h : stoInit dataTypeSize = some db) (hlt : dataTypeSize < 2 ^ 31) :
    0 < dataTypeSize ∧ db.dataSize = dataTypeSize ∧
      db.rowSize = (stoKeySize + dataTypeSize + 30) / 32 * 32 :=
  stoInit_size h (by have : stoKeySize = 16 := rfl; omega)

theorem fits_of_stoInit {dataTypeSize : Nat} {db : StoDatabase}
    (h : stoInit dataTypeSize = some db) (hlt : dataTypeSize < 2 ^ 31)
    (hmod : (stoKeySize + dataTypeSize) % 32 ≠ 1) : db.Fits := by
  obtain ⟨hpos, hdata, hrow⟩ := stoInit_eq h hlt
  exact ⟨by omega, by omega, by omega⟩

/-! ## Keys of one length -/

/-- A stored key: `len` bytes without NUL, padded. -/
def IsKey (len : Nat) (key : Bytes) : Prop :=
  ∃ s : Bytes, s.length = len ∧ NulFree s ∧ key = nulPad stoKeySize s

/-- The key under which `sto_set` stores. -/
def storedKey (key : Bytes) : Bytes :=
  nulPad stoKeySize (key.take (strnlen key stoKeySize))

theorem strncpy_key (key : Bytes) :
    strncpy (zeros stoKeySize) key (strnlen key stoKeySize) = storedKey key :=
  strncpy_zeros stoKeySize key (strnlen_le_length key stoKeySize)
    (nulFree_take_strnlen key stoKeySize)

theorem length_storedKey (key : Bytes) : (storedKey key).length = stoKeySize := by
  rw [← strncpy_key]
  exact length_strncpy_key key

theorem storedKey_ne_nil (key : Bytes) : storedKey key ≠ [] := by
  intro h
  have hlength := length_storedKey key
  rw [h] at hlength
  exact absurd hlength (by decide)

/-- A stored key tells the bytes up to the first NUL. -/
theorem take_eq_of_storedKey_eq {key other : Bytes} (h : storedKey key = storedKey other) :
    key.take (strnlen key stoKeySize) = other.take (strnlen other stoKeySize) := by
  refine nulPad_injective (nulFree_take_strnlen key stoKeySize)
    (nulFree_take_strnlen other stoKeySize) ?_ ?_ h
  · rw [length_take_strnlen]
    exact strnlen_le key stoKeySize
  · rw [length_take_strnlen]
    exact strnlen_le other stoKeySize

theorem isKey_storedKey {len : Nat} {key : Bytes} (h : strnlen key stoKeySize = len) :
    IsKey len (storedKey key) := by
  refine ⟨key.take (strnlen key stoKeySize), ?_, nulFree_take_strnlen _ _, rfl⟩
  rw [List.length_take, h]
  exact Nat.min_eq_left (h ▸ strnlen_le_length key stoKeySize)

/-- Among keys of one length, matching is being the same key. -/
theorem keyMatches_iff {len : Nat} {key stored : Bytes}
    (h : strnlen key stoKeySize = len) (hstored : IsKey len stored) :
    keyMatches key len stored = true ↔ stored = storedKey key := by
  obtain ⟨s, hs, hfree, rfl⟩ := hstored
  have hle : len ≤ key.length := h ▸ strnlen_le_length key stoKeySize
  have hlen : len ≤ stoKeySize := h ▸ strnlen_le key stoKeySize
  have hkeyFree : NulFree (key.take len) := h ▸ nulFree_take_strnlen key stoKeySize
  have hkeyLen : (key.take len).length = len := by
    rw [List.length_take]; exact Nat.min_eq_left hle
  have htake : (nulPad stoKeySize s).take len = s := List.take_left' hs
  have hcmp := strncmp_eq_zero_iff_take (nulPad stoKeySize s) key hle hkeyFree
  rw [htake] at hcmp
  simp only [keyMatches, decide_eq_true_eq, storedKey, h]
  rw [hcmp]
  constructor
  · intro heq
    rw [heq]
  · intro heq
    exact nulPad_injective hfree hkeyFree (by omega) (by omega) heq

/-- A key with a byte in it is not the empty key. -/
theorem stoKeyEmpty_of_isKey {len : Nat} {key : Bytes} (hlen : 1 ≤ len)
    (h : IsKey len key) : stoKeyEmpty key = false := by
  obtain ⟨s, hs, hfree, rfl⟩ := h
  cases s with
  | nil => simp at hs; omega
  | cons c s =>
      have hc : c ≠ 0 := hfree c List.mem_cons_self
      have hhead : (zeros stoKeySize).head? = some 0 := rfl
      apply decide_eq_false
      intro heq
      have := congrArg List.head? heq
      rw [hhead, nulPad, List.cons_append, List.head?_cons] at this
      exact hc (Option.some.inj this)

/-- Among keys of one length, `sto_set` stores the row under its padded key. -/
theorem setRows_eq_put {len : Nat} {row key : Bytes} {rows : List Row}
    (hkeys : ∀ stored ∈ rows, IsKey len stored.key)
    (h : strnlen key stoKeySize = len) :
    setRows row key rows = put Row.key { key := storedKey key, data := row } rows := by
  rw [setRows, strncpy_key, put, h]
  apply upsert_congr
  · intro stored hmem
    have hiff := keyMatches_iff h (hkeys stored hmem)
    by_cases heq : stored.key = storedKey key
    · rw [hiff.mpr heq]
      simp [heq]
    · have hnot : ¬ keyMatches key len stored.key = true := fun hm => heq (hiff.mp hm)
      simpa [heq] using hnot
  · intro stored hmem hmatch
    rw [(keyMatches_iff h (hkeys stored hmem)).mp hmatch]

variable {db : StoDatabase}

/-- **`sto_set` among keys of one length.** -/
theorem stoSet_put {len : Nat} {file row key : Bytes} (fits : db.Fits)
    (whole : Whole db file) (hrow : row.length = db.dataSize) (hlen : 1 ≤ len)
    (hkeys : ∀ stored ∈ rowsOf db file, IsKey len stored.key)
    (h : strnlen key stoKeySize = len) :
    ∃ file', stoSet db row key (Disk.sound file) =
        (Int32.ofNat db.dataSize, Disk.sound file') ∧
      Whole db file' ∧
      rowsOf db file' =
        put Row.key { key := storedKey key, data := row } (rowsOf db file) := by
  obtain ⟨file', hset, hwhole, hrows⟩ := stoSet_sound key fits whole hrow
    (fun stored hmem _ => stoKeyEmpty_of_isKey hlen (hkeys stored hmem))
  exact ⟨file', hset, hwhole, by rw [hrows, setRows_eq_put hkeys h]⟩

/-! ## Histories of `sto_set` -/

/-- A sequence of `sto_set` calls, given by key and row. -/
def stoSets (db : StoDatabase) (calls : List (Bytes × Bytes)) (disk : Disk) : Disk :=
  calls.foldl (fun disk call => (stoSet db call.2 call.1 disk).2) disk

/-- What a call stores. -/
def entryOf (call : Bytes × Bytes) : Row :=
  { key := storedKey call.1, data := call.2 }

theorem whole_nil (db : StoDatabase) : Whole db [] := ⟨0, rfl⟩

theorem rowsOf_nil (fits : db.Fits) : rowsOf db [] = [] := by
  rw [rowsOf, rowCount_eq fits (n := 0) rfl]
  rfl

theorem isKey_of_mem_putAll {len : Nat} {calls : List (Bytes × Bytes)}
    (hcalls : ∀ call ∈ calls, strnlen call.1 stoKeySize = len) {row : Row}
    (hrow : row ∈ putAll Row.key (calls.map entryOf)) : IsKey len row.key := by
  have hkey : row.key ∈ (putAll Row.key (calls.map entryOf)).map Row.key :=
    List.mem_map_of_mem hrow
  rw [map_key_putAll, List.mem_eraseDups, List.map_map] at hkey
  obtain ⟨call, hcall, heq⟩ := List.mem_map.mp hkey
  rw [← heq]
  exact isKey_storedKey (hcalls call hcall)

/-- After any history the rows of the file are the ordered map of the history. -/
theorem rowsOf_stoSets {len : Nat} (fits : db.Fits) (hlen : 1 ≤ len)
    (calls : List (Bytes × Bytes))
    (hcalls : ∀ call ∈ calls, strnlen call.1 stoKeySize = len)
    (hdata : ∀ call ∈ calls, call.2.length = db.dataSize) :
    ∃ file, stoSets db calls (Disk.sound []) = Disk.sound file ∧ Whole db file ∧
      rowsOf db file = putAll Row.key (calls.map entryOf) := by
  induction calls using List.reverseRecOn with
  | nil => exact ⟨[], rfl, whole_nil db, rowsOf_nil fits⟩
  | append_singleton calls call ih =>
      have hinit := fun c (hc : c ∈ calls) =>
        hcalls c (List.mem_append_left _ hc)
      obtain ⟨file, hfile, hwhole, hrows⟩ := ih hinit
        (fun c hc => hdata c (List.mem_append_left _ hc))
      have hkeys : ∀ stored ∈ rowsOf db file, IsKey len stored.key := by
        rw [hrows]
        exact fun stored hmem => isKey_of_mem_putAll hinit hmem
      obtain ⟨file', hset, hwhole', hrows'⟩ := stoSet_put fits hwhole
        (hdata call (by simp)) hlen hkeys (hcalls call (by simp))
      refine ⟨file', ?_, hwhole', ?_⟩
      · have hlast : stoSets db (calls ++ [call]) (Disk.sound []) =
            (stoSet db call.2 call.1 (stoSets db calls (Disk.sound []))).2 := by
          rw [stoSets, List.foldl_append]
          rfl
        rw [hlast, hfile, hset]
      · rw [hrows', hrows, List.map_append, List.map_singleton,
          putAll_append_singleton]
        rfl

/-- **The planes store refines an ordered map.**  `keys` are the NUL-padded keys
of the history in order of first insertion; the calls of `sto_get` return, for
each one that the filter accepts with the data last set under it, that data and
that key, and then 0 for ever. -/
theorem stoGets_after_stoSets {dataTypeSize len : Nat} {db : StoDatabase}
    (hsize : dataTypeSize < 2 ^ 31) (hmod : (stoKeySize + dataTypeSize) % 32 ≠ 1)
    (hinit : stoInit dataTypeSize = some db) (hlen : 1 ≤ len)
    (calls : List (Bytes × Bytes))
    (hcalls : ∀ call ∈ calls, strnlen call.1 stoKeySize = len)
    (hdata : ∀ call ∈ calls, call.2.length = dataTypeSize)
    (filter : StoFilter) (keyBuffer rowBuffer : Bytes)
    (hkeyBuffer : keyBuffer.length = stoKeySize)
    (hrowBuffer : rowBuffer.length = dataTypeSize) (extra : Nat) :
    let keys := (calls.map fun call => storedKey call.1).eraseDups
    let lastSet := fun key => calls.reverse.find? fun call => storedKey call.1 = key
    let accepted := (keys.filterMap fun key => (lastSet key).map fun call =>
      (Row.mk key call.2)).filter fun row => filter row.data row.key
    ∃ q disk, stoQuery (stoSets db calls (Disk.sound [])) keyBuffer rowBuffer =
        (some q, disk) ∧
      stoGets db filter (accepted.length + extra) q =
        accepted.map (fun row => (Int32.ofNat dataTypeSize, row)) ++
          List.replicate extra
            (0, Row.mk (zeros stoKeySize) (zeros dataTypeSize)) := by
  intro keys lastSet accepted
  have fits := fits_of_stoInit hinit hsize hmod
  obtain ⟨_, rfl, _⟩ := stoInit_eq hinit hsize
  obtain ⟨file, hfile, ⟨n, hn⟩, hrows⟩ := rowsOf_stoSets fits hlen calls hcalls hdata
  have ready := ready_open db true file hkeyBuffer (fun _ => hrowBuffer)
  have hkeys : ((calls.map entryOf).map Row.key).eraseDups = keys := by
    rw [List.map_map]
    rfl
  have hspec : rowsOf db file = keys.filterMap fun key => (lastSet key).map fun call =>
      (Row.mk key call.2) := by
    rw [hrows, putAll_eq, hkeys]
    apply List.filterMap_congr
    intro key hkey
    rw [← List.map_reverse, List.find?_map]
    simp only [lastSet]
    have hsame : ((fun entry : Row => decide (entry.key = key)) ∘ entryOf) =
        fun call => decide (storedKey call.1 = key) := rfl
    rw [hsame]
    cases hfind : calls.reverse.find? fun call => decide (storedKey call.1 = key) with
    | none => rfl
    | some call =>
        have := List.find?_some hfind
        simp only [decide_eq_true_eq] at this
        simp [entryOf, this]
  refine ⟨Scan.open (Disk.sound file) keyBuffer rowBuffer, Disk.sound file, ?_, ?_⟩
  · rw [hfile]
    rfl
  · exact stoGets_eq fits hn extra (Nat.zero_le n) ready (by rw [List.drop_zero, hspec])

theorem stoGets_after_three :
    ∃ db, stoInit 1 = some db ∧
      ∃ q disk,
        stoQuery (stoSets db [([65, 0], [7]), ([66, 0], [8]), ([65, 0], [9])]
          (Disk.sound [])) (zeros 16) (zeros 1) = (some q, disk) ∧
        stoGets db (fun _ _ => true) 3 q =
          [(1, { key := storedKey [65, 0], data := [9] }),
            (1, { key := storedKey [66, 0], data := [8] }),
            (0, { key := zeros 16, data := zeros 1 })] := by
  have hinit : stoInit 1 = some { rowSize := 32, dataSize := 1 } := by decide
  obtain ⟨q, disk, hquery, hgets⟩ := stoGets_after_stoSets (by decide) (by decide) hinit
    (Nat.le_refl 1) [([65, 0], [7]), ([66, 0], [8]), ([65, 0], [9])] (by decide) (by decide)
    (fun _ _ => true) (zeros 16) (zeros 1) rfl rfl 1
  exact ⟨_, hinit, q, disk, hquery, hgets⟩

end AirTraffic.Storage
