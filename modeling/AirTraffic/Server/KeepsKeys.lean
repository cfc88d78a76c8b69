/-
  Server/KeepsKeys.lean --- what a command does to the keys of the store.

  WHAT THIS FILE IS FOR.  A command brings the whole plane, and `set` stores it
  without asking whether there is such a plane.  The store then goes to the first
  row whose key begins with the id, or makes a row.  `KeysSafe` says when that
  leaves the keys alone, and the rest as well where the id has no row, and
  `creates_none_iff` that this is exactly when a command from the wire does.
-/
import AirTraffic.Server.Serve
import AirTraffic.Atcd.Contract

set_option autoImplicit false

namespace AirTraffic.Server

open AirTraffic.Foundation AirTraffic.Storage AirTraffic.Atcd AirTraffic.Protocol

/-- The keys of the planes file, in the order of its rows. -/
def keysOf (file : Bytes) : List Bytes := (rowsOf planesDb file).map Row.key

/-! ## The planes file is its rows -/

theorem getElem?_of_rowAt (file : Bytes) (i : Nat) :
    file[i]? =
      if i % 64 < 16 then (rowAt planesDb file (i / 64)).key[i % 64]?
      else (rowAt planesDb file (i / 64)).data[i % 64 - 16]? := by
  have hsize : stoKeySize = 16 := rfl
  have hdata : planesDb.dataSize = 48 := rfl
  have hrow : planesDb.rowSize = 64 := rfl
  split
  · have hat : i / 64 * 64 + i % 64 = i := by omega
    rw [rowAt, getElem?_readAt, hsize, hrow, if_pos (by omega), hat]
  · have hat : i / 64 * 64 + 16 + (i % 64 - 16) = i := by omega
    rw [rowAt, getElem?_readAt, hsize, hrow, hdata, if_pos (by omega), hat]

/-- Files of whole rows with the same rows are the same: the rows leave no gaps. -/
theorem eq_of_rowsOf_eq {file file' : Bytes} (whole : Whole planesDb file)
    (whole' : Whole planesDb file') (h : rowsOf planesDb file = rowsOf planesDb file') :
    file = file' := by
  obtain ⟨n, hn⟩ := whole
  obtain ⟨n', hn'⟩ := whole'
  have hcount := congrArg List.length h
  rw [length_rowsOf fits_planes hn, length_rowsOf fits_planes hn'] at hcount
  subst hcount
  have hrows : ∀ j, rowAt planesDb file j = rowAt planesDb file' j := by
    intro j
    by_cases hj : j < n
    · have hget := congrArg (fun rows => rows[j]?) h
      simp only [getElem?_rowsOf fits_planes hn, getElem?_rowsOf fits_planes hn', hj,
        if_true] at hget
      exact Option.some.inj hget
    · have hle := fileLength_le fits_planes n
      have hstart := Nat.mul_le_mul_right planesDb.rowSize (Nat.le_of_not_lt hj)
      rw [rowAt, rowAt, readAt_of_length_le _ (by omega), readAt_of_length_le _ (by omega),
        readAt_of_length_le _ (by omega), readAt_of_length_le _ (by omega)]
  apply List.ext_getElem?
  intro i
  rw [getElem?_of_rowAt file, getElem?_of_rowAt file', hrows]

/-! ## Keys after a store -/

/-- The row that a store goes to keeps the keys as they are, and the id has a row or
that row does not change. -/
inductive KeysSafe (file : Bytes) (stored : AtcPlane) : Prop
  /-- The first row whose key begins with the id has a key. -/
  | renewed {old : Row} (first : (rowsOf planesDb file).find? (answers stored) = some old)
      (full : stoKeyEmpty old.key = false)
      (own : storedKey stored.bytes ∈ keysOf file ∨ old.data = stored.bytes)
  /-- It has none, and the end of the plane is the key of the second row. -/
  | shifted {old : Row} (first : (rowsOf planesDb file).find? (answers stored) = some old)
      (empty : stoKeyEmpty old.key = true)
      (second : (keysOf file)[1]? = some (stored.bytes.drop 32))

/-- The keys are what they were, and so is the rest if the id has no row. -/
def KeysKept (file file' : Bytes) (key : Bytes) : Prop :=
  keysOf file' = keysOf file ∧ (key ∉ keysOf file → file' = file)

theorem shifts_iff {file : Bytes} {stored : AtcPlane} :
    Shifts planesDb file stored.bytes ↔
      ∃ old, (rowsOf planesDb file).find? (answers stored) = some old ∧
        stoKeyEmpty old.key = true := by
  constructor
  · rintro ⟨hkey, first, hfirst, hempty⟩
    refine ⟨first, ?_, hempty⟩
    have hmatch : answers stored first = true := keyMatches_empty hkey first.key
    cases hrows : rowsOf planesDb file with
    | nil => exact absurd hfirst (by simp [hrows])
    | cons head rest =>
      rw [hrows] at hfirst
      obtain rfl : head = first := by simpa using hfirst
      rw [List.find?_cons_of_pos hmatch]
  · rintro ⟨old, hfind, hempty⟩
    have hold : answers stored old = true := List.find?_some hfind
    have hkey := strnlen_of_matches_empty hempty hold
    refine ⟨hkey, old, ?_, hempty⟩
    cases hrows : rowsOf planesDb file with
    | nil => exact absurd hfind (by simp [hrows])
    | cons head rest =>
      have hmatch : answers stored head = true := keyMatches_empty hkey head.key
      rw [hrows, List.find?_cons_of_pos hmatch] at hfind
      rw [List.head?_cons, hfind]
      rfl

theorem getElem?_keysOf {file : Bytes} {n : Nat} (h : file.length = fileLength planesDb n)
    (i : Nat) :
    (keysOf file)[i]? = if i < n then some (rowAt planesDb file i).key else none := by
  rw [keysOf, List.getElem?_map, getElem?_rowsOf fits_planes h]
  split
  · rfl
  · rfl

/-- Only the second row gets another key: the end of what was stored. -/
theorem key_rowAt_shifted {file row : Bytes} {n i : Nat} (h : file.length = fileLength planesDb n)
    (hrow : row.length = planesDb.dataSize) (hi : i < n) :
    (rowAt planesDb (shifted file row) i).key =
      if i = 1 then row.drop 32 else (rowAt planesDb file i).key := by
  have hkey : stoKeySize = 16 := rfl
  have hdata : planesDb.dataSize = 48 := rfl
  have hsize : planesDb.rowSize = 64 := rfl
  have hend := row_end_le_fileLength planesDb hi
  rw [← h] at hend
  split
  · rename_i hone
    have hdrop : readAt (zeros stoKeySize ++ row) 48 16 = row.drop 32 := by
      rw [readAt, List.drop_append, length_zeros,
        List.drop_of_length_le (by rw [length_zeros]; omega), List.nil_append, hkey]
      exact List.take_of_length_le (by rw [List.length_drop, hrow, hdata])
    have hin := @readAt_writeAt_inside stoKeySize 64 16 file (zeros stoKeySize ++ row) (by omega)
      (by rw [List.length_append, length_zeros, hrow]; omega)
    rw [hone]
    exact hin.trans hdrop
  · rename_i hone
    rcases Nat.eq_zero_or_pos i with rfl | hpos
    · exact readAt_writeAt_before _ (by omega) (by omega)
    · have hstart := Nat.mul_le_mul_right planesDb.rowSize (by omega : 2 ≤ i)
      refine readAt_writeAt_after file _ ?_
      rw [List.length_append, length_zeros, hrow]
      omega

theorem keysOf_shifted_iff {file row : Bytes} (whole : Whole planesDb file)
    (hrow : row.length = planesDb.dataSize) {old : Row}
    (hfirst : old ∈ rowsOf planesDb file) :
    keysOf (shifted file row) = keysOf file ↔ (keysOf file)[1]? = some (row.drop 32) := by
  obtain ⟨n, h⟩ := whole
  have hpos : 0 < n := by
    rw [← length_rowsOf fits_planes h]
    exact List.length_pos_of_mem hfirst
  rcases Nat.lt_or_ge 1 n with htwo | hone
  · have hsame := fileLength_shifted fits_planes h hrow htwo
    constructor
    · intro hkeys
      rw [← hkeys, getElem?_keysOf hsame, if_pos htwo, key_rowAt_shifted h hrow htwo, if_pos rfl]
    · intro hsecond
      apply List.ext_getElem?
      intro i
      rw [getElem?_keysOf hsame, getElem?_keysOf h]
      split
      · rename_i hi
        rw [key_rowAt_shifted h hrow hi]
        split
        · rename_i hat
          rw [hat, ← hsecond, getElem?_keysOf h, if_pos htwo]
        · rfl
      · rfl
  · -- the only row gets a second one behind it, of which there is the key
    obtain rfl : n = 1 := by omega
    have hlong : (keysOf (shifted file row)).length = 2 := by
      have hlength : (shifted file row).length = 80 := by
        rw [length_shifted file hrow, h]
        rfl
      rw [keysOf, List.length_map, rowsOf, List.length_map, List.length_range, rowCount, hlength]
      rfl
    have hshort : (keysOf file).length = 1 := by
      rw [keysOf, List.length_map, length_rowsOf fits_planes h]
    constructor
    · intro hkeys
      rw [hkeys, hshort] at hlong
      exact absurd hlong (by decide)
    · intro hsecond
      rw [getElem?_keysOf h, if_neg (by decide)] at hsecond
      exact absurd hsecond (by simp)

/-- The store that goes astray. -/
theorem keysKept_shifted {file : Bytes} {stored : AtcPlane} (whole : Whole planesDb file)
    (shifts : Shifts planesDb file stored.bytes) :
    KeysKept file (shifted file stored.bytes) (storedKey stored.bytes) ↔
      KeysSafe file stored := by
  obtain ⟨old, hfind, hempty⟩ := shifts_iff.mp shifts
  have hmem := List.mem_of_find?_eq_some hfind
  have hkeys := keysOf_shifted_iff whole (AtcPlane.length_bytes stored) hmem
  have hown : storedKey stored.bytes ∈ keysOf file := by
    rw [← storedKey_of_matches_empty hempty (keyMatches_empty shifts.1 old.key)]
    exact List.mem_map_of_mem hmem
  constructor
  · intro kept
    exact .shifted hfind hempty (hkeys.mp kept.1)
  · intro safe
    cases safe with
    | renewed hother hfull _ =>
      obtain rfl := Option.some.inj (hfind.symm.trans hother)
      exact absurd (hempty.symm.trans hfull) (by decide)
    | shifted _ _ hsecond => exact ⟨hkeys.mpr hsecond, fun habsent => absurd hown habsent⟩

/-- The store that makes a row. -/
theorem keysKept_added {file file' : Bytes} {stored : AtcPlane} {row : Row}
    (hnone : (rowsOf planesDb file).find? (answers stored) = none)
    (hrows : rowsOf planesDb file' = rowsOf planesDb file ++ [row]) :
    KeysKept file file' (storedKey stored.bytes) ↔ KeysSafe file stored := by
  constructor
  · intro kept
    have hlength := congrArg List.length kept.1
    rw [keysOf, keysOf, hrows, List.length_map, List.length_map, List.length_append,
      List.length_singleton] at hlength
    omega
  · intro safe
    cases safe with
    | renewed hother => exact absurd (hnone.symm.trans hother) (by simp)
    | shifted hother => exact absurd (hnone.symm.trans hother) (by simp)

/-- The store that goes to a row with a key. -/
theorem keysKept_renewed {file file' : Bytes} {stored : AtcPlane} {before after : List Row}
    {old : Row} (whole : Whole planesDb file) (whole' : Whole planesDb file')
    (hold : rowsOf planesDb file = before ++ old :: after)
    (hfind : (rowsOf planesDb file).find? (answers stored) = some old)
    (hfull : stoKeyEmpty old.key = false)
    (hrows : rowsOf planesDb file' = before ++ { old with data := stored.bytes } :: after) :
    KeysKept file file' (storedKey stored.bytes) ↔ KeysSafe file stored := by
  have hkeys : keysOf file' = keysOf file := by
    rw [keysOf, keysOf, hrows, hold]
    simp
  have hsame : file' = file ↔ old.data = stored.bytes := by
    constructor
    · intro heq
      rw [heq, hold] at hrows
      exact congrArg Row.data (List.cons.inj (List.append_cancel_left hrows)).1
    · intro hdata
      apply eq_of_rowsOf_eq whole' whole
      rw [hrows, hold, ← hdata]
  constructor
  · intro kept
    refine .renewed hfind hfull ?_
    by_cases hown : storedKey stored.bytes ∈ keysOf file
    · exact Or.inl hown
    · exact Or.inr (hsame.mp (kept.2 hown))
  · intro safe
    cases safe with
    | renewed hother _ hown =>
      obtain rfl := Option.some.inj (hfind.symm.trans hother)
      exact ⟨hkeys, fun habsent => hsame.mpr (hown.resolve_left habsent)⟩
    | shifted hother hempty _ =>
      obtain rfl := Option.some.inj (hfind.symm.trans hother)
      exact absurd (hfull.symm.trans hempty) (by decide)

/-- Storing a plane keeps the keys exactly if it is safe. -/
theorem keysKept_storePlane {file : Bytes} (whole : Whole planesDb file) (stored : AtcPlane) :
    ∃ file', (storePlane stored (Disk.sound file)).2 = Disk.sound file' ∧
      (KeysKept file file' (storedKey stored.bytes) ↔ KeysSafe file stored) := by
  have hrow : stored.bytes.length = planesDb.dataSize := AtcPlane.length_bytes stored
  by_cases shifts : Shifts planesDb file stored.bytes
  · have hset := stoSet_shifted fits_planes whole hrow shifts
    exact ⟨_, congrArg Prod.snd hset, keysKept_shifted whole shifts⟩
  · obtain ⟨file', hset, whole', hrows⟩ := stoSet_plain fits_planes whole hrow shifts
    refine ⟨file', congrArg Prod.snd hset, ?_⟩
    rcases setRows_cases stored (rowsOf planesDb file) with
      ⟨hnone, hadded⟩ | ⟨before, old, after, hold, _, hfind, hrenewed⟩
    · exact keysKept_added hnone (hrows.trans hadded)
    · have hfull : stoKeyEmpty old.key = false := by
        rw [← Bool.not_eq_true]
        exact fun hempty => shifts (shifts_iff.mpr ⟨old, hfind, hempty⟩)
      exact keysKept_renewed whole whole' hold hfind hfull (hrows.trans hrenewed)

/-! ## Commands from the wire -/

/-- Without padding the key of a plane is its id up to the first NUL. -/
theorem storedKey_bytes_of_pad {plane : AtcPlane} (hpad : plane.pad.head = 0) :
    storedKey plane.bytes = storedKey plane.id.toList := by
  obtain ⟨rest, hbytes⟩ := bytes_eq_id_append plane
  have hlength : plane.id.toList.length ≤ stoKeySize := by
    rw [length_id]
    decide
  have hle := strnlen_le_length plane.id.toList stoKeySize
  rw [storedKey, storedKey, hbytes, hpad, strnlen_append_nul rest hlength,
    List.take_append_of_le_length hle]

section Handler

variable [Platform]

/-- The key of the plane that a message names. -/
def wireKey (wire : List.Vector UInt8 atcpMsgLen) : Bytes :=
  storedKey (atcWireToReq wire.toList).1.plane.id.toList

/-- What the message makes the handler do creates and renames no plane. -/
def CreatesNone (moment : Moment) (wire : List.Vector UInt8 atcpMsgLen) (counters : Counters)
    (file : Bytes) : Prop :=
  ∀ handled conn worker',
    replyHandler moment { req := (atcWireToReq wire.toList).1, res := zeroRes }
        { counters := counters, disk := Disk.sound file } = some (handled, conn, worker') →
      KeysKept file worker'.disk.file (wireKey wire)

omit [Platform] in
theorem pad_of_wire (wire : Bytes) : (atcWireToReq wire).1.plane.pad.head = 0 := by
  unfold atcWireToReq
  dsimp only
  split
  · rfl
  · rfl

/-- A command for a request that the handler was given. -/
theorem keysKept_set {file : Bytes} (whole : Whole planesDb file) (cmd : Int32)
    {plane : AtcPlane} (hpad : plane.pad.head = 0) (now : Int64) :
    KeysKept file (set cmd plane now (Disk.sound file)).2.2.file (storedKey plane.id.toList) ↔
      ∀ stored, commanded cmd plane now = some stored → KeysSafe file stored := by
  rw [set_eq]
  cases hcommanded : commanded cmd plane now with
  | none =>
    refine ⟨fun _ stored hsome => absurd hsome (by simp), fun _ => ⟨rfl, fun _ => rfl⟩⟩
  | some stored =>
    obtain ⟨hid, hpads⟩ := commanded_id_pad hcommanded
    obtain ⟨file', hstore, hiff⟩ := keysKept_storePlane whole stored
    rw [storedKey_bytes_of_pad (hpads ▸ hpad), hid] at hiff
    dsimp only
    rw [hstore, hiff]
    constructor
    · intro safe other hother
      exact Option.some.inj hother ▸ safe
    · intro safe
      exact safe stored rfl

theorem createsNone_set {file : Bytes} (moment : Moment) (wire : List.Vector UInt8 atcpMsgLen)
    (counters : Counters) {cmd : AtcCommand}
    (hcommand : (AtcReqType.ofCode (atcWireToReq wire.toList).1.type).bind
      AtcReqType.command = some cmd) :
    CreatesNone moment wire counters file ↔
      KeysKept file
        (set cmd.code (atcWireToReq wire.toList).1.plane moment.now (Disk.sound file)).2.2.file
        (wireKey wire) := by
  obtain ⟨type, htype, hcmd⟩ := Option.bind_eq_some_iff.mp hcommand
  unfold CreatesNone
  generalize wireKey wire = key
  generalize (atcWireToReq wire.toList).1 = req at htype ⊢
  obtain ⟨code, plane⟩ := req
  obtain rfl := AtcReqType.code_of_ofCode htype
  simp only [replyHandler_command hcmd, replySet]
  -- only the disk that `set` leaves matters
  generalize set cmd.code plane moment.now (Disk.sound file) = outcome
  constructor
  · intro creates
    exact creates _ _ _ rfl
  · intro kept handled conn worker' hsome
    obtain ⟨_, hrest⟩ := Prod.mk.inj (Option.some.inj hsome)
    obtain ⟨_, rfl⟩ := Prod.mk.inj hrest
    exact kept

/-- **When a command creates and renames no plane.**  Exactly if it stores nothing, or
goes to a row where that is safe. -/
theorem creates_none_iff {file : Bytes} (whole : Whole planesDb file) (moment : Moment)
    (wire : List.Vector UInt8 atcpMsgLen) (counters : Counters) {cmd : AtcCommand}
    (hcommand : (AtcReqType.ofCode (atcWireToReq wire.toList).1.type).bind
      AtcReqType.command = some cmd) :
    CreatesNone moment wire counters file ↔
      ∀ stored,
        commanded cmd.code (atcWireToReq wire.toList).1.plane moment.now = some stored →
          KeysSafe file stored :=
  (createsNone_set moment wire counters hcommand).trans
    (keysKept_set whole cmd.code (pad_of_wire wire.toList) moment.now)

end Handler

/-! ## A plane that is not there -/

/-- A plane that the store has no row for. -/
def ghost : AtcPlane := { cruising with id := ⟨[67, 67, 48, 48, 48, 67], rfl⟩ }

/-- The message that speeds it up. -/
def ghostWire : List.Vector UInt8 atcpMsgLen :=
  ⟨reqFormat { type := AtcReqType.speedUp.code, plane := ghost }, length_reqFormat _⟩

theorem atcWireToReq_ghostWire :
    (atcWireToReq ghostWire.toList).1 = { type := AtcReqType.speedUp.code, plane := ghost } := by
  have hread := congrArg Prod.fst
    (atcWireToReq_reqFormat { type := AtcReqType.speedUp.code, plane := ghost })
  exact hread.trans (by decide +kernel)

theorem command_ghostWire :
    (AtcReqType.ofCode (atcWireToReq ghostWire.toList).1.type).bind AtcReqType.command =
      some .speedUp := by
  rw [atcWireToReq_ghostWire]
  rfl

theorem creates_none_iff_ghost :
    @CreatesNone x86 ⟨5, Chance.zero⟩ ghostWire {} twoPlanes ↔
      ∀ stored, @commanded x86 AtcCommand.speedUp.code (atcWireToReq ghostWire.toList).1.plane 5 =
          some stored → KeysSafe twoPlanes stored :=
  @creates_none_iff x86 _ whole_twoPlanes ⟨5, Chance.zero⟩ ghostWire {} _ command_ghostWire

/-- Speeding up a plane that is not there makes a row for it. -/
theorem speed_up_creates_ghost :
    ¬ ∀ (platform : Platform) (file : Bytes), Whole planesDb file →
      ∀ (moment : Moment) (wire : List.Vector UInt8 atcpMsgLen) (counters : Counters)
        (cmd : AtcCommand), (AtcReqType.ofCode (atcWireToReq wire.toList).1.type).bind
          AtcReqType.command = some cmd →
            @CreatesNone platform moment wire counters file := by
  intro creates
  have hcreates := creates x86 _ whole_twoPlanes ⟨5, Chance.zero⟩ ghostWire {} _ command_ghostWire
  have hkept := (@createsNone_set x86 twoPlanes _ _ _ _ command_ghostWire).mp hcreates
  have hsafe := (@keysKept_set x86 _ whole_twoPlanes _ _ (pad_of_wire _) _).mp hkept
  rw [atcWireToReq_ghostWire] at hsafe
  have hnone : (rowsOf planesDb twoPlanes).find?
      (answers { ghost with time := 5, speed := 56 }) = none := by
    decide +kernel
  cases hsafe { ghost with time := 5, speed := 56 } (by decide +kernel) with
  | renewed hfind => exact absurd (hnone.symm.trans hfind) (by simp)
  | shifted hfind => exact absurd (hnone.symm.trans hfind) (by simp)

end AirTraffic.Server
