/-
  Storage/OwnKey.lean --- `sto_set` and the rows of other keys.

  WHAT THIS FILE IS FOR.  The search of `sto_set` compares as many bytes as the
  key it was given has, so it stops at the first row whose key begins with that.
  While no call finds a longer key there, every row is the one that the search
  for its key stops at (`Tidy`), and `sto_set` is `put` on the rows: it touches
  the row of its key and no other (`sets_touch_own`).  A call that finds a longer
  key writes to the row of that, and its own key is not stored at all
  (`misses_own_of_hidden`); the empty key is the beginning of every key.
-/
import AirTraffic.Foundation.Transition
import AirTraffic.Storage.Failure

set_option autoImplicit false

namespace AirTraffic.Storage

open AirTraffic.Foundation

variable {db : StoDatabase}

/-! ## Keys that begin with a key -/

theorem keyMatches_iff_take (key stored : Bytes) :
    keyMatches key (strnlen key stoKeySize) stored = true ↔
      stored.take (strnlen key stoKeySize) = key.take (strnlen key stoKeySize) := by
  unfold keyMatches
  rw [decide_eq_true_eq]
  exact strncmp_eq_zero_iff_take stored key (strnlen_le_length key stoKeySize)
    (nulFree_take_strnlen key stoKeySize)

theorem keyMatches_storedKey (key : Bytes) :
    keyMatches key (strnlen key stoKeySize) (storedKey key) = true := by
  rw [keyMatches_iff_take]
  exact List.take_left' (length_take_strnlen key stoKeySize)

/-- What a key matches among the stored keys are those of the memory it is the
beginning of. -/
theorem keyMatches_storedKey_iff (key other : Bytes) :
    keyMatches key (strnlen key stoKeySize) (storedKey other) = true ↔
      other.take (strnlen key stoKeySize) = key.take (strnlen key stoKeySize) := by
  have hfree := nulFree_take_strnlen key stoKeySize
  have hlength := length_take_strnlen key stoKeySize
  have hle := strnlen_le key stoKeySize
  rw [keyMatches_iff_take]
  generalize hkey : key.take (strnlen key stoKeySize) = front at hfree hlength ⊢
  generalize strnlen key stoKeySize = n at hlength hle ⊢
  have hother := strnlen_le_length other stoKeySize
  rcases Nat.lt_or_ge (strnlen other stoKeySize) n with hlt | hge
  · -- the other key ends before this one, and neither prefix can be equal
    constructor
    · intro hstored
      have hnul : (storedKey other)[strnlen other stoKeySize]? = some 0 := by
        rw [storedKey, nulPad, List.getElem?_append_right (by rw [length_take_strnlen]),
          length_take_strnlen, zeros, List.getElem?_replicate, if_pos (by omega)]
      have hmem : (0 : UInt8) ∈ front := by
        rw [← hstored]
        refine List.mem_of_getElem? (i := strnlen other stoKeySize) ?_
        rw [List.getElem?_take, if_pos hlt, hnul]
      exact absurd rfl (hfree 0 hmem)
    · intro htake
      have hlong : n ≤ other.length := by
        rw [← hlength, ← htake, List.length_take]
        exact Nat.min_le_right _ _
      have hcount := le_strnlen_of_nulFree (htake ▸ hfree) hlong hle
      omega
  · have hsame : (storedKey other).take n = other.take n := by
      rw [storedKey, nulPad, List.take_append_of_le_length (by rw [length_take_strnlen]; exact hge),
        List.take_take, Nat.min_eq_left hge]
    rw [hsame]

/-- What a key matches depends on its bytes up to the first NUL. -/
theorem keyMatches_congr {key other : Bytes} (h : storedKey key = storedKey other)
    (stored : Bytes) :
    keyMatches key (strnlen key stoKeySize) stored =
      keyMatches other (strnlen other stoKeySize) stored := by
  have htake := take_eq_of_storedKey_eq h
  have hlength : strnlen key stoKeySize = strnlen other stoKeySize := by
    rw [← length_take_strnlen key, ← length_take_strnlen other, htake]
  rw [Bool.eq_iff_iff, keyMatches_iff_take, keyMatches_iff_take, htake, hlength]

/-- The empty key begins with no other one. -/
theorem storedKey_of_matches_empty {key stored : Bytes} (hempty : stoKeyEmpty stored = true)
    (hmatch : keyMatches key (strnlen key stoKeySize) stored = true) : stored = storedKey key := by
  unfold stoKeyEmpty at hempty
  rw [decide_eq_true_eq] at hempty
  rw [keyMatches_iff_take, hempty] at hmatch
  have hfree := nulFree_take_strnlen key stoKeySize
  have hnil : key.take (strnlen key stoKeySize) = [] := by
    rw [List.eq_nil_iff_forall_not_mem]
    intro c hc
    refine hfree c hc ?_
    rw [← hmatch] at hc
    exact List.eq_of_mem_replicate (List.mem_of_mem_take hc)
  rw [hempty, storedKey, hnil]
  rfl

/-! ## Calls -/

/-- A call of `sto_set`, with the outcomes of the calls to the system that it
makes. -/
structure SetCall where
  key : Bytes
  row : Bytes
  faults : List Bool := []
  deriving DecidableEq, Repr

/-- The disk that the call finds. -/
def SetCall.disk (call : SetCall) (file : Bytes) : Disk := { file := file, faults := call.faults }

/-- What the call returns, and the disk behind it. -/
def SetCall.run (db : StoDatabase) (call : SetCall) (file : Bytes) : Int32 × Disk :=
  stoSet db call.row call.key (call.disk file)

/-- The file goes from call to call. -/
def SetStep (db : StoDatabase) (file : Bytes) (call : SetCall) (file' : Bytes) : Prop :=
  call.row.length = db.dataSize ∧ file' = (call.run db file).2.file

/-- The call changes its own row only, and that is the only one of its key. -/
structure TouchesOwn (db : StoDatabase) (file : Bytes) (call : SetCall) (file' : Bytes) :
    Prop where
  others : ∀ (i : Nat) (stored : Row), (rowsOf db file)[i]? = some stored →
    stored.key ≠ storedKey call.key → (rowsOf db file')[i]? = some stored
  own : ((rowsOf db file').filter fun stored => stored.key = storedKey call.key) =
    [{ key := storedKey call.key, data := call.row }]

/-- No key of the store begins with this one, or it is there itself and not
empty. -/
def StandsClear (db : StoDatabase) (file key : Bytes) : Prop :=
  (storedKey key ∈ (rowsOf db file).map Row.key ∧ stoKeyEmpty (storedKey key) = false) ∨
    ∀ stored ∈ rowsOf db file, keyMatches key (strnlen key stoKeySize) stored.key = false

/-- A call that finds its own row or none, and does not fail between the key and
the data of a new one. -/
def KeepsApart (db : StoDatabase) (file : Bytes) (call : SetCall) : Prop :=
  StandsClear db file call.key ∧ ¬ TearsRow db call.key (call.disk file)

/-- Whole rows, each of them the first whose key begins with its own. -/
structure Tidy (db : StoDatabase) (file : Bytes) : Prop where
  whole : Whole db file
  unhidden : ((rowsOf db file).map Row.key).Pairwise fun earlier later =>
    ∃ key, storedKey key = later ∧ keyMatches key (strnlen key stoKeySize) earlier = false

theorem tidy_nil (fits : db.Fits) : Tidy db [] := by
  refine ⟨whole_nil db, ?_⟩
  rw [rowsOf_nil fits]
  exact .nil

theorem Tidy.nodup {file : Bytes} (tidy : Tidy db file) :
    ((rowsOf db file).map Row.key).Nodup := by
  apply tidy.unhidden.imp
  rintro earlier later ⟨key, rfl, hfalse⟩ rfl
  rw [keyMatches_storedKey] at hfalse
  exact absurd hfalse (by decide)

/-! ## One call -/

/-- The search stops at the row of its key. -/
theorem searchStop_own {file key : Bytes} {before after : List Row} {own : Row}
    (tidy : Tidy db file) (hrows : rowsOf db file = before ++ own :: after)
    (hown : own.key = storedKey key) : searchStop db file key = before.length := by
  have hunhidden := tidy.unhidden
  rw [hrows, List.map_append, List.map_cons, List.pairwise_append] at hunhidden
  have hbefore : ∀ stored ∈ before,
      keyMatches key (strnlen key stoKeySize) stored.key = false := by
    intro stored hmem
    obtain ⟨other, hother, hfalse⟩ :=
      hunhidden.2.2 stored.key (List.mem_map_of_mem hmem) own.key List.mem_cons_self
    rw [keyMatches_congr (hown.symm.trans hother.symm)]
    exact hfalse
  have hmatch : keyMatches key (strnlen key stoKeySize) own.key = true := by
    rw [hown]
    exact keyMatches_storedKey key
  unfold searchStop
  rw [hrows]
  exact findIdx_append_cons hbefore hmatch

/-- `sto_set` writes the data of a row that has a key. -/
theorem rowsOf_of_keyed {file : Bytes} {call : SetCall} {before after : List Row} {old : Row}
    (fits : db.Fits) (whole : Whole db file) (hrow : call.row.length = db.dataSize)
    (hrows : rowsOf db file = before ++ old :: after)
    (hstop : searchStop db file call.key = before.length) (hfull : stoKeyEmpty old.key = false)
    (success : (call.run db file).1 ≠ -1) :
    Whole db (call.run db file).2.file ∧
      rowsOf db (call.run db file).2.file =
        before ++ { old with data := call.row } :: after := by
  obtain ⟨n, h⟩ := whole
  have hn : before.length < n := by
    rw [← length_rowsOf fits h, hrows, List.length_append, List.length_cons]
    omega
  have hkeeps : ¬ WritesKey db file call.key := by
    intro writes
    have hempty := writes old (by rw [hrows, hstop]; simp)
    rw [hfull] at hempty
    exact absurd hempty (by decide)
  have hpos : writePos db file call.key = before.length * db.rowSize + stoKeySize := by
    unfold writePos
    rw [hstop, rowCount_eq fits h, if_pos hn]
  have hfile : (call.run db file).2.file =
      writeAt file (writePos db file call.key) call.row :=
    (@file_of_success db (call.disk file) _ _ fits ⟨n, h⟩ success).2 hkeeps
  rw [hfile, hpos]
  exact ⟨⟨n, length_writeAt_data h hrow hn⟩, rowsOf_writeAt_data fits h hrow hrows⟩

/-- `sto_set` adds a row when no key of the store begins with its own. -/
theorem rowsOf_of_new {file : Bytes} {call : SetCall} (fits : db.Fits) (whole : Whole db file)
    (hrow : call.row.length = db.dataSize)
    (hnone : ∀ stored ∈ rowsOf db file,
      keyMatches call.key (strnlen call.key stoKeySize) stored.key = false)
    (success : (call.run db file).1 ≠ -1) :
    Whole db (call.run db file).2.file ∧
      rowsOf db (call.run db file).2.file =
        rowsOf db file ++ [{ key := storedKey call.key, data := call.row }] := by
  obtain ⟨n, h⟩ := whole
  have hstop : searchStop db file call.key = n :=
    (List.findIdx_eq_length_of_false hnone).trans (length_rowsOf fits h)
  have hwrites : WritesKey db file call.key := by
    intro stored hstored
    rw [hstop, List.getElem?_eq_none (Nat.le_of_eq (length_rowsOf fits h))] at hstored
    exact absurd hstored (by simp)
  have hpos : writePos db file call.key = n * db.rowSize := by
    unfold writePos
    rw [hstop, rowCount_eq fits h, if_neg (Nat.lt_irrefl n)]
  have hfile : (call.run db file).2.file =
      writeAt file (writePos db file call.key) (storedKey call.key ++ call.row) :=
    (@file_of_success db (call.disk file) _ _ fits ⟨n, h⟩ success).1 hwrites
  have hkey := length_storedKey call.key
  rw [hfile, hpos]
  exact ⟨⟨n + 1, length_writeAt_end fits h hkey hrow⟩, rowsOf_writeAt_end fits h hkey hrow⟩

/-- **A call that stands clear is `put`.** -/
theorem rowsOf_of_clear {file : Bytes} {call : SetCall} (fits : db.Fits) (tidy : Tidy db file)
    (hrow : call.row.length = db.dataSize) (clear : StandsClear db file call.key)
    (success : (call.run db file).1 ≠ -1) :
    Whole db (call.run db file).2.file ∧
      rowsOf db (call.run db file).2.file =
        put Row.key { key := storedKey call.key, data := call.row } (rowsOf db file) := by
  rcases clear with ⟨hmem, hfull⟩ | hnone
  · obtain ⟨own, hmem, hown⟩ := List.mem_map.mp hmem
    obtain ⟨before, after, hrows⟩ := List.append_of_mem hmem
    have hstop := searchStop_own tidy hrows hown
    have hnodup := tidy.nodup
    rw [hrows] at hnodup
    rw [hrows, put_append_cons hnodup hown, ← hown]
    exact rowsOf_of_keyed fits tidy.whole hrow hrows hstop (by rw [hown]; exact hfull) success
  · have hnot : storedKey call.key ∉ (rowsOf db file).map Row.key := by
      intro hmem
      obtain ⟨own, hmem, hown⟩ := List.mem_map.mp hmem
      have hfalse := hnone own hmem
      rw [hown, keyMatches_storedKey] at hfalse
      exact absurd hfalse (by decide)
    rw [put_of_not_mem hnot]
    exact rowsOf_of_new fits tidy.whole hrow hnone success

/-- A call that stands clear and succeeds touches its own row only. -/
theorem touchesOwn_of_clear {file file' : Bytes} {call : SetCall} (fits : db.Fits)
    (tidy : Tidy db file) (step : SetStep db file call file') (clear : StandsClear db file call.key)
    (success : (call.run db file).1 ≠ -1) :
    TouchesOwn db file call file' := by
  obtain ⟨hrow, rfl⟩ := step
  obtain ⟨_, hrows⟩ := rowsOf_of_clear fits tidy hrow clear success
  constructor
  · intro i stored hstored hkey
    rw [hrows]
    exact getElem?_put_of_ne hstored hkey
  · rw [hrows]
    exact @filter_put _ _ _ Row.key { key := storedKey call.key, data := call.row } _ tidy.nodup

/-- A call that keeps the rows apart keeps them findable. -/
theorem Tidy.step {file file' : Bytes} {call : SetCall} (fits : db.Fits) (tidy : Tidy db file)
    (step : SetStep db file call file') (apart : KeepsApart db file call) : Tidy db file' := by
  obtain ⟨hrow, rfl⟩ := step
  obtain ⟨clear, intact⟩ := apart
  by_cases failed : (call.run db file).1 = -1
  · have hfile : (call.run db file).2.file = file :=
      file_of_failed fits tidy.whole hrow intact failed
    rw [hfile]
    exact tidy
  · obtain ⟨whole, hrows⟩ := rowsOf_of_clear fits tidy hrow clear failed
    refine ⟨whole, ?_⟩
    rw [hrows, map_key_put]
    split
    next => exact tidy.unhidden
    next hnot =>
      rw [List.pairwise_append]
      refine ⟨tidy.unhidden, List.pairwise_singleton _ _, ?_⟩
      rintro earlier hmem later hlater
      obtain ⟨stored, hstored, rfl⟩ := List.mem_map.mp hmem
      rcases clear with ⟨hthere, _⟩ | hnone
      · exact absurd hthere hnot
      · exact ⟨call.key, (List.mem_singleton.mp hlater).symm, hnone stored hstored⟩

/-- **A key hidden by a longer one.**  The call writes to the row of that, and no
row of its own key is there after it. -/
theorem misses_own_of_hidden {file file' : Bytes} {call : SetCall} (fits : db.Fits)
    (tidy : Tidy db file) (step : SetStep db file call file')
    (absent : storedKey call.key ∉ (rowsOf db file).map Row.key)
    (hidden : ¬ StandsClear db file call.key)
    (success : (call.run db file).1 ≠ -1) :
    ¬ TouchesOwn db file call file' := by
  obtain ⟨hrow, rfl⟩ := step
  rcases forall_not_or_first
      (fun stored : Row => keyMatches call.key (strnlen call.key stoKeySize) stored.key)
      (rowsOf db file) with hnone | ⟨before, old, after, hrows, hbefore, hold⟩
  · exact absurd (.inr hnone) hidden
  · have hstop : searchStop db file call.key = before.length := by
      unfold searchStop
      rw [hrows]
      exact findIdx_append_cons hbefore hold
    have hfull : stoKeyEmpty old.key = false := by
      rw [← Bool.not_eq_true]
      intro hempty
      apply absent
      rw [← storedKey_of_matches_empty hempty hold, hrows]
      simp
    obtain ⟨_, hafter⟩ := rowsOf_of_keyed fits tidy.whole hrow hrows hstop hfull success
    have hkeys : (rowsOf db (call.run db file).2.file).map Row.key =
        (rowsOf db file).map Row.key := by
      rw [hafter, hrows]
      simp
    intro touches
    apply absent
    rw [← hkeys]
    have hmem : ({ key := storedKey call.key, data := call.row } : Row) ∈
        (rowsOf db (call.run db file).2.file).filter
          fun stored => stored.key = storedKey call.key := by
      rw [touches.own]
      exact List.mem_singleton_self _
    exact List.mem_map_of_mem (f := Row.key) (List.mem_of_mem_filter hmem)

/-! ## Histories -/

/-- After such a history every row is the one that the search for its key stops at. -/
theorem tidy_of_run {trace : List (SetCall × Bytes)} {file : Bytes} (fits : db.Fits)
    (run : Run (Guarded (SetStep db) (KeepsApart db)) [] trace file) : Tidy db file :=
  run.invariant (Tidy db) (fun _ _ _ tidy step => tidy.step fits step.1 step.2) (tidy_nil fits)

/-- **Own keys.**  In a history of calls that each find their own row or none,
every call that succeeds touches its own row only. -/
theorem sets_touch_own {trace : List (SetCall × Bytes)} {file : Bytes} (fits : db.Fits)
    (run : Run (Guarded (SetStep db) (KeepsApart db)) [] trace file) :
    ∀ step ∈ steps [] trace,
      (step.2.1.run db step.1).1 ≠ -1 → TouchesOwn db step.1 step.2.1 step.2.2 := by
  intro step hmem success
  obtain ⟨tidy, hstep, apart⟩ := run.of_mem_steps (Tidy db)
    (fun _ _ _ tidy step => tidy.step fits step.1 step.2) (tidy_nil fits) step hmem
  exact touchesOwn_of_clear fits tidy hstep apart.1 success

/-- The plane "A". -/
def setShort : SetCall := { key := [65], row := zeros 48 }

/-- The plane "AB". -/
def setLong : SetCall := { key := [65, 66], row := zeros 48 }

theorem short_then_long_touch_own :
    TouchesOwn rowsOf48 [] setShort (setShort.run rowsOf48 []).2.file ∧
      TouchesOwn rowsOf48 (setShort.run rowsOf48 []).2.file setLong
        (setLong.run rowsOf48 (setShort.run rowsOf48 []).2.file).2.file := by
  have hshort : KeepsApart rowsOf48 [] setShort := by
    refine ⟨.inr ?_, fun tears => absurd tears.fails (by decide)⟩
    rw [rowsOf_nil fits_rowsOf48]
    simp
  have hlong : KeepsApart rowsOf48 (setShort.run rowsOf48 []).2.file setLong := by
    refine ⟨.inr ?_, fun tears => absurd tears.fails ?_⟩
    · decide
    · simp [Disk.skip, Disk.fails, SetCall.disk, setLong]
  have touches := sets_touch_own fits_rowsOf48
    (.cons ⟨⟨length_zeros 48, rfl⟩, hshort⟩ (.cons ⟨⟨length_zeros 48, rfl⟩, hlong⟩ (.nil _)))
  exact ⟨touches (_, setShort, _) List.mem_cons_self (by decide),
    touches (_, setLong, _) (List.mem_cons_of_mem _ List.mem_cons_self) (by decide)⟩

/-- "AB" is set and then "A". -/
theorem short_overwrites_long :
    ¬ ∀ (db : StoDatabase) (trace : List (SetCall × Bytes)) (file : Bytes), db.Fits →
      Run (SetStep db) [] trace file → ∀ step ∈ steps [] trace,
        (step.2.1.run db step.1).1 ≠ -1 → TouchesOwn db step.1 step.2.1 step.2.2 := by
  intro htouches
  have hlong : SetStep rowsOf48 [] setLong (setLong.run rowsOf48 []).2.file :=
    ⟨length_zeros 48, rfl⟩
  have hshort : SetStep rowsOf48 (setLong.run rowsOf48 []).2.file setShort
      (setShort.run rowsOf48 (setLong.run rowsOf48 []).2.file).2.file := ⟨length_zeros 48, rfl⟩
  have hown := (htouches rowsOf48 _ _ fits_rowsOf48 (.cons hlong (.cons hshort (.nil _)))
    (_, setShort, _) (List.mem_cons_of_mem _ List.mem_cons_self) (by decide)).own
  have hnone : ((rowsOf rowsOf48
      (setShort.run rowsOf48 (setLong.run rowsOf48 []).2.file).2.file).filter
        fun stored => stored.key = storedKey setShort.key) = [] := by decide
  exact absurd (hnone.symm.trans hown) (by simp)

end AirTraffic.Storage
