/-
  Atcd/Creation.lean --- creating planes one after the other.

  WHAT THIS FILE IS FOR.  `create_plane` seeds the generator with the time, draws an
  id and stores the plane under it, and `sto_set` renews a row that it finds.  So a
  second call in the same second draws the same id, and what decides whether it finds
  the row of the first one is the padding behind the two ids.  `creations_add_iff`
  says in which runs every call adds a row.

  THE GENERATOR.  `srand` and `rand` are a function from seeds to draws.  There are
  more seeds than ids, so that different seeds give different ids can only be asked
  of the instants of a run.
-/
import AirTraffic.Storage.OwnKey
import AirTraffic.Atcd.Ledger

set_option autoImplicit false

namespace AirTraffic.Atcd

open AirTraffic.Foundation AirTraffic.Storage

/-! ## Runs of `create_plane` -/

/-- The results of `rand()` after `srand` of a seed, in order. -/
abbrev Generator : Type := UInt32 → Nat → Nat

/-- The argument of `srand(time(NULL))`. -/
def seedOf (time : Int64) : UInt32 := time.toUInt64.toUInt32

/-- A call of `create_plane`: what its two calls of `time` return, the padding of its
local, and the counters of the process it is in. -/
structure Birth where
  seeded : Int64
  now : Int64
  pad : List.Vector UInt8 2
  counters : Counters

/-- What it draws. -/
def Birth.chance (gen : Generator) (birth : Birth) : Chance where
  rand := gen (seedOf birth.seeded)
  pad := birth.pad

/-- The plane it makes. -/
def Birth.plane (gen : Generator) (birth : Birth) : AtcPlane :=
  newPlane (birth.chance gen) birth.now

/-- It does not return at once. -/
def Birth.BelowCap (birth : Birth) : Prop :=
  birth.counters.planesCount ≠ Int32.ofNat maxPlanes

instance (birth : Birth) : Decidable birth.BelowCap :=
  inferInstanceAs (Decidable (_ ≠ _))

/-- The planes file, and the calls below the cap that it has seen. -/
structure Nursery where
  file : Bytes
  made : List Birth

/-- The store before the first plane. -/
def Nursery.empty : Nursery where
  file := []
  made := []

/-- One call of `create_plane`, by whichever process, at an instant of the period.
Clients that overlap may store in another order than they look at the clock. -/
inductive CreateStep (gen : Generator) (period : Int64 → Prop) :
    Nursery → Birth → Nursery → Prop
  | create (s : Nursery) (birth : Birth) (instant : period birth.seeded) :
      CreateStep gen period s birth
        { file := (createPlane (birth.chance gen) birth.now birth.counters
            (Disk.sound s.file)).file
          made := if birth.BelowCap then s.made ++ [birth] else s.made }

/-- The id that a seed gives. -/
def idOf (gen : Generator) (seed : UInt32) : List.Vector UInt8 6 :=
  (newPlane { rand := gen seed, pad := List.Vector.replicate 2 0 } 0).id

/-- Different seeds give different ids, as far as the period goes. -/
def Distinguishes (gen : Generator) (period : Int64 → Prop) : Prop :=
  ∀ a b, period a → period b → idOf gen (seedOf a) = idOf gen (seedOf b) → seedOf a = seedOf b

/-- A call below the cap adds one row, that of its plane, and leaves the others. -/
def Adds (gen : Generator) (s : Nursery) (birth : Birth) (t : Nursery) : Prop :=
  birth.BelowCap → ∃ row, row.data = (birth.plane gen).bytes ∧
    rowsOf planesDb t.file = rowsOf planesDb s.file ++ [row]

/-- The padding of an earlier plane begins with that of a later one, up to its first
NUL. -/
def PadExtends (earlier later : List.Vector UInt8 2) : Prop :=
  earlier.toList.take (strnlen later.toList 2) = later.toList.take (strnlen later.toList 2)

instance (earlier later : List.Vector UInt8 2) : Decidable (PadExtends earlier later) :=
  inferInstanceAs (Decidable (_ = _))

/-- No plane was made from the same seed with padding that extends this one's. -/
def Apart (s : Nursery) (birth : Birth) : Prop :=
  birth.BelowCap → ∀ earlier ∈ s.made, seedOf earlier.seeded = seedOf birth.seeded →
    ¬ PadExtends earlier.pad birth.pad

/-! ## Keys of new planes -/

/-- The row of a plane that was made. -/
def Birth.row (gen : Generator) (birth : Birth) : Row where
  key := storedKey (birth.plane gen).bytes
  data := (birth.plane gen).bytes

/-- The memory of a plane as far as a key can go. -/
theorem bytes_eq_key_append (plane : AtcPlane) :
    ∃ rest, plane.bytes =
      plane.id.toList ++ (plane.pad.toList ++ (int32LE plane.x ++ int32LE plane.y ++ rest)) := by
  rw [AtcPlane.bytes]
  simp only [List.append_assoc]
  exact ⟨_, rfl⟩

/-- How much of two strings of one id and one place is compared: the padding, and if
that has no NUL more of the same. -/
theorem take_pad_iff {earlier later : List.Vector UInt8 2} {place : Bytes} (rest rest' : Bytes)
    (hplace : place.length = 8) :
    (earlier.toList ++ (place ++ rest)).take (strnlen (later.toList ++ (place ++ rest')) 10) =
        (later.toList ++ (place ++ rest')).take (strnlen (later.toList ++ (place ++ rest')) 10) ↔
      PadExtends earlier later := by
  have hearlier := earlier.toList_length
  have hlater := later.toList_length
  have hcounted := strnlen_le later.toList 2
  unfold PadExtends
  rcases Nat.lt_or_eq_of_le hcounted with hlt | hfull
  · have hcount : strnlen (later.toList ++ (place ++ rest')) 10 = strnlen later.toList 2 := by
      have happend := strnlen_append_of_lt (s := later.toList) (by rwa [hlater])
        (place ++ rest') (n := 10) (by omega)
      rwa [hlater] at happend
    rw [hcount, List.take_append_of_le_length (by omega), List.take_append_of_le_length (by omega)]
  · have hfree : NulFree later.toList := nulFree_of_strnlen (by rwa [hlater])
    have hcount : strnlen (later.toList ++ (place ++ rest')) 10 =
        2 + strnlen (place ++ rest') 8 := by
      have happend := strnlen_append hfree (place ++ rest') 8
      rwa [hlater] at happend
    have hle := strnlen_le (place ++ rest') 8
    generalize strnlen (place ++ rest') 8 = k at hcount hle
    have hpad : ∀ (v : List.Vector UInt8 2) (u : Bytes),
        (v.toList ++ (place ++ u)).take (2 + k) = v.toList ++ place.take k := by
      intro v u
      have hv := v.toList_length
      rw [List.take_append, hv, List.take_of_length_le (by omega), Nat.add_sub_cancel_left,
        List.take_append_of_le_length (by omega)]
    have hwhole : ∀ v : List.Vector UInt8 2, v.toList.take 2 = v.toList := fun v =>
      List.take_of_length_le (Nat.le_of_eq v.toList_length)
    rw [hcount, hfull, hpad, hpad, hwhole, hwhole]
    exact List.append_left_inj _

section Births

variable {gen : Generator} {earlier later : Birth}

theorem id_plane (gen : Generator) (birth : Birth) :
    (birth.plane gen).id = idOf gen (seedOf birth.seeded) := rfl

theorem filed_row (gen : Generator) (birth : Birth) : Filed (birth.row gen) := by
  have hfree := nulFree_newPlane (birth.chance gen) birth.now
  have hempty := @filed_setRows [] (birth.plane gen) (by simp) hfree
  refine hempty _ ?_
  rcases setRows_cases (birth.plane gen) [] with ⟨_, hset⟩ | ⟨before, old, after, hrows, _⟩
  · rw [hset]
    exact List.mem_singleton.mpr rfl
  · exact absurd hrows (by simp)

/-- From one seed come one id and one place, so the padding decides. -/
theorem answers_row_of_seed (hseed : seedOf earlier.seeded = seedOf later.seeded) :
    answers (later.plane gen) (earlier.row gen) = true ↔ PadExtends earlier.pad later.pad := by
  have hid : (earlier.plane gen).id = (later.plane gen).id := by
    rw [id_plane, id_plane, hseed]
  have hx : (earlier.plane gen).x = (later.plane gen).x := by
    simp only [Birth.plane, Birth.chance, newPlane, hseed]
  have hy : (earlier.plane gen).y = (later.plane gen).y := by
    simp only [Birth.plane, Birth.chance, newPlane, hseed]
  have hfree := nulFree_newPlane (later.chance gen) later.now
  obtain ⟨rest, hearlier⟩ := bytes_eq_key_append (earlier.plane gen)
  obtain ⟨rest', hlater⟩ := bytes_eq_key_append (later.plane gen)
  rw [hid, hx, hy] at hearlier
  have hcount : strnlen (later.plane gen).bytes stoKeySize =
      6 + strnlen (later.pad.toList ++ (int32LE (later.plane gen).x ++
        int32LE (later.plane gen).y ++ rest')) 10 := by
    have happend := strnlen_append hfree ((later.plane gen).pad.toList ++
      (int32LE (later.plane gen).x ++ int32LE (later.plane gen).y ++ rest')) 10
    rw [length_id] at happend
    rw [hlater]
    exact happend
  have htake : ∀ (k : Nat) (u : Bytes), ((later.plane gen).id.toList ++ u).take (6 + k) =
      (later.plane gen).id.toList ++ u.take k := by
    intro k u
    have hlength := length_id (later.plane gen)
    rw [List.take_append, hlength, List.take_of_length_le (by omega), Nat.add_sub_cancel_left]
  rw [answers, Birth.row, keyMatches_storedKey_iff, hcount, hearlier, hlater, htake, htake,
    List.append_right_inj]
  exact take_pad_iff rest rest' (by simp)

/-- A plane made before answers to a new one if it comes from the same seed and its
padding extends the new one's. -/
theorem answers_row_iff {period : Int64 → Prop} (distinct : Distinguishes gen period)
    (hearlier : period earlier.seeded) (hlater : period later.seeded) :
    answers (later.plane gen) (earlier.row gen) = true ↔
      seedOf earlier.seeded = seedOf later.seeded ∧ PadExtends earlier.pad later.pad := by
  constructor
  · intro h
    have hid := (filed_row gen earlier).id_eq
      (nulFree_newPlane (later.chance gen) later.now) h
    have hplane : planeOf (earlier.row gen) = earlier.plane gen := planeOf_data _ _
    rw [hplane, id_plane] at hid
    have hseed := distinct _ _ hearlier hlater hid
    exact ⟨hseed, (answers_row_of_seed hseed).mp h⟩
  · rintro ⟨hseed, hpad⟩
    exact (answers_row_of_seed hseed).mpr hpad

end Births

/-! ## Runs that add -/

/-- The file has one row for each plane that was made. -/
structure Kept (gen : Generator) (period : Int64 → Prop) (s : Nursery) : Prop where
  whole : Whole planesDb s.file
  rows : rowsOf planesDb s.file = s.made.map (Birth.row gen)
  within : ∀ birth ∈ s.made, period birth.seeded

section Creation

variable {gen : Generator} {period : Int64 → Prop} {s t : Nursery} {birth : Birth}

theorem kept_empty (gen : Generator) (period : Int64 → Prop) :
    Kept gen period Nursery.empty where
  whole := whole_nil planesDb
  rows := rowsOf_nil fits_planes
  within := by simp [Nursery.empty]

theorem Kept.lists (kept : Kept gen period s) :
    Lists s.file ((rowsOf planesDb s.file).map planeOf) where
  whole := kept.whole
  planes := rfl
  filed := by
    rw [kept.rows]
    intro row hmem
    obtain ⟨earlier, _, rfl⟩ := List.mem_map.mp hmem
    exact filed_row gen earlier

/-- The rows after a call below the cap. -/
theorem rows_of_create (kept : Kept gen period s) (step : CreateStep gen period s birth t)
    (below : birth.BelowCap) :
    Whole planesDb t.file ∧ rowsOf planesDb t.file =
      setRows (birth.plane gen).bytes (birth.plane gen).bytes (rowsOf planesDb s.file) := by
  obtain ⟨_⟩ := step
  obtain ⟨file', _, hstore, lists', _, hrows⟩ := storePlane_lists kept.lists
    (nulFree_newPlane (birth.chance gen) birth.now)
  have hfile : (createPlane (birth.chance gen) birth.now birth.counters
      (Disk.sound s.file)).file = file' := by
    rw [createPlane, if_neg below, hstore]
  dsimp only
  rw [hfile]
  exact ⟨lists'.whole, hrows⟩

/-- No row answers to the plane of a call that stands apart. -/
theorem apart_iff_answers (distinct : Distinguishes gen period) (kept : Kept gen period s)
    (instant : period birth.seeded) (below : birth.BelowCap) :
    Apart s birth ↔
      ∀ row ∈ rowsOf planesDb s.file, answers (birth.plane gen) row = false := by
  have hanswers : ∀ earlier ∈ s.made, answers (birth.plane gen) (earlier.row gen) = false ↔
      (seedOf earlier.seeded = seedOf birth.seeded → ¬ PadExtends earlier.pad birth.pad) := by
    intro earlier hmem
    rw [← Bool.not_eq_true, answers_row_iff distinct (kept.within earlier hmem) instant, not_and]
  rw [kept.rows, List.forall_mem_map, Apart, imp_iff_right below]
  exact forall₂_congr fun earlier hmem => (hanswers earlier hmem).symm

theorem period_of_step (step : CreateStep gen period s birth t) : period birth.seeded := by
  obtain ⟨instant⟩ := step
  exact instant

/-- A call that stands apart appends the row of its plane. -/
theorem rows_of_apart (distinct : Distinguishes gen period) (kept : Kept gen period s)
    (step : CreateStep gen period s birth t) (below : birth.BelowCap) (apart : Apart s birth) :
    rowsOf planesDb t.file = rowsOf planesDb s.file ++ [birth.row gen] := by
  have hnone := (apart_iff_answers distinct kept (period_of_step step) below).mp apart
  rw [(rows_of_create kept step below).2]
  rcases setRows_cases (birth.plane gen) (rowsOf planesDb s.file) with
    ⟨_, hset⟩ | ⟨before, old, after, hold, hanswer, _, _⟩
  · exact hset
  · rw [hnone old (by rw [hold]; simp)] at hanswer
    exact absurd hanswer (by decide)

/-- A call that does not renews a row. -/
theorem length_rows_of_not_apart (distinct : Distinguishes gen period)
    (kept : Kept gen period s) (step : CreateStep gen period s birth t) (below : birth.BelowCap)
    (meets : ¬ Apart s birth) :
    (rowsOf planesDb t.file).length = (rowsOf planesDb s.file).length := by
  rw [apart_iff_answers distinct kept (period_of_step step) below] at meets
  rw [(rows_of_create kept step below).2]
  rcases setRows_cases (birth.plane gen) (rowsOf planesDb s.file) with
    ⟨hnone, _⟩ | ⟨before, old, after, hold, _, _, hset⟩
  · rw [List.find?_eq_none] at hnone
    exact absurd (fun row hmem => Bool.eq_false_of_not_eq_true (hnone row hmem)) meets
  · rw [hset, hold, List.length_append, List.length_append, List.length_cons, List.length_cons]

/-- One call. -/
theorem adds_iff (distinct : Distinguishes gen period) (kept : Kept gen period s)
    (step : CreateStep gen period s birth t) : Adds gen s birth t ↔ Apart s birth := by
  constructor
  · intro adds below
    obtain ⟨row, _, hadd⟩ := adds below
    by_contra meets
    have hlength := length_rows_of_not_apart distinct kept step below fun apart =>
      meets (apart below)
    rw [hadd, List.length_append, List.length_singleton] at hlength
    omega
  · intro apart below
    exact ⟨birth.row gen, rfl, rows_of_apart distinct kept step below apart⟩

/-- A call that stands apart leaves one row for each plane. -/
theorem Kept.step (distinct : Distinguishes gen period) (kept : Kept gen period s)
    (step : CreateStep gen period s birth t) (apart : Apart s birth) : Kept gen period t := by
  by_cases below : birth.BelowCap
  · have hrows := rows_of_apart distinct kept step below apart
    have instant := period_of_step step
    have hmade : t.made = s.made ++ [birth] := by
      obtain ⟨_⟩ := step
      exact if_pos below
    refine ⟨(rows_of_create kept step below).1, ?_, ?_⟩
    · rw [hrows, hmade, List.map_append, ← kept.rows]
      rfl
    · rw [hmade]
      intro other hmem
      rcases List.mem_append.mp hmem with hmem | hmem
      · exact kept.within other hmem
      · obtain rfl := List.mem_singleton.mp hmem
        exact instant
  · obtain ⟨_⟩ := step
    have hfile : (createPlane (birth.chance gen) birth.now birth.counters
        (Disk.sound s.file)).file = s.file := by
      rw [createPlane, if_pos (not_not.mp below)]
    refine ⟨?_, ?_, ?_⟩
    · rw [hfile]
      exact kept.whole
    · rw [hfile, if_neg below]
      exact kept.rows
    · rw [if_neg below]
      exact kept.within

/-- **When creating planes adds planes.**  In a run of `create_plane` every call below
the cap adds a row exactly if each of them finds no plane of its own second with
padding that extends its own. -/
theorem creations_add_iff (distinct : Distinguishes gen period) {trace : List (Birth × Nursery)}
    (run : Run (CreateStep gen period) Nursery.empty trace t) :
    (∀ step ∈ steps Nursery.empty trace, Adds gen step.1 step.2.1 step.2.2) ↔
      Run (Guarded (CreateStep gen period) Apart) Nursery.empty trace t :=
  run.forall_steps_iff_guarded (Kept gen period) (Adds gen) Apart
    (fun _ _ _ kept step apart => kept.step distinct step apart)
    (fun _ _ _ kept step => adds_iff distinct kept step) (kept_empty gen period)

end Creation

/-! ## Two clients in one second -/

/-- A generator that repeats its seed. -/
def constantDraws : Generator := fun seed _ => seed.toNat

/-- The clients create planes when they start and 21 seconds later. -/
def Ticks (time : Int64) : Prop := time = 0 ∨ time = 21

theorem distinguishes_constantDraws : Distinguishes constantDraws Ticks := by
  rintro a b (rfl | rfl) (rfl | rfl)
  · exact fun _ => rfl
  · decide
  · decide
  · exact fun _ => rfl

/-- A call at a time, with zero padding. -/
def birthAt (time : Int64) : Birth where
  seeded := time
  now := time
  pad := List.Vector.replicate 2 0
  counters := {}

/-- Three calls: one at the start and two at the tick. -/
theorem exists_births :
    ∃ first second third : Nursery,
      CreateStep constantDraws Ticks Nursery.empty (birthAt 0) first ∧
        CreateStep constantDraws Ticks first (birthAt 21) second ∧
          CreateStep constantDraws Ticks second (birthAt 21) third :=
  ⟨_, _, _, .create _ (birthAt 0) (.inl rfl), .create _ (birthAt 21) (.inr rfl),
    .create _ (birthAt 21) (.inr rfl)⟩

theorem creations_add_iff_births :
    ∃ first second third : Nursery,
      (∀ step ∈ steps Nursery.empty
          [(birthAt 0, first), (birthAt 21, second), (birthAt 21, third)],
        Adds constantDraws step.1 step.2.1 step.2.2) ↔
      Run (Guarded (CreateStep constantDraws Ticks) Apart) Nursery.empty
        [(birthAt 0, first), (birthAt 21, second), (birthAt 21, third)] third := by
  obtain ⟨first, second, third, start, tick, again⟩ := exists_births
  exact ⟨first, second, third, creations_add_iff distinguishes_constantDraws
    (.cons start (.cons tick (.cons again (.nil third))))⟩

/-- The second call of a second renews the row of the first one. -/
theorem same_second_renews :
    ¬ ∀ (gen : Generator) (period : Int64 → Prop), Distinguishes gen period →
      ∀ (trace : List (Birth × Nursery)) (t : Nursery),
        Run (CreateStep gen period) Nursery.empty trace t →
          (trace.map fun entry => entry.1.now).Pairwise (· ≤ ·) →
            (∀ entry ∈ trace, entry.1.seeded = entry.1.now) →
              ∀ step ∈ steps Nursery.empty trace, Adds gen step.1 step.2.1 step.2.2 := by
  intro adds
  obtain ⟨first, second, third, start, tick, again⟩ := exists_births
  have hall := adds constantDraws Ticks distinguishes_constantDraws _ third
    (.cons start (.cons tick (.cons again (.nil third))))
    (by simp only [List.map_cons, List.map_nil, birthAt]; decide) (by simp [birthAt])
  have kept := kept_empty constantDraws Ticks
  have hfirst := (adds_iff distinguishes_constantDraws kept start).mp
    (hall (Nursery.empty, birthAt 0, first) (by simp [steps]))
  have keptFirst := kept.step distinguishes_constantDraws start hfirst
  have hsecond := (adds_iff distinguishes_constantDraws keptFirst tick).mp
    (hall (first, birthAt 21, second) (by simp [steps]))
  have keptSecond := keptFirst.step distinguishes_constantDraws tick hsecond
  have hthird := (adds_iff distinguishes_constantDraws keptSecond again).mp
    (hall (second, birthAt 21, third) (by simp [steps]))
  have below : (birthAt 21).BelowCap := by decide
  have hmem : birthAt 21 ∈ second.made := by
    obtain ⟨_⟩ := tick
    rw [if_pos below]
    simp
  exact hthird below _ hmem rfl (by decide)

end AirTraffic.Atcd
