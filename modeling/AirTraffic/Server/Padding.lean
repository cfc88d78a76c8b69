/-
  Server/Padding.lean --- what a plane is filed under.

  WHAT THIS FILE IS FOR.  `create_plane` leaves the padding behind the id as it
  finds it, and the key that `sto_set` takes from there runs on until the first
  NUL.  So a plane is filed under its id exactly if the first padding byte is
  zero (`storePlane_key_iff`), and in a run every plane is filed under its id
  exactly if that is so for every plane created (`filedById_iff`).
-/
import AirTraffic.Server.Board

set_option autoImplicit false

namespace AirTraffic.Server

open AirTraffic.Foundation AirTraffic.Storage AirTraffic.Atcd AirTraffic.Protocol

/-- Every row is filed under the id of its plane, padded, and no two rows have
one id. -/
structure World.FiledById (w : World) : Prop where
  key : ∀ row ∈ rowsOf planesDb w.disk.file, row.key = (planeOf row).key
  distinct : (w.planes.map AtcPlane.id).Nodup

/-- The key under which a new row is filed is the id of its plane exactly if the
first padding byte is zero. -/
theorem storePlane_key_iff {file : Bytes} {fleet : List AtcPlane} {plane : AtcPlane}
    (lists : Lists file fleet) (hfree : NulFree plane.id.toList)
    (hnew : slotOf file plane = none) :
    ∃ file' row, (storePlane plane (Disk.sound file)).2 = Disk.sound file' ∧
      rowsOf planesDb file' = rowsOf planesDb file ++ [row] ∧ row.data = plane.bytes ∧
      (row.key = plane.key ↔ plane.pad.head = 0) := by
  obtain ⟨file', _, hstore, _, _, hrows⟩ := storePlane_lists lists hfree
  rw [slotOf, Option.map_eq_none_iff] at hnew
  rcases setRows_cases plane (rowsOf planesDb file) with
    ⟨_, hset⟩ | ⟨_, old, _, _, _, hfind, _⟩
  · exact ⟨file', _, by rw [hstore], hrows.trans hset, rfl, storedKey_bytes_iff hfree⟩
  · rw [hnew] at hfind
    exact absurd hfind (by simp)

/-- A row that is filed under its id answers only to planes without padding
behind theirs. -/
theorem pad_of_answers {plane : AtcPlane} {row : Row} (hfree : NulFree plane.id.toList)
    (hkey : row.key = (planeOf row).key) (h : answers plane row = true) :
    plane.pad.head = 0 := by
  by_contra hpad
  have hlong : 7 ≤ strnlen plane.bytes stoKeySize := by
    have hle := le_strnlen_bytes hfree
    have hne : strnlen plane.bytes stoKeySize ≠ 6 := fun h => hpad ((strnlen_bytes hfree).mp h)
    omega
  obtain ⟨rest, hbytes⟩ := bytes_eq_id_append plane
  have htake := congrArg (fun key => (key.take 7)[6]?) ((answers_iff_take plane row).mp h)
  simp only [List.take_take, Nat.min_eq_left hlong, List.getElem?_take] at htake
  have hnul : row.key[6]? = some 0 := by
    rw [hkey, AtcPlane.key, nulPad, List.getElem?_append_right (by rw [length_id]), length_id]
    rfl
  have hbyte : plane.bytes[6]? = some plane.pad.head := by
    rw [hbytes, List.getElem?_append_right (by rw [length_id]), length_id]
    rfl
  rw [hnul, hbyte] at htake
  exact hpad (by simpa using htake.symm)

section Padding

variable [Platform]

/-- A step in which a poll adds no row. -/
def RowsKept (w : World) (e : Event) (w' : World) : Prop :=
  Step w e w' ∧ (e.action = .poll → w'.planes.map AtcPlane.id = w.planes.map AtcPlane.id)

omit [Platform] in
theorem filedById_of_holds {w : World} (holds : Holds w.disk.file w.planes) :
    w.FiledById where
  key := by
    rw [holds.rows]
    intro row hmem
    obtain ⟨plane, _, rfl⟩ := List.mem_map.mp hmem
    rw [planeOf_rowOf]
    rfl
  distinct := holds.distinct

/-- What a creation that is not refused does to the rows. -/
theorem rows_of_create {w w' : World} {e : Event} (inv : w.Inv) (step : Step w e w')
    (hcreate : e.action = .create)
    (hroom : (w.counters e.client).planesCount ≠ Int32.ofNat maxPlanes) :
    let plane := newPlane e.moment.chance e.moment.now
    rowsOf planesDb w'.disk.file =
      setRows plane.bytes plane.bytes (rowsOf planesDb w.disk.file) := by
  intro plane
  obtain ⟨_, res, worker, hserve, hw'⟩ := step.cases
  have hreq : reqOverWire e.action.req = (Action.create).req := by
    rw [hcreate]
    rfl
  obtain ⟨file', _, hstore, _, _, hrows⟩ := storePlane_lists inv.lists
    (nulFree_newPlane e.moment.chance e.moment.now)
  rw [hreq, Action.req, serve_createPlane, createPlane, if_neg hroom,
    Disk.eq_sound inv.sound, hstore] at hserve
  obtain ⟨rfl, rfl⟩ := Prod.mk.inj (Option.some.inj hserve)
  rw [hw']
  exact hrows

/-- A step to a world in which every plane is filed under its id made no plane
that is not. -/
theorem cleanPadding_of_filedById {w w' : World} {e : Event} (clean : w.Clean)
    (step : Step w e w') (filed : w'.FiledById) : CleanPadding w e := by
  intro hcreate hroom
  have hfree := nulFree_newPlane e.moment.chance e.moment.now
  have hrows := rows_of_create clean.toInv step hcreate hroom
  have hpad : (newPlane e.moment.chance e.moment.now).pad = e.moment.chance.pad := rfl
  rw [← hpad]
  rcases setRows_cases (newPlane e.moment.chance e.moment.now)
      (rowsOf planesDb w.disk.file) with
    ⟨_, hset⟩ | ⟨before, old, after, hold, hanswers, _, _⟩
  · have hkey := filed.key _ (by rw [hrows, hset]; exact List.mem_concat_self)
    rw [planeOf_data] at hkey
    exact (storedKey_bytes_iff hfree).mp hkey
  · exact pad_of_answers hfree
      ((filedById_of_holds clean.holds).key old (by rw [hold]; simp)) hanswers

/-- In a world in which every plane is filed under its id, one step keeps that
exactly if it makes no plane with padding behind its id. -/
theorem filedById_step_iff {w w' : World} {e : Event} (clean : w.Clean) (step : Step w e w') :
    w'.FiledById ↔ CleanPadding w e :=
  ⟨cleanPadding_of_filedById clean step,
    fun hpad => filedById_of_holds (step.clean clean hpad).1⟩

/-- A poll of a world in which every plane is filed under its id adds no row. -/
theorem rowsKept_of_clean {w w' : World} {e : Event} (clean : w.Clean)
    (step : CleanStep w e w') : RowsKept w e w' := by
  refine ⟨step.1, fun hpoll => ?_⟩
  obtain ⟨_, hplanes, _⟩ := step.1.clean clean step.2
  simp only [Board.planesAfter, hpoll] at hplanes
  have hid : AtcPlane.id ∘ polled e.moment.now = AtcPlane.id :=
    funext fun plane => polled_id e.moment.now plane
  rw [hplanes, List.map_map, hid]
  rfl

theorem rowsKept_of_cleanRun {w w' : World} {trace : List (Event × World)} (clean : w.Clean)
    (run : Run CleanStep w trace w') : Run RowsKept w trace w' := by
  induction run with
  | nil w => exact .nil w
  | cons step _ ih => exact .cons (rowsKept_of_clean clean step) (ih (clean.step step))

end Padding

/-! ## A plane with padding behind its id -/

/-- A plane is made where the stack held a one. -/
def paddedCreate : Event where
  client := 0
  moment := { now := 0, chance := { Chance.zero with pad := ⟨[1, 0], rfl⟩ } }
  action := .create

/-- The plane that is made. -/
def paddedPlane : AtcPlane := newPlane paddedCreate.moment.chance 0

theorem exists_paddedCreate : ∃ (_ : Platform) (w : World),
    Step (World.initial 0) paddedCreate w ∧
      rowsOf planesDb w.disk.file =
        [{ key := storedKey paddedPlane.bytes, data := paddedPlane.bytes }] := by
  let _ : Platform := x86
  have inv := inv_initial 0
  obtain ⟨w, step⟩ : ∃ w, Step (World.initial 0) paddedCreate w :=
    inv.serves (by decide) trivial
  have hrows : rowsOf planesDb w.disk.file = setRows paddedPlane.bytes paddedPlane.bytes
      (rowsOf planesDb (World.initial 0).disk.file) := rows_of_create inv step rfl (by decide)
  have hnone : rowsOf planesDb (World.initial 0).disk.file = [] := rowsOf_nil fits_planes
  rw [hnone] at hrows
  refine ⟨x86, w, step, hrows.trans ?_⟩
  rcases setRows_cases paddedPlane [] with ⟨_, hset⟩ | ⟨before, _, _, hnil, _⟩
  · exact hset
  · exact absurd hnil (by simp)

/-! ## Runs -/

/-- **When a plane is its id.**  The key of a plane is its id, padded, exactly if
the first padding byte is zero; and throughout a run every row is filed under the
id of its plane, no two under one, and polls add none, exactly if that byte is
zero for every plane created. -/
theorem filedById_iff [Platform] :
    (∀ (plane : AtcPlane) (file : Bytes) (fleet : List AtcPlane),
      NulFree plane.id.toList → Lists file fleet → slotOf file plane = none →
      ∃ file' row, (storePlane plane (Disk.sound file)).2 = Disk.sound file' ∧
        rowsOf planesDb file' = rowsOf planesDb file ++ [row] ∧ row.data = plane.bytes ∧
        (row.key = plane.key ↔ plane.pad.head = 0)) ∧
    ∀ (start : Int64) (trace : List (Event × World)) (w : World),
      Run Step (World.initial start) trace w →
      ((∀ v ∈ states (World.initial start) trace, v.FiledById) ∧
          Run RowsKept (World.initial start) trace w ↔
        Run CleanStep (World.initial start) trace w) := by
  refine ⟨fun plane file fleet hfree lists hnew => storePlane_key_iff lists hfree hnew, ?_⟩
  intro start trace w run
  have hiff := Run.forall_states_iff World.Clean World.FiledById CleanPadding
    (fun _ _ _ clean step hpad => clean.step ⟨step, hpad⟩)
    (fun _ _ _ clean _ step => filedById_step_iff clean step) run (clean_initial start)
    (filedById_of_holds (clean_initial start).holds)
  constructor
  · rintro ⟨hfiled, _⟩
    exact hiff.mp hfiled
  · intro hclean
    exact ⟨hiff.mpr hclean, rowsKept_of_cleanRun (clean_initial start) hclean⟩

theorem filedById_iff_paddedCreate :
    ∃ (_ : Platform) (w : World),
      Run Step (World.initial 0) [(paddedCreate, w)] w ∧
        ((∀ v ∈ states (World.initial 0) [(paddedCreate, w)], v.FiledById) ∧
            Run RowsKept (World.initial 0) [(paddedCreate, w)] w ↔
          Run CleanStep (World.initial 0) [(paddedCreate, w)] w) := by
  obtain ⟨platform, w, step, _⟩ := exists_paddedCreate
  have run : Run Step (World.initial 0) [(paddedCreate, w)] w := .cons step (.nil w)
  exact ⟨platform, w, run, filedById_iff.2 0 _ w run⟩

/-- The padding gets into the key. -/
theorem paddedCreate_key :
    ∃ (_ : Platform) (w : World), Step (World.initial 0) paddedCreate w ∧
      ∃ row ∈ rowsOf planesDb w.disk.file, row.key ≠ (planeOf row).key := by
  obtain ⟨platform, w, step, hrows⟩ := exists_paddedCreate
  refine ⟨platform, w, step, _, by rw [hrows]; exact List.mem_singleton_self _, ?_⟩
  have hfree : NulFree paddedPlane.id.toList := nulFree_newPlane _ _
  have hpad : paddedPlane.pad.head ≠ 0 := by decide
  rw [planeOf_data]
  exact fun hkey => hpad ((storedKey_bytes_iff hfree).mp hkey)

end AirTraffic.Server
