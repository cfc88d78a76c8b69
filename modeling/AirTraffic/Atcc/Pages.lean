/-
  Atcc/Pages.lean --- Enter stays in the array.

  WHAT THIS FILE IS FOR.  The row that Enter takes need not be on the list, but it is
  always in the array of the planes.  The list has as many planes as the array at most,
  so the last page that can be turned to ends with the array, even when the list has
  become shorter since (`input_in_array`).
-/
import AirTraffic.Atcc.Input

set_option autoImplicit false

namespace AirTraffic.Atcc

open AirTraffic.Foundation AirTraffic.Atcd

/-- The array has room for the list. -/
def ListFits (_ : Client) : ClientEvent → Prop
  | .key _ => True
  | .refresh answers => answers.planesNum ≤ maxPlanes

/-- If the event makes a call of `set`, the plane comes from the array. -/
def TakesFromArray (c : Client) : ClientEvent → Prop
  | .key ch => ∀ call, (input ch c).2 = some call →
      (0 ≤ call.index ∧ call.index < maxPlanes) ∧ call.plane = c.state.planes call.index
  | .refresh _ => True

/-- The page is one of five, and the digit one of ten. -/
structure InPages (c : Client) : Prop where
  page : 0 ≤ c.ui.curPage ∧ c.ui.curPage ≤ 4
  plane : -1 ≤ c.ui.curPlane ∧ c.ui.curPlane ≤ 9
  num : c.state.planesNum ≤ maxPlanes

theorem InPages.start {state : AtcState} (fits : state.planesNum ≤ maxPlanes) :
    InPages (Client.start state) where
  page := ⟨Int.le_refl 0, (by decide : (0 : Int) ≤ 4)⟩
  plane := ⟨Int.le_refl (-1), (by decide : (-1 : Int) ≤ 9)⟩
  num := fits

/-- There is no page behind the fifth one. -/
theorem InPages.key {c : Client} (h : InPages c) {ch : Int} {result : Client × Option SetCall}
    (key : Key c ch result) : InPages result.1 := by
  obtain ⟨⟨hfirst, hlast⟩, hplane, hnum⟩ := h
  cases key with
  | plane digit unset below =>
      obtain ⟨hlow, hhigh⟩ := digit
      refine ⟨⟨hfirst, hlast⟩, ?_, hnum⟩
      show -1 ≤ ch - 48 ∧ ch - 48 ≤ 9
      omega
  | back key page line =>
      refine ⟨?_, hplane, hnum⟩
      show 0 ≤ c.ui.curPage - 1 ∧ c.ui.curPage - 1 ≤ 4
      omega
  | forward key page line =>
      have hmore := (hasNextPage_iff c).mp page
      have hmax : (maxPlanes : Int) = 50 := rfl
      refine ⟨?_, hplane, hnum⟩
      show 0 ≤ c.ui.curPage + 1 ∧ c.ui.curPage + 1 ≤ 4
      rw [planesPerPage] at hmore
      omega
  | enter key command selected line =>
      exact ⟨⟨hfirst, hlast⟩, ⟨Int.le_refl (-1), (by decide : (-1 : Int) ≤ 9)⟩, hnum⟩
  | cmd | ignored => exact ⟨⟨hfirst, hlast⟩, hplane, hnum⟩

theorem InPages.refresh {c : Client} (h : InPages c) {answers : Answers}
    (fits : answers.planesNum ≤ maxPlanes) : InPages (updateState answers c).1 where
  page := by
    rw [updateState_ui]
    exact h.page
  plane := by
    rw [updateState_ui]
    exact h.plane
  num := by
    rw [updateState_planesNum]
    exact fits

theorem InPages.step {c d : Client} {e : ClientEvent} (h : InPages c) (step : ClientStep c e d)
    (fits : ListFits c e) : InPages d := by
  subst step
  cases e with
  | key ch => exact h.key (key_input c ch)
  | refresh answers => exact h.refresh fits

theorem InPages.takesFromArray {c : Client} (h : InPages c) (e : ClientEvent) :
    TakesFromArray c e := by
  cases e with
  | refresh answers => trivial
  | key ch =>
      intro call hcall
      have key := key_input c ch
      generalize input ch c = result at key hcall
      cases key with
      | enter key command selected line =>
          obtain rfl := Option.some.inj hcall
          obtain ⟨⟨hfirst, hlast⟩, ⟨hlow, hhigh⟩, _⟩ := h
          have hmax : (maxPlanes : Int) = 50 := rfl
          refine ⟨?_, rfl⟩
          simp only [AtcUi.index, planesPerPage]
          omega
      | plane | cmd | back | forward | ignored => exact absurd hcall (by simp)

/-- **Enter stays in the array.**  Whatever the keys are, and however the list grows and
shrinks between them, as long as it fits the array. -/
theorem input_in_array {state : AtcState} (fits : state.planesNum ≤ maxPlanes)
    {trace : List (ClientEvent × Client)} {c : Client}
    (run : Run (Guarded ClientStep ListFits) (Client.start state) trace c) :
    ∀ step ∈ steps (Client.start state) trace, TakesFromArray step.1 step.2.1 := by
  intro step hmem
  have hsteps := run.of_mem_steps InPages (fun _ _ _ h step => h.step step.1 step.2)
    (InPages.start fits)
  exact (hsteps step hmem).1.takesFromArray step.2.1

/-- The second page is turned to, its sixth row is selected, and Enter takes the plane
at index 15, which is not on the list. -/
theorem exists_off_list : ∃ (trace : List (ClientEvent × Client)) (c : Client),
    Run (Guarded ClientStep ListFits) (Client.start noPlanes) trace c ∧
      trace.map Prod.fst = [.refresh twelvePlanes, .key 65, .key 53, .key 48, .key 10] := by
  refine ⟨_, _, .cons ⟨rfl, ?_⟩ (.cons ⟨rfl, ?_⟩ (.cons ⟨rfl, ?_⟩ (.cons ⟨rfl, ?_⟩
    (.cons ⟨rfl, ?_⟩ (.nil _))))), rfl⟩
  · exact (by decide : (12 : Int) ≤ 50)
  all_goals trivial

theorem input_in_array_off_list : ∃ (trace : List (ClientEvent × Client)),
    trace.map Prod.fst = [.refresh twelvePlanes, .key 65, .key 53, .key 48, .key 10] ∧
      ∀ step ∈ steps (Client.start noPlanes) trace, TakesFromArray step.1 step.2.1 := by
  obtain ⟨trace, c, run, hevents⟩ := exists_off_list
  exact ⟨trace, hevents, input_in_array (by decide) run⟩

end AirTraffic.Atcc
