/-
  Atcc/Input.lean --- the keyboard of the client.

  WHAT THIS FILE IS FOR.  A digit selects a plane, a second one a command, and
  Enter sends the command to the plane; two more keys turn the pages of the list,
  and the list is fetched again between any two keys.  The plane that Enter takes
  is the one in the selected row of the page that is shown then, but the digit is
  compared with the length of the whole list when it is pressed, and with nothing
  later.  `sets_on_list` says which keys and refreshes keep the selection on the
  list, and `sets_off_list_of_unkept` that none of the others may be allowed.
-/
import AirTraffic.Atcd.Plane
import AirTraffic.Foundation.Transition
import Mathlib.Algebra.Order.Field.Rat
import Mathlib.Data.Rat.Cast.Order

set_option autoImplicit false

namespace AirTraffic.Atcc

open AirTraffic.Foundation AirTraffic.Atcd

/-- `PLANES_PER_PAGE` -/
def planesPerPage : Int := 10

/-! ## State -/

/-- What `input` prints to the window of the log. -/
inductive LogLine where
  | movedToPage (page : Int)
  | plane (id : List.Vector UInt8 6) (text : String)
  deriving DecidableEq

/-- `struct atc_state`, without the airports. -/
structure AtcState where
  /-- What lies at an index of the array, or beyond it. -/
  planes : Int → AtcPlane
  planesNum : Int
  curTime : Int
  tickTime : Int
  crashedPlanes : Int
  landedPlanes : Int

/-- `struct atc_ui`; of its windows, the line of the log. -/
structure AtcUi where
  curPlane : Int
  curCmd : Int
  curPage : Int
  cmdLog : Option LogLine

structure Client where
  state : AtcState
  ui : AtcUi

/-- Behind `init_UI`. -/
def Client.start (state : AtcState) : Client where
  state := state
  ui := { curPlane := -1, curCmd := -1, curPage := 0, cmdLog := none }

/-- The index that Enter takes. -/
def AtcUi.index (ui : AtcUi) : Int := ui.curPage * planesPerPage + ui.curPlane

/-! ## Refreshing -/

/-- What the calls of `update_state` return. -/
structure Answers where
  planes : Int → AtcPlane
  planesNum : Int
  crashed : Int
  landed : Int
  now : Int

/-- `update_state`, and whether it calls `create_plane`. -/
def updateState (answers : Answers) (c : Client) : Client × Bool :=
  let state :=
    { c.state with
      planes := answers.planes
      planesNum := answers.planesNum
      crashedPlanes := answers.crashed
      landedPlanes := answers.landed
      curTime := answers.now }
  if state.curTime - state.tickTime > 20 then
    ({ c with state := { state with tickTime := state.curTime } }, true)
  else ({ c with state := state }, false)

/-! ## Keys -/

/-- A call of `set` that `input` makes: the command, the index and the plane that
lies there. -/
structure SetCall where
  cmd : Int
  index : Int
  plane : AtcPlane

/-- What is printed behind the id of a plane. -/
def cmdText (cmd : Int) : Option String :=
  if cmd = 0 then some "is speeding up"
  else if cmd = 1 then some "is speeding down"
  else if cmd = 2 then some "is ascending"
  else if cmd = 3 then some "is descending"
  else if cmd = 4 then some "is turning right"
  else if cmd = 5 then some "is turning left"
  else none

/-- `ch >= '0' && ch <= '9'` -/
def IsDigit (ch : Int) : Prop := 48 ≤ ch ∧ ch ≤ 57

instance (ch : Int) : Decidable (IsDigit ch) := inferInstanceAs (Decidable (_ ∧ _))

/-- There is a page behind the current one.  A `float` is exact for as many planes
as a list has. -/
def Client.HasNextPage (c : Client) : Prop :=
  ((c.ui.curPage + 1 : Int) : ℚ) < (c.state.planesNum : ℚ) / (planesPerPage : ℚ)

instance (c : Client) : Decidable c.HasNextPage := inferInstanceAs (Decidable (_ < _))

/-- `input`, and the call of `set` that it makes. -/
def input (ch : Int) (c : Client) : Client × Option SetCall :=
  if IsDigit ch then
    if c.ui.curPlane = -1 then
      if ch - 48 < c.state.planesNum then
        ({ c with ui := { c.ui with curPlane := ch - 48 } }, none)
      else (c, none)
    else if c.ui.curCmd = -1 then
      if 48 ≤ ch ∧ ch ≤ 54 then
        ({ c with ui := { c.ui with curCmd := ch - 48 } }, none)
      else (c, none)
    else (c, none)
  else if ch = 66 then
    if c.ui.curPage > 0 then
      let page := c.ui.curPage - 1
      ({ c with ui := { c.ui with curPage := page, cmdLog := some (.movedToPage (page + 1)) } },
        none)
    else (c, none)
  else if ch = 65 then
    if c.HasNextPage then
      let page := c.ui.curPage + 1
      ({ c with ui := { c.ui with curPage := page, cmdLog := some (.movedToPage (page + 1)) } },
        none)
    else (c, none)
  else if ch = 10 ∧ c.ui.curCmd ≠ -1 ∧ c.ui.curPlane ≠ -1 then
    let plane := c.state.planes c.ui.index
    let line := (cmdText c.ui.curCmd).map (LogLine.plane plane.id)
    ({ c with ui := { c.ui with curPlane := -1, curCmd := -1, cmdLog := line } },
      some { cmd := c.ui.curCmd, index := c.ui.index, plane := plane })
  else (c, none)

theorem hasNextPage_iff (c : Client) :
    c.HasNextPage ↔ (c.ui.curPage + 1) * planesPerPage < c.state.planesNum := by
  have hsize : (0 : ℚ) < (planesPerPage : ℚ) := by
    rw [Int.cast_pos]
    decide
  rw [Client.HasNextPage, lt_div_iff₀ hsize, ← Int.cast_mul, Int.cast_lt]

/-! ## Steps -/

inductive ClientEvent where
  | key (ch : Int)
  | refresh (answers : Answers)

/-- One key or one refresh. -/
def Client.next (c : Client) : ClientEvent → Client
  | .key ch => (input ch c).1
  | .refresh answers => (updateState answers c).1

def ClientStep (c : Client) (e : ClientEvent) (d : Client) : Prop := d = c.next e

/-- If the event makes a call of `set`, it is for a plane on the list, with one of
the six commands. -/
def SetsOnList (c : Client) : ClientEvent → Prop
  | .key ch => ∀ call, (input ch c).2 = some call →
      (0 ≤ call.index ∧ call.index < c.state.planesNum) ∧
        ∃ cmd : AtcCommand, call.cmd = cmd.code.toInt
  | .refresh _ => True

/-- A digit selects a plane only of the current page, '6' is not given as a
command, and while a plane is selected no page is turned, and no list fetched,
that has nothing in its row. -/
def KeepsOnList (c : Client) : ClientEvent → Prop
  | .key ch =>
      (IsDigit ch → c.ui.curPlane = -1 → ch - 48 < c.state.planesNum →
        c.ui.curPage * planesPerPage + (ch - 48) < c.state.planesNum) ∧
      (ch = 54 → c.ui.curPlane ≠ -1 → c.ui.curCmd ≠ -1) ∧
      (ch = 65 → c.ui.curPlane ≠ -1 → c.HasNextPage →
        (c.ui.curPage + 1) * planesPerPage + c.ui.curPlane < c.state.planesNum)
  | .refresh answers => c.ui.curPlane ≠ -1 → c.ui.index < answers.planesNum

/-! ## What a key does -/

/-- The ways a key can go. -/
inductive Key (c : Client) (ch : Int) : Client × Option SetCall → Prop
  | plane (digit : IsDigit ch) (unset : c.ui.curPlane = -1) (below : ch - 48 < c.state.planesNum) :
      Key c ch ({ c with ui := { c.ui with curPlane := ch - 48 } }, none)
  | cmd (digit : 48 ≤ ch ∧ ch ≤ 54) (selected : c.ui.curPlane ≠ -1) (unset : c.ui.curCmd = -1) :
      Key c ch ({ c with ui := { c.ui with curCmd := ch - 48 } }, none)
  | back (key : ch = 66) (page : 0 < c.ui.curPage) (line : Option LogLine) :
      Key c ch ({ c with ui := { c.ui with curPage := c.ui.curPage - 1, cmdLog := line } }, none)
  | forward (key : ch = 65) (page : c.HasNextPage) (line : Option LogLine) :
      Key c ch ({ c with ui := { c.ui with curPage := c.ui.curPage + 1, cmdLog := line } }, none)
  | enter (key : ch = 10) (command : c.ui.curCmd ≠ -1) (selected : c.ui.curPlane ≠ -1)
      (line : Option LogLine) :
      Key c ch ({ c with ui := { c.ui with curPlane := -1, curCmd := -1, cmdLog := line } },
        some { cmd := c.ui.curCmd, index := c.ui.index, plane := c.state.planes c.ui.index })
  | ignored : Key c ch (c, none)

theorem key_input (c : Client) (ch : Int) : Key c ch (input ch c) := by
  unfold input
  split
  next digit =>
    split
    next unset =>
      split
      next below => exact .plane digit unset below
      next => exact .ignored
    next selected =>
      split
      next unset =>
        split
        next range => exact .cmd range selected unset
        next => exact .ignored
      next => exact .ignored
  next =>
    split
    next key =>
      split
      next page => exact .back key page _
      next => exact .ignored
    next =>
      split
      next key =>
        split
        next page => exact .forward key page _
        next => exact .ignored
      next =>
        split
        next h => exact .enter h.1 h.2.1 h.2.2 _
        next => exact .ignored

/-! ## The selection -/

/-- What is selected lies on the list. -/
structure OnList (c : Client) : Prop where
  page : 0 ≤ c.ui.curPage
  plane : -1 ≤ c.ui.curPlane
  cmd : -1 ≤ c.ui.curCmd ∧ c.ui.curCmd ≤ 5
  index : c.ui.curPlane ≠ -1 → c.ui.index < c.state.planesNum

theorem OnList.start (state : AtcState) : OnList (Client.start state) where
  page := Int.le_refl 0
  plane := Int.le_refl (-1)
  cmd := ⟨Int.le_refl (-1), (by decide : (-1 : Int) ≤ 5)⟩
  index := fun h => absurd rfl h

theorem exists_command {n : Int} (hlow : 0 ≤ n) (hhigh : n ≤ 5) :
    ∃ cmd : AtcCommand, n = cmd.code.toInt := by
  obtain rfl | rfl | rfl | rfl | rfl | rfl : n = 0 ∨ n = 1 ∨ n = 2 ∨ n = 3 ∨ n = 4 ∨ n = 5 := by
    omega
  · exact ⟨.speedUp, rfl⟩
  · exact ⟨.speedDown, rfl⟩
  · exact ⟨.climb, rfl⟩
  · exact ⟨.descend, rfl⟩
  · exact ⟨.turnRight, rfl⟩
  · exact ⟨.turnLeft, rfl⟩

theorem updateState_ui (answers : Answers) (c : Client) : (updateState answers c).1.ui = c.ui := by
  unfold updateState
  dsimp only
  split <;> rfl

theorem updateState_planesNum (answers : Answers) (c : Client) :
    (updateState answers c).1.state.planesNum = answers.planesNum := by
  unfold updateState
  dsimp only
  split <;> rfl

/-- Turning to the next page moves the index by a page. -/
theorem OnList.key {c : Client} (h : OnList c) {ch : Int} (keeps : KeepsOnList c (.key ch))
    {result : Client × Option SetCall} (key : Key c ch result) : OnList result.1 := by
  obtain ⟨hplane, hcmd, hpage⟩ := keeps
  have hlow := h.page
  have hrow := h.plane
  have hcode := h.cmd
  cases key with
  | plane digit unset below =>
      have hdigit := digit.1
      refine ⟨hlow, ?_, hcode, fun _ => hplane digit unset below⟩
      show -1 ≤ ch - 48
      omega
  | cmd digit selected unset =>
      have hsix : ch ≠ 54 := fun heq => hcmd heq selected unset
      refine ⟨hlow, hrow, ?_, h.index⟩
      show -1 ≤ ch - 48 ∧ ch - 48 ≤ 5
      omega
  | back key page line =>
      refine ⟨?_, hrow, hcode, ?_⟩
      · show 0 ≤ c.ui.curPage - 1
        omega
      · intro selected
        have hindex := h.index selected
        simp only [AtcUi.index, planesPerPage] at hindex ⊢
        omega
  | forward key page line =>
      refine ⟨?_, hrow, hcode, fun selected => hpage key selected page⟩
      show 0 ≤ c.ui.curPage + 1
      omega
  | enter key command selected line =>
      exact ⟨hlow, Int.le_refl (-1), ⟨Int.le_refl (-1), (by decide : (-1 : Int) ≤ 5)⟩,
        fun h => absurd rfl h⟩
  | ignored => exact h

theorem OnList.step {c d : Client} {e : ClientEvent} (h : OnList c) (step : ClientStep c e d)
    (keeps : KeepsOnList c e) : OnList d := by
  subst step
  cases e with
  | key ch => exact h.key keeps (key_input c ch)
  | refresh answers =>
      have hui := updateState_ui answers c
      have hnum := updateState_planesNum answers c
      refine ⟨?_, ?_, ?_, ?_⟩ <;> simp only [Client.next, hui, hnum]
      · exact h.page
      · exact h.plane
      · exact h.cmd
      · exact keeps

/-- A selection on the list is sent to a plane of the list. -/
theorem OnList.setsOnList {c : Client} (h : OnList c) (e : ClientEvent) : SetsOnList c e := by
  cases e with
  | refresh answers => trivial
  | key ch =>
      intro call hcall
      have key := key_input c ch
      generalize input ch c = result at key hcall
      cases key with
      | enter key command selected line =>
          obtain rfl := Option.some.inj hcall
          have hlow := h.page
          have hrow := h.plane
          refine ⟨⟨?_, h.index selected⟩, exists_command ?_ h.cmd.2⟩
          · simp only [AtcUi.index, planesPerPage]
            omega
          · have hcode := h.cmd.1
            show 0 ≤ c.ui.curCmd
            omega
      | plane | cmd | back | forward | ignored => exact absurd hcall (by simp)

/-- **When commands go to planes of the list.**  In every run whose keys and
refreshes keep the selection on the list. -/
theorem sets_on_list {state : AtcState} {trace : List (ClientEvent × Client)} {c : Client}
    (run : Run (Guarded ClientStep KeepsOnList) (Client.start state) trace c) :
    ∀ step ∈ steps (Client.start state) trace, SetsOnList step.1 step.2.1 := by
  intro step hmem
  have hsteps := run.of_mem_steps OnList (fun _ _ _ h step => h.step step.1 step.2)
    (OnList.start state)
  exact (hsteps step hmem).1.setsOnList step.2.1

/-! ## Losing the selection -/

/-- Enter on a selection that is not on the list. -/
theorem not_setsOnList_enter {c : Client} (selected : c.ui.curPlane ≠ -1)
    (command : c.ui.curCmd ≠ -1)
    (off : ¬ c.ui.index < c.state.planesNum ∨ c.ui.curCmd = 6) : ¬ SetsOnList c (.key 10) := by
  intro hsets
  have hcall : (input 10 c).2 =
      some { cmd := c.ui.curCmd, index := c.ui.index, plane := c.state.planes c.ui.index } := by
    simp [input, IsDigit, selected, command]
  obtain ⟨⟨_, hindex⟩, cmd, hcmd⟩ := hsets _ hcall
  rcases off with hoff | hsix
  · exact hoff hindex
  · dsimp only at hcmd
    rw [hsix] at hcmd
    cases cmd <;> exact absurd hcmd (by decide)

/-- A client that the next keys can make send a command off the list. -/
def SetsOffList (c : Client) : Prop :=
  ∃ trace d, Run ClientStep c trace d ∧ ∃ step ∈ steps c trace, ¬ SetsOnList step.1 step.2.1

theorem setsOffList_of_off {c : Client} (selected : c.ui.curPlane ≠ -1)
    (off : ¬ c.ui.index < c.state.planesNum ∨ c.ui.curCmd = 6) : SetsOffList c := by
  by_cases command : c.ui.curCmd = -1
  · -- '0' gives the command that is missing
    let ordered : Client := { c with ui := { c.ui with curCmd := 0 } }
    have horder : ClientStep c (.key 48) ordered := by
      simp [ClientStep, Client.next, input, IsDigit, selected, command, ordered]
    have hindex : ¬ ordered.ui.index < ordered.state.planesNum := by
      rcases off with hoff | hsix
      · exact hoff
      · omega
    exact ⟨_, _, .cons horder (.cons rfl (.nil _)), (ordered, .key 10, _),
      List.mem_cons_of_mem _ List.mem_cons_self,
      not_setsOnList_enter selected (by decide : (0 : Int) ≠ -1) (.inl hindex)⟩
  · exact ⟨_, _, .cons rfl (.nil _), (c, .key 10, _), List.mem_cons_self,
      not_setsOnList_enter selected command off⟩

/-- The conditions are needed: whatever breaks one of them, the next keys can send
a command off the list. -/
theorem sets_off_list_of_unkept {c d : Client} {e : ClientEvent} (step : ClientStep c e d)
    (unkept : ¬ KeepsOnList c e) : SetsOffList d := by
  subst step
  cases e with
  | refresh answers =>
      have hui := updateState_ui answers c
      have hnum := updateState_planesNum answers c
      obtain ⟨selected, hoff⟩ := Classical.not_imp.mp unkept
      apply setsOffList_of_off
      · simpa only [Client.next, hui] using selected
      · left
        simpa only [Client.next, hui, hnum] using hoff
  | key ch =>
      show SetsOffList (input ch c).1
      rcases Classical.not_and_iff_not_or_not.mp unkept with hplane | hrest
      · simp only [Classical.not_imp] at hplane
        obtain ⟨digit, unset, below, hoff⟩ := hplane
        have hinput : (input ch c).1 = { c with ui := { c.ui with curPlane := ch - 48 } } := by
          simp [input, digit, unset, below]
        rw [hinput]
        have hdigit := digit.1
        refine setsOffList_of_off ?_ (.inl hoff)
        show ch - 48 ≠ -1
        omega
      rcases Classical.not_and_iff_not_or_not.mp hrest with hcmd | hpage
      · simp only [Classical.not_imp, Decidable.not_not] at hcmd
        obtain ⟨rfl, selected, unset⟩ := hcmd
        have hinput : (input 54 c).1 = { c with ui := { c.ui with curCmd := 6 } } := by
          simp [input, IsDigit, selected, unset]
        rw [hinput]
        exact setsOffList_of_off selected (.inr rfl)
      · simp only [Classical.not_imp] at hpage
        obtain ⟨rfl, selected, page, hoff⟩ := hpage
        have hinput : (input 65 c).1 = { c with ui := { c.ui with
            curPage := c.ui.curPage + 1
            cmdLog := some (.movedToPage (c.ui.curPage + 1 + 1)) } } := by
          simp [input, IsDigit, page]
        rw [hinput]
        exact setsOffList_of_off selected (.inl hoff)

/-- A list of twelve planes. -/
def twelvePlanes : Answers where
  planes := fun _ => .ofBytes []
  planesNum := 12
  crashed := 0
  landed := 0
  now := 0

/-- A client that has not fetched a list. -/
def noPlanes : AtcState where
  planes := fun _ => .ofBytes []
  planesNum := 0
  curTime := 0
  tickTime := 0
  crashedPlanes := 0
  landedPlanes := 0

/-- A command for the sixth plane, from the first page. -/
theorem exists_first_page_command : ∃ (trace : List (ClientEvent × Client)) (c : Client),
    Run (Guarded ClientStep KeepsOnList) (Client.start noPlanes) trace c ∧
      trace.map Prod.fst = [.refresh twelvePlanes, .key 53, .key 48, .key 10] := by
  refine ⟨_, _, .cons ⟨rfl, ?_⟩ (.cons ⟨rfl, ?_⟩ (.cons ⟨rfl, ?_⟩ (.cons ⟨rfl, ?_⟩ (.nil _)))), rfl⟩
  · exact fun selected => absurd rfl selected
  · exact ⟨fun _ _ _ => (by decide : (0 : Int) * 10 + (53 - 48) < 12), by decide, by decide⟩
  · exact ⟨fun _ unset => absurd unset (by decide : (5 : Int) ≠ -1), by decide, by decide⟩
  · exact ⟨fun digit => absurd digit (by decide), by decide, by decide⟩

theorem first_page_sets_on_list : ∃ (trace : List (ClientEvent × Client)),
    trace.map Prod.fst = [.refresh twelvePlanes, .key 53, .key 48, .key 10] ∧
      ∀ step ∈ steps (Client.start noPlanes) trace, SetsOnList step.1 step.2.1 := by
  obtain ⟨trace, c, run, hevents⟩ := exists_first_page_command
  exact ⟨trace, hevents, sets_on_list run⟩

/-- The sixth row of the second page is empty, but there is a sixth plane. -/
theorem second_page_sets_off_list :
    ¬ ∀ (state : AtcState) (trace : List (ClientEvent × Client)) (c : Client),
      Run ClientStep (Client.start state) trace c →
        ∀ step ∈ steps (Client.start state) trace, SetsOnList step.1 step.2.1 := by
  intro hall
  let fetched := (Client.start noPlanes).next (.refresh twelvePlanes)
  let paged := fetched.next (.key 65)
  have hpage : fetched.HasNextPage := (hasNextPage_iff fetched).mpr (by decide)
  have hpaged : paged = { fetched with
      ui := { fetched.ui with curPage := 1, cmdLog := some (.movedToPage 2) } } := by
    simp only [paged, Client.next, input, hpage]
    rfl
  have hunkept : ¬ KeepsOnList paged (.key 53) := by
    rw [hpaged]
    intro keeps
    exact absurd (keeps.1 (by decide) rfl (by decide)) (by decide)
  obtain ⟨trace, c, run, step, hmem, hoff⟩ := sets_off_list_of_unkept rfl hunkept
  refine hoff (hall noPlanes _ c (.cons rfl (.cons rfl (.cons rfl run))) step ?_)
  exact List.mem_cons_of_mem _ (List.mem_cons_of_mem _ (List.mem_cons_of_mem _ hmem))

end AirTraffic.Atcc
