/-
  Atcc/Play.lean --- the client at the server.

  WHAT THIS FILE IS FOR.  The results on worlds take clients that send only planes that
  a poll has returned.  The program of the client is not checked by anyone: it sends
  what it finds in its array.  Here it runs at the server, among any other clients.
  What it finds there is what some poll has returned, or zeros that nobody has written
  over (`PlayInv`).  So as long as Enter is not pressed on a row that never had a plane,
  even when the plane is not on the list any more, the program is one of those clients
  (`program_is_client`).
-/
import AirTraffic.Atcc.Pages
import AirTraffic.Server.Board

set_option autoImplicit false

namespace AirTraffic.Atcc

open AirTraffic.Foundation AirTraffic.Storage AirTraffic.Atcd AirTraffic.Protocol
  AirTraffic.Server

/-! ## The program and the server -/

/-- A client program, and the server with all clients. -/
structure Play where
  world : World
  client : Client

/-- `state` behind `init_time`; it is static, and behind its array there is any memory. -/
def AtcState.static (memory : Int → AtcPlane) (now : Int) : AtcState where
  planes := fun k => if 0 ≤ k ∧ k < maxPlanes then zeroPlane else memory k
  planesNum := 0
  curTime := 0
  tickTime := now
  crashedPlanes := 0
  landedPlanes := 0

/-- The planes that `get_airplanes` of the client copies from a response. -/
def fetched (res : AtcRes) : List AtcPlane := (resPlanes res).map overWire

/-- What `update_state` gets, from a poll that does not fail: the rows behind the list
stay as they are. -/
def fetch (c : Client) (res : AtcRes) (crashed landed now : Int) : Answers where
  planes := fun k =>
    if 0 ≤ k then ((fetched res)[k.toNat]?).getD (c.state.planes k) else c.state.planes k
  planesNum := (fetched res).length
  crashed := crashed
  landed := landed
  now := now

/-- A key does not change the list. -/
theorem state_key {c : Client} {ch : Int} {result : Client × Option SetCall}
    (key : Key c ch result) : result.1.state = c.state := by
  cases key <;> rfl

theorem updateState_planes (answers : Answers) (c : Client) :
    (updateState answers c).1.state.planes = answers.planes := by
  unfold updateState
  dsimp only
  split <;> rfl

/-- A row holds a plane of the response, or what it held before. -/
theorem fetch_planes (c : Client) (res : AtcRes) (crashed landed now : Int) (k : Int) :
    (fetch c res crashed landed now).planes k ∈ fetched res ∨
      (fetch c res crashed landed now).planes k = c.state.planes k := by
  unfold fetch
  dsimp only
  split
  · cases hrow : (fetched res)[k.toNat]? with
    | none => exact Or.inr rfl
    | some plane => exact Or.inl (List.mem_of_getElem? hrow)
  · exact Or.inr rfl

section Play

variable [Platform]

/-- The server serves a request, whatever is in it. -/
def serveRequest (w : World) (e : Event) : Option (AtcRes × World) :=
  if w.clock ≤ e.moment.now then
    (serve e.moment (reqOverWire e.action.req)
        { counters := w.counters e.client, disk := w.disk }).map fun (res, worker) =>
      (res,
        { disk := worker.disk
          clock := e.moment.now
          counters := Function.update w.counters e.client worker.counters
          seen := w.seen ++ obtained e res })
  else none

inductive PlayEvent where
  /-- A request of another client. -/
  | other (e : Event)
  /-- `update_state`, and what the others ask for between its calls. -/
  | refresh (polled created : Moment) (crashed landed now : Int) (others : List (Event × World))
  /-- `input`, and when its call of `set` is served. -/
  | key (ch : Int) (served : Moment)

/-- Requests of other clients. -/
def Others (me : Nat) (_ : World) (e : Event) : Prop := e.client ≠ me

/-- One step of the program, which is client `me`, or of another client. -/
inductive PlayStep (me : Nat) : Play → PlayEvent → Play → Prop
  | other {s : Play} {e : Event} {w : World} (other : e.client ≠ me) (step : Step s.world e w) :
      PlayStep me s (.other e) { s with world := w }
  | refresh {s : Play} {polled created : Moment} {crashed landed now : Int} {res : AtcRes}
      {w w' w'' : World} {others : List (Event × World)}
      (poll : serveRequest s.world ⟨me, polled, .poll⟩ = some (res, w))
      (between : Run (Guarded Step (Others me)) w others w')
      (create : if (updateState (fetch s.client res crashed landed now) s.client).2 then
          ∃ res', serveRequest w' ⟨me, created, .create⟩ = some (res', w'')
        else w'' = w') :
      PlayStep me s (.refresh polled created crashed landed now others)
        { world := w''
          client := (updateState (fetch s.client res crashed landed now) s.client).1 }
  | key {s : Play} {ch : Int} {served : Moment} (quiet : (input ch s.client).2 = none) :
      PlayStep me s (.key ch served) { s with client := (input ch s.client).1 }
  | set {s : Play} {ch : Int} {served : Moment} {call : SetCall} {cmd : AtcCommand}
      {res : AtcRes} {w : World} (enter : (input ch s.client).2 = some call)
      (code : call.cmd = cmd.code.toInt)
      (sent : serveRequest s.world ⟨me, served, .command cmd call.plane⟩ = some (res, w)) :
      PlayStep me s (.key ch served) { world := w, client := (input ch s.client).1 }
  | notSet {s : Play} {ch : Int} {served : Moment} {call : SetCall}
      (enter : (input ch s.client).2 = some call)
      -- `set` of the client returns -1 and asks for nothing
      (code : ∀ cmd : AtcCommand, call.cmd ≠ cmd.code.toInt) :
      PlayStep me s (.key ch served) { s with client := (input ch s.client).1 }

/-- Enter is not pressed on a row that never had a plane. -/
def EntersPlane (s : Play) : PlayEvent → Prop
  | .key ch _ => ∀ call, (input ch s.client).2 = some call → call.plane ≠ zeroPlane
  | _ => True

/-! ## Requests -/

/-- What is offered and served is a step. -/
theorem step_of_serveRequest {w w' : World} {e : Event} {res : AtcRes} (offers : w.Offers e)
    (h : serveRequest w e = some (res, w')) :
    Step w e w' ∧ w'.seen = w.seen ++ obtained e res := by
  unfold serveRequest at h
  split at h
  · rename_i hclock
    obtain ⟨⟨answer, worker⟩, hserve, hw'⟩ := Option.map_eq_some_iff.mp h
    obtain ⟨rfl, rfl⟩ := Prod.mk.inj hw'
    refine ⟨?_, rfl⟩
    rw [Step, World.step, if_pos ⟨hclock, offers⟩, hserve]
    rfl
  · exact absurd h (by simp)

theorem serveRequest_of_step {w w' : World} {e : Event} (step : Step w e w') :
    ∃ res, serveRequest w e = some (res, w') := by
  obtain ⟨⟨hclock, _⟩, res, worker, hserve, rfl⟩ := step.cases
  exact ⟨res, by rw [serveRequest, if_pos hclock, hserve, Option.map_some]⟩

/-- Who has obtained a plane keeps it. -/
theorem seen_subset {w w' : World} {e : Event} (step : Step w e w') : w.seen ⊆ w'.seen := by
  obtain ⟨_, res, worker, _, rfl⟩ := step.cases
  exact List.subset_append_left _ _

theorem seen_subset_of_run {me : Nat} {w w' : World} {trace : List (Event × World)}
    (run : Run (Guarded Step (Others me)) w trace w') : w.seen ⊆ w'.seen :=
  run.invariant (fun v => w.seen ⊆ v.seen)
    (fun _ _ _ subset step => List.Subset.trans subset (seen_subset step.1)) (List.Subset.refl _)

/-- A poll returns no more planes than the array has room for. -/
theorem length_fetched_le {w w' : World} {me : Nat} {moment : Moment} {res : AtcRes}
    (inv : w.Inv) (h : serveRequest w ⟨me, moment, .poll⟩ = some (res, w')) :
    (fetched res).length ≤ maxPlanes := by
  unfold serveRequest at h
  split at h
  · obtain ⟨poll, file', fleet', hpoll, _, _, _, hcount, hmax, _⟩ :=
      getAirplanes_lists inv.lists moment.now (w.counters me)
    have hreq : reqOverWire (Action.poll).req = (Action.poll).req := rfl
    obtain ⟨⟨answer, worker⟩, hserve, hres⟩ := Option.map_eq_some_iff.mp h
    rw [hreq, Action.req, serve_getPlanes, Disk.eq_sound inv.sound, hpoll,
      Option.map_some] at hserve
    obtain ⟨rfl, _⟩ := Prod.mk.inj (Option.some.inj hserve)
    obtain ⟨rfl, _⟩ := Prod.mk.inj hres
    rw [fetched, List.length_map, resPlanes_planesRes hcount hmax]
    exact hmax
  · exact absurd h (by simp)

/-- What the program fetches has been obtained. -/
theorem fetched_obtained {w w' : World} {me : Nat} {moment : Moment} {res : AtcRes}
    (h : serveRequest w ⟨me, moment, .poll⟩ = some (res, w')) :
    Step w ⟨me, moment, .poll⟩ w' ∧ ∀ plane ∈ fetched res, plane ∈ w'.seen.map Prod.snd := by
  have offers : w.Offers ⟨me, moment, .poll⟩ := trivial
  obtain ⟨step, hseen⟩ := step_of_serveRequest offers h
  refine ⟨step, fun plane hmem => ?_⟩
  obtain ⟨sent, hsent, rfl⟩ := List.mem_map.mp hmem
  have hcopy : (me, overWire sent) ∈ obtained ⟨me, moment, .poll⟩ res :=
    List.mem_map_of_mem hsent
  rw [hseen]
  exact List.mem_map_of_mem (List.mem_append_right w.seen hcopy)

/-! ## The invariant -/

/-- The program takes its planes from what was obtained. -/
structure PlayInv (start : Int64) (s : Play) : Prop where
  reached : Reachable Step (World.initial start) s.world
  pages : InPages s.client
  rows : ∀ k : Int, 0 ≤ k → k < maxPlanes →
    s.client.state.planes k = zeroPlane ∨ s.client.state.planes k ∈ s.world.seen.map Prod.snd

variable {me : Nat} {start : Int64} {s t : Play} {e : PlayEvent}

/-- What Enter takes has been obtained. -/
theorem PlayInv.offers (inv : PlayInv start s) (me : Nat) {ch : Int} {call : SetCall}
    (enter : (input ch s.client).2 = some call) (plane : call.plane ≠ zeroPlane)
    (cmd : AtcCommand) (moment : Moment) :
    s.world.Offers ⟨me, moment, .command cmd call.plane⟩ := by
  obtain ⟨⟨hlow, hhigh⟩, hplane⟩ := inv.pages.takesFromArray (.key ch) call enter
  rcases inv.rows call.index hlow hhigh with hzero | hseen
  · exact absurd (hplane.trans hzero) plane
  · rw [← hplane] at hseen
    exact hseen

/-- Obtained planes stay obtained, so the rows stay as they are. -/
theorem PlayInv.keep (inv : PlayInv start s) {w : World} {c : Client}
    (reached : Reachable Step (World.initial start) w) (seen : s.world.seen ⊆ w.seen)
    (pages : InPages c) (planes : c.state.planes = s.client.state.planes) :
    PlayInv start { world := w, client := c } where
  reached := reached
  pages := pages
  rows := by
    intro k hlow hhigh
    dsimp only
    rw [planes]
    refine (inv.rows k hlow hhigh).imp_right fun hseen => ?_
    obtain ⟨copy, hcopy, heq⟩ := List.mem_map.mp hseen
    exact heq ▸ List.mem_map_of_mem (seen hcopy)

/-- **Every step of the program is a step of a client.** -/
theorem PlayInv.step (inv : PlayInv start s) (step : PlayStep me s e t) (enters : EntersPlane s e) :
    PlayInv start t := by
  cases step with
  | other other step =>
      exact inv.keep (inv.reached.snoc step) (seen_subset step) inv.pages rfl
  | @key ch served quiet =>
      have key := key_input s.client ch
      exact inv.keep inv.reached (List.Subset.refl _) (inv.pages.key key)
        (congrArg AtcState.planes (state_key key))
  | @notSet ch served call enter code =>
      have key := key_input s.client ch
      exact inv.keep inv.reached (List.Subset.refl _) (inv.pages.key key)
        (congrArg AtcState.planes (state_key key))
  | @set ch served call cmd res w enter code sent =>
      have key := key_input s.client ch
      have offers := inv.offers me enter (enters call enter) cmd served
      have hstep := (step_of_serveRequest offers sent).1
      exact inv.keep (inv.reached.snoc hstep) (seen_subset hstep) (inv.pages.key key)
        (congrArg AtcState.planes (state_key key))
  | @refresh polled created crashed landed now res w w' w'' others poll between create =>
      have hstate := inv_of_reachable inv.reached
      obtain ⟨hstep, hfetched⟩ := fetched_obtained poll
      have hlength := length_fetched_le hstate poll
      obtain ⟨first, hfirst⟩ := inv.reached.snoc hstep
      have hmiddle : Reachable Step (World.initial start) w' :=
        ⟨_, hfirst.append (between.mono fun _ _ _ step => step.1)⟩
      have hbetween := List.Subset.trans (seen_subset hstep) (seen_subset_of_run between)
      -- a plane may be created behind the others
      have hlast : Reachable Step (World.initial start) w'' ∧ w'.seen ⊆ w''.seen := by
        split at create
        · obtain ⟨res', hcreate⟩ := create
          have offers : w'.Offers ⟨me, created, .create⟩ := trivial
          have hcreated := (step_of_serveRequest offers hcreate).1
          exact ⟨hmiddle.snoc hcreated, seen_subset hcreated⟩
        · rw [create]
          exact ⟨hmiddle, List.Subset.refl _⟩
      have hkept : ∀ {plane : AtcPlane} {seen : List (Nat × AtcPlane)}, seen ⊆ w''.seen →
          plane ∈ seen.map Prod.snd → plane ∈ w''.seen.map Prod.snd :=
        fun subset hmem => List.map_subset Prod.snd subset hmem
      refine
        { reached := hlast.1
          pages := inv.pages.refresh (Int.ofNat_le.mpr hlength)
          rows := fun k hlow hhigh => ?_ }
      dsimp only
      rw [updateState_planes]
      rcases fetch_planes s.client res crashed landed now k with hnew | hold
      · exact Or.inr (hkept (List.Subset.trans (seen_subset_of_run between) hlast.2)
          (hfetched _ hnew))
      · rw [hold]
        exact (inv.rows k hlow hhigh).imp_right (hkept (List.Subset.trans hbetween hlast.2))

/-- **The program is a client.**  It plays at a server that others have used before it, and
use at the same time.  As long as Enter is not pressed on a row that never had a plane,
whatever else is pressed, the world is one that can be reached by clients that send
what they have obtained; and the server carries out every command of the program. -/
theorem program_is_client {w₀ w₁ : World} {joined : Moment} {res : AtcRes}
    (reached : Reachable Step (World.initial start) w₀)
    (joins : serveRequest w₀ ⟨me, joined, .create⟩ = some (res, w₁)) {memory : Int → AtcPlane}
    {now : Int} {trace : List (PlayEvent × Play)}
    (run : Run (Guarded (PlayStep me) EntersPlane)
      { world := w₁, client := .start (.static memory now) } trace s) :
    Reachable Step (World.initial start) s.world ∧
      ∀ ch call, (input ch s.client).2 = some call → call.plane ≠ zeroPlane →
        ∀ (cmd : AtcCommand) (moment : Moment), s.world.clock ≤ moment.now →
          ∃ w, Step s.world ⟨me, moment, .command cmd call.plane⟩ w := by
  have offers : w₀.Offers ⟨me, joined, .create⟩ := trivial
  have hcreated := (step_of_serveRequest offers joins).1
  have hstart : PlayInv start { world := w₁, client := .start (.static memory now) } :=
    { reached := reached.snoc hcreated
      pages := InPages.start (by decide : (0 : Int) ≤ 50)
      rows := fun k hlow hhigh => Or.inl (if_pos ⟨hlow, hhigh⟩) }
  have inv := run.invariant (PlayInv start) (fun _ _ _ inv step => inv.step step.1 step.2) hstart
  refine ⟨inv.reached, fun ch call enter plane cmd moment hclock => ?_⟩
  exact (inv_of_reachable inv.reached).serves hclock (inv.offers me enter plane cmd moment)

end Play

/-- A poll behind the creation of the first plane. -/
theorem exists_fetched : ∃ (_ : Platform) (w w' : World) (joined res : AtcRes),
    serveRequest (World.initial 0) (request 0 0 .create) = some (joined, w) ∧
      serveRequest w (request 0 0 .poll) = some (res, w') ∧
      fetched res = [overWire firstPlane] := by
  let _ : Platform := x86
  have hplay : ((@Board.play x86 (fun _ _ => true) (Board.initial 0)
      [request 0 0 .create]).any fun b =>
        (b.shown (request 0 0 .poll)).map Prod.snd == [overWire firstPlane] &&
          decide (b.clock ≤ 0)) = true := by
    decide +kernel
  obtain ⟨trace, w, run, clean, hgood, hevents⟩ :=
    @exists_run _ _ (fun _ _ => True) (fun _ _ _ => trivial) _ _ _ hplay
  obtain ⟨hshown, hclock⟩ := (Bool.and_eq_true _ _).mp hgood
  obtain ⟨joined, joins⟩ := serveRequest_of_step (run.step_of_single hevents).1.1.1
  have offers : w.Offers (request 0 0 .poll) := trivial
  obtain ⟨w', step⟩ : ∃ w', Step w (request 0 0 .poll) w' :=
    clean.serves (of_decide_eq_true hclock) offers
  obtain ⟨res, poll⟩ := serveRequest_of_step step
  refine ⟨x86, w, w', joined, res, joins, poll, ?_⟩
  have hseen := (step_of_serveRequest offers poll).2
  have hclean := (step.clean clean fun hcreate => absurd hcreate (by decide)).2.2.2
  have hsame := List.append_cancel_left (hseen.symm.trans hclean)
  have hmap := congrArg (List.map Prod.snd) hsame
  rw [beq_iff_eq.mp hshown] at hmap
  have hall : (obtained (request 0 0 .poll) res).map Prod.snd = fetched res :=
    List.map_map
  exact hall.symm.trans hmap

/-- '0' selects the first plane, and once more the first command. -/
theorem input_select {c : Client} (plane : c.ui.curPlane = -1) (cmd : c.ui.curCmd = -1)
    (num : c.state.planesNum = 1) :
    input 48 c = ({ c with ui := { c.ui with curPlane := 0 } }, none) ∧
      input 48 { c with ui := { c.ui with curPlane := 0 } } =
        ({ c with ui := { c.ui with curPlane := 0, curCmd := 0 } }, none) := by
  constructor
  · simp [input, IsDigit, plane, num]
  · simp [input, IsDigit, cmd]

/-- The first plane is on the list, and selected for the first command. -/
theorem program_is_client_select :
    ∃ (_ : Platform) (s : Play), s.client.ui.curPlane = 0 ∧ s.client.ui.curCmd = 0 ∧
      s.client.state.planes 0 = overWire firstPlane ∧
      Reachable Step (World.initial 0) s.world ∧
        ∀ ch call, (input ch s.client).2 = some call → call.plane ≠ zeroPlane →
          ∀ (cmd : AtcCommand) (moment : Moment), s.world.clock ≤ moment.now →
            ∃ w, Step s.world ⟨0, moment, .command cmd call.plane⟩ w := by
  obtain ⟨platform, w, w', joined, res, joins, poll, hfetched⟩ := exists_fetched
  let c := (updateState (fetch (.start (.static (fun _ => zeroPlane) 0)) res 0 0 0)
    (.start (.static (fun _ => zeroPlane) 0))).1
  have hui : c.ui = (Client.start (.static (fun _ => zeroPlane) 0)).ui := updateState_ui _ _
  have hnum : c.state.planesNum = 1 := by
    rw [updateState_planesNum, fetch, hfetched]
    rfl
  have hplane : c.state.planes 0 = overWire firstPlane := by
    rw [updateState_planes, fetch, hfetched]
    rfl
  obtain ⟨hselect, hcommand⟩ := input_select (by rw [hui]; rfl) (by rw [hui]; rfl) hnum
  have quiet : ∀ {s : Play} {d : Client}, input 48 s.client = (d, none) →
      Guarded (PlayStep 0) EntersPlane s (.key 48 (request 0 0 .poll).moment)
        { s with client := d } := by
    intro s d h
    have step := @PlayStep.key _ 0 s 48 (request 0 0 .poll).moment (congrArg Prod.snd h)
    rw [h] at step
    exact ⟨step, fun call hcall => absurd (h ▸ hcall) (by simp)⟩
  have refresh : Guarded (PlayStep 0) EntersPlane
      { world := w, client := .start (.static (fun _ => zeroPlane) 0) }
      (.refresh (request 0 0 .poll).moment (request 0 0 .create).moment 0 0 0 [])
      { world := w', client := c } :=
    ⟨.refresh poll (.nil w') rfl, trivial⟩
  have run := Run.cons refresh (.cons (quiet hselect) (.cons (quiet hcommand) (.nil _)))
  exact ⟨platform, _, rfl, rfl, hplane, program_is_client ⟨[], .nil _⟩ joins run⟩

end AirTraffic.Atcc
