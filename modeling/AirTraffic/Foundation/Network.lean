/-
  Foundation/Network.lean --- two sequential parties and a bounded queue to each.

  WHAT THIS FILE IS FOR.  A party sends and receives items in an order of its own,
  which may depend on what it received.  A send waits while the queue to the other
  party is full, a receive while its own queue is empty, and the two parties take
  their steps in any order.  `Meets` pairs each send with the receive that takes
  it, as if nothing were ever under way.  `Meets.completed`: when two parties can
  meet so, every run over queues of any size, however it is interleaved, ends
  with the same results after the same events, and each item is received where it
  fits.
-/
import AirTraffic.Foundation.Confluence
import Mathlib.Logic.Function.Basic

set_option autoImplicit false

namespace AirTraffic.Foundation

inductive Side where
  | left
  | right
  deriving DecidableEq, Repr

namespace Side

def other : Side → Side
  | left => right
  | right => left

@[simp] theorem other_other (side : Side) : side.other.other = side := by
  cases side <;> rfl

@[simp] theorem other_ne (side : Side) : side.other ≠ side := by
  cases side <;> exact Side.noConfusion

@[simp] theorem ne_other (side : Side) : side ≠ side.other := side.other_ne.symm

theorem eq_or_eq_other (side side' : Side) : side' = side ∨ side' = side.other := by
  cases side <;> cases side' <;> simp [other]

end Side

/-- What a party still has to do.  A receive names the slot the item is for. -/
inductive Party (α β ρ : Type) where
  | done (result : ρ)
  | send (item : α) (rest : Party α β ρ)
  | recv (slot : β) (rest : α → Party α β ρ)

/-- The two parties, and the items on the way to each. -/
structure Network (α β : Type) (ρ : Side → Type) where
  party : (side : Side) → Party α β (ρ side)
  inbox : Side → List α

inductive NetworkEvent (α β : Type) where
  | sent (side : Side) (item : α)
  | received (side : Side) (slot : β) (item : α)

section Network

variable {α β : Type} {ρ : Side → Type}

namespace Network

theorem ext_side (side : Side) {m n : Network α β ρ} (party : m.party side = n.party side)
    (party_other : m.party side.other = n.party side.other)
    (inbox : m.inbox side = n.inbox side)
    (inbox_other : m.inbox side.other = n.inbox side.other) : m = n := by
  obtain ⟨mparty, minbox⟩ := m
  obtain ⟨nparty, ninbox⟩ := n
  congr 1
  · funext side'
    rcases side.eq_or_eq_other side' with rfl | rfl
    · exact party
    · exact party_other
  · funext side'
    rcases side.eq_or_eq_other side' with rfl | rfl
    · exact inbox
    · exact inbox_other

/-- Nothing is under way. -/
def start (left : Party α β (ρ .left)) (right : Party α β (ρ .right)) : Network α β ρ where
  party
    | .left => left
    | .right => right
  inbox _ := []

/-- An item is put into the other queue. -/
def sent (n : Network α β ρ) (side : Side) (item : α) (rest : Party α β (ρ side)) :
    Network α β ρ where
  party := Function.update n.party side rest
  inbox := Function.update n.inbox side.other (n.inbox side.other ++ [item])

/-- An item is taken off the queue. -/
def received (n : Network α β ρ) (side : Side) (rest : Party α β (ρ side))
    (items : List α) : Network α β ρ where
  party := Function.update n.party side rest
  inbox := Function.update n.inbox side items

variable (n : Network α β ρ) {side side' : Side} (item : α) (rest : Party α β (ρ side))
  (items : List α)

@[simp] theorem party_sent : (n.sent side item rest).party side = rest := by
  simp [sent]

@[simp] theorem party_sent_of_ne (h : side' ≠ side) :
    (n.sent side item rest).party side' = n.party side' := by
  simp [sent, h]

@[simp] theorem inbox_sent : (n.sent side item rest).inbox side.other =
    n.inbox side.other ++ [item] := by
  simp [sent]

@[simp] theorem inbox_sent_of_ne (h : side' ≠ side.other) :
    (n.sent side item rest).inbox side' = n.inbox side' := by
  simp [sent, h]

@[simp] theorem party_received : (n.received side rest items).party side = rest := by
  simp [received]

@[simp] theorem party_received_of_ne (h : side' ≠ side) :
    (n.received side rest items).party side' = n.party side' := by
  simp [received, h]

@[simp] theorem inbox_received : (n.received side rest items).inbox side = items := by
  simp [received]

@[simp] theorem inbox_received_of_ne (h : side' ≠ side) :
    (n.received side rest items).inbox side' = n.inbox side' := by
  simp [received, h]

end Network

/-- One step of one party: it sends when there is room, or receives what comes
next, where it fits. -/
inductive NetworkStep (capacity : Nat) (fits : β → α → Prop) :
    Network α β ρ → NetworkEvent α β → Network α β ρ → Prop
  | send {n : Network α β ρ} {side : Side} {item : α} {rest : Party α β (ρ side)}
      (party : n.party side = .send item rest)
      (room : (n.inbox side.other).length < capacity) :
      NetworkStep capacity fits n (.sent side item) (n.sent side item rest)
  | recv {n : Network α β ρ} {side : Side} {slot : β} {rest : α → Party α β (ρ side)}
      {item : α} {items : List α} (party : n.party side = .recv slot rest)
      (inbox : n.inbox side = item :: items) (fit : fits slot item) :
      NetworkStep capacity fits n (.received side slot item)
        (n.received side (rest item) items)

/-- Any item fits anywhere. -/
abbrev anyFits : β → α → Prop := fun _ _ => True

variable {capacity : Nat} {fits : β → α → Prop}

/-! ## Steps commute -/

/-- A send and a receive of the other party. -/
theorem NetworkStep.send_recv {n : Network α β ρ} {side : Side} {item got : α}
    {rest : Party α β (ρ side)} {slot : β} {next : α → Party α β (ρ side.other)}
    {items : List α} (sends : n.party side = .send item rest)
    (room : (n.inbox side.other).length < capacity)
    (receives : n.party side.other = .recv slot next)
    (inbox : n.inbox side.other = got :: items) (fit : fits slot got) :
    ∃ u, NetworkStep capacity fits (n.sent side item rest) (.received side.other slot got) u ∧
      NetworkStep capacity fits (n.received side.other (next got) items) (.sent side item) u := by
  have hroom : items.length < capacity := by
    rw [inbox, List.length_cons] at room
    omega
  have hsend : NetworkStep capacity fits (n.received side.other (next got) items)
      (.sent side item) ((n.received side.other (next got) items).sent side item rest) :=
    .send (by simpa using sends) (by simpa using hroom)
  have hrecv : NetworkStep capacity fits (n.sent side item rest)
      (.received side.other slot got)
      ((n.sent side item rest).received side.other (next got) (items ++ [item])) :=
    .recv (by simpa using receives) (by simp [inbox]) fit
  have hsame : (n.sent side item rest).received side.other (next got) (items ++ [item]) =
      (n.received side.other (next got) items).sent side item rest :=
    Network.ext_side side (by simp) (by simp) (by simp) (by simp)
  exact ⟨_, hrecv, hsame ▸ hsend⟩

/-- Two sends. -/
theorem NetworkStep.send_send {n : Network α β ρ} {side : Side} {item item' : α}
    {rest : Party α β (ρ side)} {rest' : Party α β (ρ side.other)}
    (sends : n.party side = .send item rest)
    (room : (n.inbox side.other).length < capacity)
    (sends' : n.party side.other = .send item' rest')
    (room' : (n.inbox side.other.other).length < capacity) :
    ∃ u, NetworkStep capacity fits (n.sent side item rest) (.sent side.other item') u ∧
      NetworkStep capacity fits (n.sent side.other item' rest') (.sent side item) u := by
  have hsecond : NetworkStep capacity fits (n.sent side item rest) (.sent side.other item')
      ((n.sent side item rest).sent side.other item' rest') :=
    .send (by simpa using sends') (by simpa using room')
  have hfirst : NetworkStep capacity fits (n.sent side.other item' rest') (.sent side item)
      ((n.sent side.other item' rest').sent side item rest) :=
    .send (by simpa using sends) (by simpa using room)
  have hsame : (n.sent side item rest).sent side.other item' rest' =
      (n.sent side.other item' rest').sent side item rest :=
    Network.ext_side side (by simp) (by simp) (by simp [Network.sent]) (by simp)
  exact ⟨_, hsecond, hsame ▸ hfirst⟩

/-- Two receives. -/
theorem NetworkStep.recv_recv {n : Network α β ρ} {side : Side} {slot slot' : β} {got got' : α}
    {next : α → Party α β (ρ side)} {next' : α → Party α β (ρ side.other)}
    {items items' : List α} (receives : n.party side = .recv slot next)
    (inbox : n.inbox side = got :: items) (fit : fits slot got)
    (receives' : n.party side.other = .recv slot' next')
    (inbox' : n.inbox side.other = got' :: items') (fit' : fits slot' got') :
    ∃ u, NetworkStep capacity fits (n.received side (next got) items)
        (.received side.other slot' got') u ∧
      NetworkStep capacity fits (n.received side.other (next' got') items')
        (.received side slot got) u := by
  have hsecond : NetworkStep capacity fits (n.received side (next got) items)
      (.received side.other slot' got')
      ((n.received side (next got) items).received side.other (next' got') items') :=
    .recv (by simpa using receives') (by simpa using inbox') fit'
  have hfirst : NetworkStep capacity fits (n.received side.other (next' got') items')
      (.received side slot got)
      ((n.received side.other (next' got') items').received side (next got) items) :=
    .recv (by simpa using receives) (by simpa using inbox) fit
  have hsame : (n.received side (next got) items).received side.other (next' got') items' =
      (n.received side.other (next' got') items').received side (next got) items :=
    Network.ext_side side (by simp) (by simp) (by simp) (by simp)
  exact ⟨_, hsecond, hsame ▸ hfirst⟩

/-- No step of one party takes a step of the other one away. -/
theorem commutes_networkStep :
    Commutes (NetworkStep (ρ := ρ) capacity fits) := by
  intro n t t' event event' step step'
  cases step with
  | @send side item rest party room =>
      cases step' with
      | @send side' item' rest' party' room' =>
          rcases side.eq_or_eq_other side' with rfl | rfl
          · rw [party] at party'
            obtain ⟨rfl, rfl⟩ := Party.send.inj party'
            exact .inl ⟨rfl, rfl⟩
          · exact .inr (NetworkStep.send_send party room party' room')
      | @recv side' slot next got items party' inbox fit =>
          rcases side.eq_or_eq_other side' with rfl | rfl
          · rw [party] at party'
            cases party'
          · exact .inr (NetworkStep.send_recv party room party' inbox fit)
  | @recv side slot next got items party inbox fit =>
      cases step' with
      | @send side' item' rest' party' room' =>
          rcases side'.eq_or_eq_other side with rfl | rfl
          · rw [party] at party'
            cases party'
          · obtain ⟨u, hrecv, hsend⟩ := NetworkStep.send_recv party' room' party inbox fit
            exact .inr ⟨u, hsend, hrecv⟩
      | @recv side' slot' next' got' items' party' inbox' fit' =>
          rcases side.eq_or_eq_other side' with rfl | rfl
          · rw [party] at party'
            rw [inbox] at inbox'
            obtain ⟨rfl, rfl⟩ := Party.recv.inj party'
            obtain ⟨rfl, rfl⟩ := List.cons.inj inbox'
            exact .inl ⟨rfl, rfl⟩
          · exact .inr (NetworkStep.recv_recv party inbox fit party' inbox' fit')

/-! ## Meetings -/

/-- The two parties get through when each send is paired with the receive that
takes it. -/
inductive Meets {σ τ : Type} (fits : β → α → Prop) :
    Party α β σ → Party α β τ → σ → τ → Prop
  | done (a : σ) (b : τ) : Meets fits (.done a) (.done b) a b
  | toRight {item : α} {slot : β} {left : Party α β σ} {right : α → Party α β τ} {a : σ} {b : τ}
      (fit : fits slot item) (rest : Meets fits left (right item) a b) :
      Meets fits (.send item left) (.recv slot right) a b
  | toLeft {item : α} {slot : β} {left : α → Party α β σ} {right : Party α β τ} {a : σ} {b : τ}
      (fit : fits slot item) (rest : Meets fits (left item) right a b) :
      Meets fits (.recv slot left) (.send item right) a b

theorem Meets.symm {σ τ : Type} {left : Party α β σ} {right : Party α β τ} {a : σ} {b : τ}
    (meets : Meets fits left right a b) : Meets fits right left b a := by
  induction meets with
  | done a b => exact .done b a
  | toRight fit _ ih => exact .toLeft fit ih
  | toLeft fit _ ih => exact .toRight fit ih

namespace Party

variable {σ τ : Type}

/-- The items are sent one after the other. -/
def sendAll : List α → Party α β σ → Party α β σ
  | [], next => next
  | item :: items, next => .send item (sendAll items next)

/-- As many items are received, each for the same slot. -/
def recvAll (slot : β) : Nat → (List α → Party α β σ) → Party α β σ
  | 0, next => next []
  | n + 1, next => .recv slot fun item => recvAll slot n fun items => next (item :: items)

end Party

/-- Items that are sent and received one by one. -/
theorem Meets.sendAll_recvAll {σ τ : Type} {slot : β} {items : List α} {left : Party α β σ}
    {right : List α → Party α β τ} {a : σ} {b : τ} (fit : ∀ item ∈ items, fits slot item)
    (rest : Meets fits left (right items) a b) :
    Meets fits (Party.sendAll items left) (Party.recvAll slot items.length right) a b := by
  induction items generalizing right with
  | nil => exact rest
  | cons item items ih =>
      refine .toRight (fit item List.mem_cons_self) ?_
      exact ih (fun other hmem => fit other (List.mem_cons_of_mem item hmem)) rest

/-! ## Every run does what the meeting does -/

/-- Parties that are done do nothing. -/
theorem final_of_done {n : Network α β ρ}
    (done : ∀ side, ∃ result, n.party side = .done result) :
    Final (NetworkStep capacity fits) n := by
  intro event t step
  cases step with
  | @send side item rest party room =>
      obtain ⟨result, hdone⟩ := done side
      rw [hdone] at party
      cases party
  | @recv side slot rest item items party inbox fit =>
      obtain ⟨result, hdone⟩ := done side
      rw [hdone] at party
      cases party

theorem final_done (a : ρ .left) (b : ρ .right) :
    Final (NetworkStep capacity fits) (Network.start (.done a) (.done b)) :=
  final_of_done fun side =>
    match side with
    | .left => ⟨a, rfl⟩
    | .right => ⟨b, rfl⟩

/-- One run is the meeting itself: each item is taken as soon as it is sent. -/
theorem Meets.run {left : Party α β (ρ .left)} {right : Party α β (ρ .right)} {a : ρ .left}
    {b : ρ .right} (hcapacity : 0 < capacity) (meets : Meets fits left right a b) :
    ∃ trace, Run (NetworkStep capacity fits) (Network.start left right) trace
      (Network.start (.done a) (.done b)) := by
  induction meets with
  | done a b => exact ⟨[], .nil _⟩
  | @toRight item slot left right a b fit _ ih =>
      obtain ⟨trace, run⟩ := ih
      let n : Network α β ρ := Network.start (.send item left) (.recv slot right)
      have hsend : NetworkStep capacity fits n (.sent .left item) (n.sent .left item left) :=
        .send rfl hcapacity
      have hrecv : NetworkStep capacity fits (n.sent .left item left)
          (.received .right slot item)
          ((n.sent .left item left).received .right (right item) []) :=
        .recv rfl rfl fit
      have hsame : (n.sent .left item left).received .right (right item) [] =
          Network.start left (right item) :=
        Network.ext_side .left rfl rfl rfl rfl
      exact ⟨_, .cons hsend (.cons (hsame ▸ hrecv) run)⟩
  | @toLeft item slot left right a b fit _ ih =>
      obtain ⟨trace, run⟩ := ih
      let n : Network α β ρ := Network.start (.recv slot left) (.send item right)
      have hsend : NetworkStep capacity fits n (.sent .right item) (n.sent .right item right) :=
        .send rfl hcapacity
      have hrecv : NetworkStep capacity fits (n.sent .right item right)
          (.received .left slot item)
          ((n.sent .right item right).received .left (left item) []) :=
        .recv rfl rfl fit
      have hsame : (n.sent .right item right).received .left (left item) [] =
          Network.start (left item) right :=
        Network.ext_side .left rfl rfl rfl rfl
      exact ⟨_, .cons hsend (.cons (hsame ▸ hrecv) run)⟩

/-- Whatever comes next fits, when the party is done in the end: nothing but this
item lets it go on. -/
theorem Run.fit_of_done {n m : Network α β ρ} {trace : List (NetworkEvent α β × Network α β ρ)}
    (run : Run (NetworkStep capacity fits) n trace m) {side : Side} {slot : β}
    {rest : α → Party α β (ρ side)} {item : α} {items : List α} {result : ρ side}
    (party : n.party side = .recv slot rest) (inbox : n.inbox side = item :: items)
    (ended : m.party side = .done result) : fits slot item := by
  induction run generalizing items with
  | nil n =>
      rw [party] at ended
      cases ended
  | @cons n next m event tail step _ ih =>
      cases step with
      | @send side' item' rest' party' room =>
          rcases side'.eq_or_eq_other side with rfl | rfl
          · rw [party] at party'
            cases party'
          · have hinbox := congrArg (fun queue => queue ++ [item']) inbox
            exact ih (by simpa using party) (by simpa using hinbox) ended
      | @recv side' slot' rest' item' items' party' inbox' fit =>
          rcases side'.eq_or_eq_other side with rfl | rfl
          · rw [party] at party'
            rw [inbox] at inbox'
            obtain ⟨rfl, rfl⟩ := Party.recv.inj party'
            obtain ⟨rfl, rfl⟩ := List.cons.inj inbox'
            exact fit
          · exact ih (by simpa using party) (by simpa using inbox) ended

/-- A step of a network that can still finish with every item fitting is one at
which the item fits. -/
theorem NetworkStep.step_fits {n m : Network α β ρ} {event : NetworkEvent α β}
    {trace : List (NetworkEvent α β × Network α β ρ)} {a : ρ .left} {b : ρ .right}
    (step : NetworkStep capacity anyFits n event m)
    (run : Run (NetworkStep capacity fits) n trace (Network.start (.done a) (.done b))) :
    NetworkStep capacity fits n event m := by
  cases step with
  | send party room => exact .send party room
  | @recv side slot rest item items party inbox _ =>
      refine .recv party inbox ?_
      cases side with
      | left => exact run.fit_of_done party inbox rfl
      | right => exact run.fit_of_done party inbox rfl

/-- Where every item of one run that finishes fits, every item of every run does. -/
theorem Run.every_fits {n m : Network α β ρ} {a : ρ .left} {b : ρ .right}
    {first trace : List (NetworkEvent α β × Network α β ρ)}
    (run : Run (NetworkStep capacity fits) n trace (Network.start (.done a) (.done b)))
    (begun : Run (NetworkStep capacity anyFits) n first m) :
    Run (NetworkStep capacity fits) n first m := by
  induction begun generalizing trace with
  | nil n => exact .nil n
  | cons step _ ih =>
      have hstep := step.step_fits run
      obtain ⟨rest, hrest, _⟩ := run.put_first commutes_networkStep (final_done a b) hstep
      exact .cons hstep (ih hrest)

/-- In a run whose items fit, what is received fits. -/
theorem Run.received_fits {n m : Network α β ρ}
    {trace : List (NetworkEvent α β × Network α β ρ)}
    (run : Run (NetworkStep capacity fits) n trace m) {side : Side} {slot : β} {item : α}
    (hmem : .received side slot item ∈ events trace) : fits slot item := by
  induction run with
  | nil n => exact absurd hmem List.not_mem_nil
  | @cons n next m event rest step _ ih =>
      rcases List.mem_cons.mp hmem with rfl | hlater
      · cases step with
        | recv party inbox fit => exact fit
      · exact ih hlater

theorem Run.anyFits {n m : Network α β ρ} {trace : List (NetworkEvent α β × Network α β ρ)}
    (run : Run (NetworkStep capacity fits) n trace m) :
    Run (NetworkStep capacity anyFits) n trace m := by
  refine run.mono fun n event m step => ?_
  cases step with
  | send party room => exact .send party room
  | recv party inbox fit => exact .recv party inbox trivial

/-- **Two parties that can meet get through over any queues.**  However a run is
interleaved, each item it delivers fits, and it goes on to the results of the
meeting; all of them have the same number of steps. -/
theorem Meets.completed {left : Party α β (ρ .left)} {right : Party α β (ρ .right)}
    {a : ρ .left} {b : ρ .right} (hcapacity : 0 < capacity)
    (meets : Meets fits left right a b) :
    ∃ length, ∀ {first : List (NetworkEvent α β × Network α β ρ)} {n : Network α β ρ},
      Run (NetworkStep capacity anyFits) (Network.start left right) first n →
        Run (NetworkStep capacity fits) (Network.start left right) first n ∧
        ∃ rest, Run (NetworkStep capacity fits) n rest (Network.start (.done a) (.done b)) ∧
          first.length + rest.length = length := by
  obtain ⟨trace, run⟩ := meets.run hcapacity
  refine ⟨trace.length, fun begun => ?_⟩
  have hfits := run.every_fits begun
  exact ⟨hfits, run.length_completed commutes_networkStep (final_done a b) hfits⟩

end Network

end AirTraffic.Foundation
