/-
  Foundation/StreamNetwork.lean --- two sequential parties and a stream to each.

  WHAT THIS FILE IS FOR.  A stream does not keep messages apart.  Into a pipe a
  message goes whole or not at all, but a read takes what is there, up to the size
  it asked for.  A socket takes any part of a message, and a receive waits until it
  has all it asked for.  `Meets.stream_completed`: two parties that can meet, message
  by message and with the sizes that the receives ask for, get through over both.
  At any time only one of them is ahead of the other (`Ahead`), so what is on the
  way is whole messages and one that is being sent, and no receive returns with
  less than a message, or with parts of two: the messages received are those sent, in
  their order (`Ahead.delivers`).  Nor does a run go on for ever
  (`StreamStep.wellFounded`): each step leaves its party less to do.
-/
import AirTraffic.Foundation.Network
import Mathlib.Order.GameAdd
import Mathlib.Order.WellFounded

set_option autoImplicit false

namespace AirTraffic.Foundation

/-! ## Media -/

inductive Medium where
  | pipe
  | socket
  deriving DecidableEq, Repr

namespace Medium

/-- How many of the `left` items of a message go over at once, with `room` for more. -/
def Sends : Medium → Nat → Nat → Nat → Prop
  | pipe, left, room, k => k = left ∧ left ≤ room
  | socket, left, room, k => 0 < k ∧ k ≤ left ∧ k ≤ room

/-- How many of the items that are there a receive takes at once that wants `want`. -/
def Takes : Medium → Nat → Nat → Nat → Prop
  | pipe, want, there, k => 0 < there ∧ k = min want there
  | socket, want, there, k => 0 < k ∧ k ≤ want ∧ k ≤ there

/-- Whether a receive that wanted `want` returns when it took `k`. -/
def Returns : Medium → Nat → Nat → Prop
  | pipe, _, _ => True
  | socket, want, k => k = want

/-- A message of this length can be sent at all. -/
def Holds : Medium → Nat → Nat → Prop
  | pipe, capacity, length => length ≤ capacity
  | socket, capacity, _ => 0 < capacity

end Medium

namespace Medium

variable {medium : Medium} {left room want there k : Nat}

theorem Sends.le (h : medium.Sends left room k) : k ≤ left := by
  cases medium with
  | pipe => exact Nat.le_of_eq h.1
  | socket => exact h.2.1

theorem Takes.le (h : medium.Takes want there k) : k ≤ want ∧ k ≤ there ∧ 0 < there := by
  cases medium with
  | pipe =>
      obtain ⟨hthere, rfl⟩ := h
      exact ⟨Nat.min_le_left _ _, Nat.min_le_right _ _, hthere⟩
  | socket => exact ⟨h.2.1, h.2.2, Nat.lt_of_lt_of_le h.1 h.2.2⟩

/-- Where there is enough, a receive can take all it wants. -/
theorem takes_want (medium : Medium) (hwant : 0 < want) (hthere : want ≤ there) :
    medium.Takes want there want ∧ medium.Returns want want := by
  cases medium with
  | pipe => exact ⟨⟨Nat.lt_of_lt_of_le hwant hthere, (Nat.min_eq_left hthere).symm⟩, trivial⟩
  | socket => exact ⟨⟨hwant, Nat.le_refl _, hthere⟩, rfl⟩

/-- A receive returns with all it wanted, where that much is there. -/
theorem Takes.eq_want (h : medium.Takes want there k) (returns : medium.Returns want k)
    (all : medium = .pipe → want ≤ there) : k = want := by
  cases medium with
  | pipe => rw [h.2, Nat.min_eq_left (all rfl)]
  | socket => exact returns

theorem Takes.lt_want (h : medium.Takes want there k) (waits : ¬ medium.Returns want k) :
    medium = .socket ∧ k < want := by
  cases medium with
  | pipe => exact absurd trivial waits
  | socket => exact ⟨rfl, Nat.lt_of_le_of_ne h.2.1 waits⟩

end Medium

/-- A message for a receive of its size. -/
structure Suits {α : Type} (medium : Medium) (capacity slot : Nat) (message : List α) : Prop where
  whole : message.length = slot
  pos : 0 < slot
  holds : medium.Holds capacity slot

/-! ## Parties and messages -/

namespace Party

variable {α β ρ : Type}

/-- The message that is being sent. -/
def sending : Party (List α) β ρ → List α
  | .send message _ => message
  | _ => []

/-- The size that a receive asks for. -/
def asking : Party (List α) Nat ρ → Nat
  | .recv slot _ => slot
  | _ => 0

end Party

/-- What a party does after its next call. -/
inductive Party.Later {α β ρ : Type} : Party α β ρ → Party α β ρ → Prop
  | send (item : α) (rest : Party α β ρ) : Later rest (.send item rest)
  | recv (slot : β) (rest : α → Party α β ρ) (item : α) : Later (rest item) (.recv slot rest)

theorem Party.later_wellFounded {α β ρ : Type} :
    WellFounded (Party.Later (α := α) (β := β) (ρ := ρ)) := by
  refine ⟨fun party => ?_⟩
  induction party with
  | done result => exact ⟨_, fun _ later => nomatch later⟩
  | send item rest ih =>
      refine ⟨_, fun _ later => ?_⟩
      cases later
      exact ih
  | recv slot rest ih =>
      refine ⟨_, fun _ later => ?_⟩
      cases later
      exact ih _

/-- A party receives all of the items. -/
inductive Consumes {α β ρ : Type} (fits : β → α → Prop) :
    List α → Party α β ρ → Party α β ρ → Prop
  | nil (party : Party α β ρ) : Consumes fits [] party party
  | cons {item : α} {items : List α} {slot : β} {rest : α → Party α β ρ} {last : Party α β ρ}
      (fit : fits slot item) (tail : Consumes fits items (rest item) last) :
      Consumes fits (item :: items) (.recv slot rest) last

theorem Consumes.snoc {α β ρ : Type} {fits : β → α → Prop} {items : List α} {item : α} {slot : β}
    {party : Party α β ρ} {rest : α → Party α β ρ}
    (consumes : Consumes fits items party (.recv slot rest)) (fit : fits slot item) :
    Consumes fits (items ++ [item]) party (rest item) := by
  generalize hlast : Party.recv slot rest = last at consumes
  induction consumes with
  | nil party => exact hlast ▸ .cons fit (.nil _)
  | cons first _ ih => exact .cons first (ih hlast)

/-! ## Two streams -/

/-- The parties; how much of a message each has sent, and what of one it has got;
and the stream to each. -/
structure StreamNetwork (α : Type) (ρ : Side → Type) where
  party : (side : Side) → Party (List α) Nat (ρ side)
  sent : Side → Nat
  got : Side → List α
  wire : Side → List α

inductive StreamEvent (α : Type) where
  | sent (side : Side) (part : List α)
  /-- The last part of the message goes over. -/
  | finished (side : Side) (message : List α)
  | took (side : Side) (part : List α)
  | received (side : Side) (slot : Nat) (message : List α)

/-- What a receive returned with is what it asked for. -/
def StreamEvent.Whole {α : Type} : StreamEvent α → Prop
  | .received _ slot message => message.length = slot
  | _ => True

/-- The message that a side has sent to its end. -/
def StreamEvent.sentBy {α : Type} (side : Side) : StreamEvent α → Option (List α)
  | .finished s message => if s = side then some message else none
  | _ => none

/-- The message with which a receive of a side returned. -/
def StreamEvent.receivedBy {α : Type} (side : Side) : StreamEvent α → Option (List α)
  | .received s _ message => if s = side then some message else none
  | _ => none

/-- The messages that a side has received are the first ones that the other side has
sent. -/
def InOrder {α : Type} (es : List (StreamEvent α)) : Prop :=
  ∀ side : Side, es.filterMap (StreamEvent.receivedBy side.other) <+:
    es.filterMap (StreamEvent.sentBy side)

section StreamNetwork

variable {α : Type} {ρ : Side → Type}

namespace StreamNetwork

/-- Nothing is under way. -/
def start (left : Party (List α) Nat (ρ .left)) (right : Party (List α) Nat (ρ .right)) :
    StreamNetwork α ρ where
  party
    | .left => left
    | .right => right
  sent _ := 0
  got _ := []
  wire _ := []

/-- A part of a message goes into the other stream. -/
def put (n : StreamNetwork α ρ) (side : Side) (part : List α) (sent : Nat) :
    StreamNetwork α ρ :=
  { n with
    sent := Function.update n.sent side sent
    wire := Function.update n.wire side.other (n.wire side.other ++ part) }

/-- Some items are taken off the stream. -/
def take (n : StreamNetwork α ρ) (side : Side) (k : Nat) (got : List α) :
    StreamNetwork α ρ :=
  { n with
    got := Function.update n.got side got
    wire := Function.update n.wire side ((n.wire side).drop k) }

/-- The function returns, and the party goes on. -/
def goOn (n : StreamNetwork α ρ) (side : Side) (rest : Party (List α) Nat (ρ side)) :
    StreamNetwork α ρ :=
  { n with party := Function.update n.party side rest }

variable (n : StreamNetwork α ρ) {side side' : Side} (part : List α) (sent k : Nat)
  (got : List α) (rest : Party (List α) Nat (ρ side))

@[simp] theorem party_put : (n.put side part sent).party = n.party := rfl

@[simp] theorem got_put : (n.put side part sent).got = n.got := rfl

@[simp] theorem sent_put : (n.put side part sent).sent side = sent := by simp [put]

@[simp] theorem sent_put_of_ne (h : side' ≠ side) :
    (n.put side part sent).sent side' = n.sent side' := by
  simp [put, h]

@[simp] theorem wire_put : (n.put side part sent).wire side.other =
    n.wire side.other ++ part := by
  simp [put]

@[simp] theorem wire_put_of_ne (h : side' ≠ side.other) :
    (n.put side part sent).wire side' = n.wire side' := by
  simp [put, h]

@[simp] theorem party_take : (n.take side k got).party = n.party := rfl

@[simp] theorem sent_take : (n.take side k got).sent = n.sent := rfl

@[simp] theorem got_take : (n.take side k got).got side = got := by simp [take]

@[simp] theorem got_take_of_ne (h : side' ≠ side) :
    (n.take side k got).got side' = n.got side' := by
  simp [take, h]

@[simp] theorem wire_take : (n.take side k got).wire side = (n.wire side).drop k := by
  simp [take]

@[simp] theorem wire_take_of_ne (h : side' ≠ side) :
    (n.take side k got).wire side' = n.wire side' := by
  simp [take, h]

@[simp] theorem party_goOn : (n.goOn side rest).party side = rest := by simp [goOn]

@[simp] theorem party_goOn_of_ne (h : side' ≠ side) :
    (n.goOn side rest).party side' = n.party side' := by
  simp [goOn, h]

@[simp] theorem sent_goOn : (n.goOn side rest).sent = n.sent := rfl

@[simp] theorem got_goOn : (n.goOn side rest).got = n.got := rfl

@[simp] theorem wire_goOn : (n.goOn side rest).wire = n.wire := rfl

end StreamNetwork

/-- One step of one party on one stream. -/
inductive StreamStep (medium : Medium) (capacity : Nat) :
    StreamNetwork α ρ → StreamEvent α → StreamNetwork α ρ → Prop
  | part {n : StreamNetwork α ρ} {side : Side} {message : List α}
      {rest : Party (List α) Nat (ρ side)} {k : Nat} (party : n.party side = .send message rest)
      (sends : medium.Sends (message.length - n.sent side)
        (capacity - (n.wire side.other).length) k)
      (more : n.sent side + k < message.length) :
      StreamStep medium capacity n (.sent side ((message.drop (n.sent side)).take k))
        (n.put side ((message.drop (n.sent side)).take k) (n.sent side + k))
  | last {n : StreamNetwork α ρ} {side : Side} {message : List α}
      {rest : Party (List α) Nat (ρ side)} {k : Nat} (party : n.party side = .send message rest)
      (sends : medium.Sends (message.length - n.sent side)
        (capacity - (n.wire side.other).length) k)
      (all : n.sent side + k = message.length) :
      StreamStep medium capacity n (.finished side message)
        ((n.put side ((message.drop (n.sent side)).take k) 0).goOn side rest)
  | took {n : StreamNetwork α ρ} {side : Side} {slot : Nat}
      {rest : List α → Party (List α) Nat (ρ side)} {k : Nat}
      (party : n.party side = .recv slot rest)
      (takes : medium.Takes (slot - (n.got side).length) (n.wire side).length k)
      (waits : ¬ medium.Returns (slot - (n.got side).length) k) :
      StreamStep medium capacity n (.took side ((n.wire side).take k))
        (n.take side k (n.got side ++ (n.wire side).take k))
  | received {n : StreamNetwork α ρ} {side : Side} {slot : Nat}
      {rest : List α → Party (List α) Nat (ρ side)} {k : Nat}
      (party : n.party side = .recv slot rest)
      (takes : medium.Takes (slot - (n.got side).length) (n.wire side).length k)
      (returns : medium.Returns (slot - (n.got side).length) k) :
      StreamStep medium capacity n (.received side slot (n.got side ++ (n.wire side).take k))
        ((n.take side k []).goOn side (rest (n.got side ++ (n.wire side).take k)))

variable {medium : Medium} {capacity : Nat} {s t : Side} {n m : StreamNetwork α ρ}
  {results : (side : Side) → ρ side}

/-! ## No run goes on for ever -/

namespace StreamNetwork

/-- The items that a party still sends or receives in its present call. -/
def left (n : StreamNetwork α ρ) (side : Side) : Nat :=
  match n.party side with
  | .done _ => 0
  | .send message _ => message.length - n.sent side
  | .recv slot _ => slot - (n.got side).length

/-- What a party still has to do. -/
def todo (n : StreamNetwork α ρ) (side : Side) : Party (List α) Nat (ρ side) × Nat :=
  (n.party side, n.left side)

theorem todo_congr (hparty : m.party s = n.party s) (hsent : m.sent s = n.sent s)
    (hgot : m.got s = n.got s) : m.todo s = n.todo s := by
  simp only [todo, left, hparty, hsent, hgot]

end StreamNetwork

/-- A step leaves its party less to do, and the other party as much as before. -/
theorem StreamStep.less {event : StreamEvent α} (step : StreamStep medium capacity n event m) :
    ∃ side, Prod.Lex Party.Later (· < ·) (m.todo side) (n.todo side) ∧
      m.todo side.other = n.todo side.other := by
  cases step with
  | @part side message rest k party sends more =>
      have hsome : 0 < k := by
        cases medium with
        | pipe => exact absurd (sends.1 ▸ more) (by omega)
        | socket => exact sends.1
      refine ⟨side, ?_, StreamNetwork.todo_congr rfl (by simp) rfl⟩
      simp only [StreamNetwork.todo, StreamNetwork.left, StreamNetwork.party_put, party,
        StreamNetwork.sent_put]
      exact .right _ (by omega)
  | @last side message rest k party sends all =>
      refine ⟨side, ?_, StreamNetwork.todo_congr (by simp) (by simp) rfl⟩
      simp only [StreamNetwork.todo, StreamNetwork.party_goOn, party]
      exact .left _ _ (.send message rest)
  | @took side slot rest k party takes waits =>
      obtain ⟨hmedium, hlt⟩ := takes.lt_want waits
      obtain ⟨hwant, hthere, _⟩ := takes.le
      have hsome : 0 < k := by
        subst hmedium
        exact takes.1
      refine ⟨side, ?_, StreamNetwork.todo_congr rfl rfl (by simp)⟩
      simp only [StreamNetwork.todo, StreamNetwork.left, StreamNetwork.party_take, party,
        StreamNetwork.got_take, List.length_append, List.length_take]
      exact .right _ (by omega)
  | @received side slot rest k party takes returns =>
      refine ⟨side, ?_, StreamNetwork.todo_congr (by simp) rfl (by simp)⟩
      simp only [StreamNetwork.todo, StreamNetwork.party_goOn, party]
      exact .left _ _ (.recv slot rest _)

/-- **No run of two parties over streams goes on for ever.** -/
theorem StreamStep.wellFounded : WellFounded fun m n : StreamNetwork α ρ =>
    ∃ event, StreamStep medium capacity n event m := by
  have hless : ∀ side, WellFounded
      (Prod.Lex (Party.Later (α := List α) (β := Nat) (ρ := ρ side)) (· < · : Nat → Nat → Prop)) :=
    fun side => Party.later_wellFounded.prod_lex Nat.lt_wfRel.wf
  let todo : StreamNetwork α ρ → _ := fun n => (n.todo .left, n.todo .right)
  refine Subrelation.wf ?_ (InvImage.wf todo ((hless .left).prod_gameAdd (hless .right)))
  rintro m n ⟨event, step⟩
  obtain ⟨side, hlt, heq⟩ := step.less
  refine Prod.gameAdd_iff.mpr ?_
  cases side with
  | left => exact Or.inl ⟨hlt, heq⟩
  | right => exact Or.inr ⟨hlt, heq⟩

/-! ## Who is ahead -/

/-- One side has sent `items` and a part of one more message, which the other side has
not all received; the other side has sent nothing that was not received. -/
structure Ahead (medium : Medium) (capacity : Nat) (results : (side : Side) → ρ side)
    (n : StreamNetwork α ρ) (s t : Side) (items : List (List α))
    (rest : Party (List α) Nat (ρ t)) : Prop where
  other : t = s.other
  wire : n.wire s = []
  got : n.got s = []
  sent : n.sent t = 0
  flow : n.got t ++ n.wire t = items.flatten ++ (n.party s).sending.take (n.sent s)
  begun : n.sent s ≠ 0 → n.sent s < (n.party s).sending.length
  short : n.got t ≠ [] → (n.got t).length < (n.party t).asking
  whole : medium = .pipe → n.sent s = 0 ∧ n.got t = []
  consumes : Consumes (Suits medium capacity) items (n.party t) rest
  meets : Meets (Suits medium capacity) (n.party s) rest (results s) (results t)

variable {items : List (List α)} {rest : Party (List α) Nat (ρ t)}

/-- What the side ahead sends, the other side will receive. -/
theorem Ahead.meets_send (h : Ahead medium capacity results n s t items rest)
    {message : List α} {next : Party (List α) Nat (ρ s)} (party : n.party s = .send message next) :
    ∃ slot later, rest = .recv slot later ∧ Suits medium capacity slot message ∧
      Meets (Suits medium capacity) next (later message) (results s) (results t) := by
  have meets := h.meets
  rw [party] at meets
  cases meets with
  | toRight fit meets => exact ⟨_, _, rfl, fit, meets⟩

/-- What the other side receives is on the way, or the side ahead is sending it. -/
theorem Ahead.meets_recv (h : Ahead medium capacity results n s t items rest) {slot : Nat}
    {later : List α → Party (List α) Nat (ρ t)} (party : n.party t = .recv slot later) :
    (∃ message items', items = message :: items' ∧ Suits medium capacity slot message ∧
      Consumes (Suits medium capacity) items' (later message) rest) ∨
    (items = [] ∧ rest = .recv slot later ∧ ∃ message next, n.party s = .send message next ∧
      Suits medium capacity slot message) := by
  have consumes := h.consumes
  rw [party] at consumes
  cases consumes with
  | nil =>
      have meets := h.meets
      generalize hparty : n.party s = p at meets
      cases meets with
      | toRight fit meets => exact Or.inr ⟨rfl, rfl, _, _, rfl, fit⟩
  | cons fit tail => exact Or.inl ⟨_, _, rfl, fit, tail⟩

/-- When nothing is on the way, either side may be the one that is ahead. -/
theorem Ahead.turn (h : Ahead medium capacity results n s t [] rest) (hsent : n.sent s = 0) :
    n.got t = [] ∧ n.wire t = [] ∧ rest = n.party t ∧
      Ahead medium capacity results n t s [] (n.party s) := by
  have hrest : rest = n.party t := by
    have consumes := h.consumes
    generalize n.party t = p at consumes
    cases consumes
    rfl
  have hflow := h.flow
  rw [hsent, List.flatten_nil, List.take_zero, List.append_nil] at hflow
  obtain ⟨hgot, hwire⟩ := List.append_eq_nil_iff.mp hflow
  refine ⟨hgot, hwire, hrest, ?_⟩
  exact
    { other := by rw [h.other, Side.other_other]
      wire := hwire
      got := hgot
      sent := hsent
      flow := by simp [h.got, h.wire, h.sent]
      begun := fun hne => absurd h.sent hne
      short := fun hne => absurd h.got hne
      whole := fun _ => ⟨h.sent, h.got⟩
      consumes := .nil _
      meets := hrest ▸ h.meets.symm }

/-- A side that does not send has sent nothing of its next message. -/
theorem Ahead.sent_eq_zero (h : Ahead medium capacity results n s t items rest)
    (hidle : (n.party s).sending = []) : n.sent s = 0 := by
  by_contra hne
  have hlt := h.begun hne
  rw [hidle] at hlt
  exact absurd hlt (Nat.not_lt_zero _)

/-- A side that sends has received all that is on the way to it. -/
theorem Ahead.caught_up (h : Ahead medium capacity results n s t items rest) {message : List α}
    {next : Party (List α) Nat (ρ t)} (party : n.party t = .send message next) :
    items = [] ∧ rest = .send message next := by
  have consumes := h.consumes
  rw [party] at consumes
  cases consumes
  exact ⟨rfl, rfl⟩

/-- When the other side sends, it is not behind any more. -/
theorem Ahead.swap (h : Ahead medium capacity results n s t items rest) {message : List α}
    {next : Party (List α) Nat (ρ t)} (party : n.party t = .send message next) :
    Ahead medium capacity results n t s [] (n.party s) := by
  obtain ⟨rfl, rfl⟩ := h.caught_up party
  have hidle : (n.party s).sending = [] := by
    have meets := h.meets
    generalize n.party s = p at meets
    cases meets
    rfl
  exact (h.turn (h.sent_eq_zero hidle)).2.2.2

/-! ## One step -/

/-- The side ahead sends a part of its message. -/
theorem Ahead.part (h : Ahead medium capacity results n s t items rest) {message : List α}
    {next : Party (List α) Nat (ρ s)} {k : Nat} (party : n.party s = .send message next)
    (sends : medium.Sends (message.length - n.sent s)
      (capacity - (n.wire s.other).length) k) (more : n.sent s + k < message.length) :
    Ahead medium capacity results
      (n.put s ((message.drop (n.sent s)).take k) (n.sent s + k)) s t items rest := by
  obtain rfl := h.other
  have hflow := h.flow
  have hbegun := h.begun
  rw [party, Party.sending] at hflow hbegun
  refine
    { other := rfl
      wire := by simp [h.wire]
      got := h.got
      sent := by simp [h.sent]
      flow := ?_
      begun := ?_
      short := h.short
      whole := ?_
      consumes := h.consumes
      meets := h.meets }
  · simp only [StreamNetwork.got_put, StreamNetwork.wire_put, StreamNetwork.party_put,
      StreamNetwork.sent_put, party, Party.sending]
    rw [← List.append_assoc, hflow, List.append_assoc, List.take_add]
  · intro _
    simpa [party, Party.sending] using more
  · intro hpipe
    subst hpipe
    have hall := sends.1
    omega

/-- It sends the rest of its message. -/
theorem Ahead.last (h : Ahead medium capacity results n s t items rest) {message : List α}
    {next : Party (List α) Nat (ρ s)} {k : Nat} (party : n.party s = .send message next)
    (all : n.sent s + k = message.length) :
    ∃ slot later, rest = .recv slot later ∧ Ahead medium capacity results
      ((n.put s ((message.drop (n.sent s)).take k) 0).goOn s next) s t (items ++ [message])
        (later message) := by
  obtain rfl := h.other
  obtain ⟨slot, later, rfl, fit, meets⟩ := h.meets_send party
  have hflow := h.flow
  rw [party, Party.sending] at hflow
  refine ⟨slot, later, rfl,
    { other := rfl
      wire := by simp [h.wire]
      got := h.got
      sent := by simp [h.sent]
      flow := ?_
      begun := by simp
      short := ?_
      whole := ?_
      consumes := ?_
      meets := by simpa using meets }⟩
  · have hrest : (message.drop (n.sent s)).take k = message.drop (n.sent s) :=
      List.take_of_length_le (by rw [List.length_drop]; omega)
    simp only [StreamNetwork.got_goOn, StreamNetwork.got_put, StreamNetwork.wire_goOn,
      StreamNetwork.wire_put, StreamNetwork.sent_goOn, StreamNetwork.sent_put, List.take_zero,
      List.append_nil]
    rw [← List.append_assoc, hflow, hrest, List.append_assoc, List.take_append_drop,
      List.flatten_append, List.flatten_singleton]
  · simpa using h.short
  · intro hpipe
    simpa using (h.whole hpipe).2
  · simpa using h.consumes.snoc fit

/-- The other side takes a part of a message. -/
theorem Ahead.took (h : Ahead medium capacity results n s t items rest) {slot k : Nat}
    {later : List α → Party (List α) Nat (ρ t)} (party : n.party t = .recv slot later)
    (takes : medium.Takes (slot - (n.got t).length) (n.wire t).length k)
    (waits : ¬ medium.Returns (slot - (n.got t).length) k) :
    Ahead medium capacity results (n.take t k (n.got t ++ (n.wire t).take k)) s t items rest := by
  have hne : s ≠ t := by rw [h.other]; exact Side.ne_other s
  obtain ⟨hmedium, hlt⟩ := takes.lt_want waits
  obtain ⟨_, hthere, _⟩ := takes.le
  refine
    { other := h.other
      wire := by simp [hne, h.wire]
      got := by simp [hne, h.got]
      sent := h.sent
      flow := ?_
      begun := h.begun
      short := ?_
      whole := fun hpipe => absurd (hpipe.symm.trans hmedium) (by simp)
      consumes := h.consumes
      meets := h.meets }
  · simp only [StreamNetwork.got_take, StreamNetwork.wire_take, StreamNetwork.party_take,
      StreamNetwork.sent_take]
    rw [List.append_assoc, List.take_append_drop]
    exact h.flow
  · intro _
    simp only [StreamNetwork.got_take, StreamNetwork.party_take, party, Party.asking,
      List.length_append, List.length_take]
    omega

/-- A receive that returns has the first message that is on the way. -/
theorem Ahead.message (h : Ahead medium capacity results n s t items rest) {slot k : Nat}
    {later : List α → Party (List α) Nat (ρ t)} (party : n.party t = .recv slot later)
    (takes : medium.Takes (slot - (n.got t).length) (n.wire t).length k)
    (returns : medium.Returns (slot - (n.got t).length) k) :
    ∃ message items', items = message :: items' ∧ message.length = slot ∧
      n.got t ++ (n.wire t).take k = message ∧
      Consumes (Suits medium capacity) items' (later message) rest := by
  obtain ⟨_, hthere, hsome⟩ := takes.le
  have hgot : (n.got t).length ≤ slot := by
    by_cases hnil : n.got t = []
    · rw [hnil]
      exact Nat.zero_le _
    · have hshort := h.short hnil
      rw [party, Party.asking] at hshort
      exact Nat.le_of_lt hshort
  have hflow := h.flow
  have hlength := congrArg List.length hflow
  rw [List.length_append, List.length_append, List.length_take] at hlength
  rcases h.meets_recv party with ⟨message, items', rfl, fit, tail⟩ |
    ⟨rfl, _, message, next, hsend, fit⟩
  · have hwant : k = slot - (n.got t).length := by
      refine takes.eq_want returns fun _ => ?_
      rw [List.flatten_cons, List.length_append, fit.whole] at hlength
      omega
    refine ⟨message, items', rfl, fit.whole, ?_, tail⟩
    rw [List.flatten_cons, List.append_assoc] at hflow
    have hprefix := congrArg (List.take slot) hflow
    rw [List.take_append, List.take_of_length_le hgot, ← hwant, ← fit.whole,
      List.take_left] at hprefix
    exact hprefix
  · -- less than one message is on the way
    rw [hsend, Party.sending, List.flatten_nil, List.length_nil, fit.whole] at hlength
    have hpart : n.sent s < slot := by
      by_cases hzero : n.sent s = 0
      · rw [hzero]
        exact fit.pos
      · have hbegun := h.begun hzero
        rwa [hsend, Party.sending, fit.whole] at hbegun
    have hwant : k = slot - (n.got t).length := by
      refine takes.eq_want returns fun hpipe => ?_
      have hnone := (h.whole hpipe).1
      omega
    omega

/-- The other side receives a message. -/
theorem Ahead.received (h : Ahead medium capacity results n s t items rest) {slot k : Nat}
    {later : List α → Party (List α) Nat (ρ t)} (party : n.party t = .recv slot later)
    (takes : medium.Takes (slot - (n.got t).length) (n.wire t).length k)
    (returns : medium.Returns (slot - (n.got t).length) k) :
    (n.got t ++ (n.wire t).take k).length = slot ∧
      ∃ items', items = (n.got t ++ (n.wire t).take k) :: items' ∧
        Ahead medium capacity results
          ((n.take t k []).goOn t (later (n.got t ++ (n.wire t).take k))) s t items' rest := by
  obtain ⟨message, items', rfl, hlength, hmessage, tail⟩ := h.message party takes returns
  have hne : s ≠ t := by rw [h.other]; exact Side.ne_other s
  have hflow := h.flow
  rw [← List.take_append_drop k (n.wire t), ← List.append_assoc, hmessage, List.flatten_cons,
    List.append_assoc] at hflow
  rw [hmessage]
  refine ⟨hlength, items', rfl,
    { other := h.other
      wire := by simp [hne, h.wire]
      got := by simp [hne, h.got]
      sent := h.sent
      flow := ?_
      begun := by simpa [hne] using h.begun
      short := by simp
      whole := ?_
      consumes := by simpa using tail
      meets := by simpa [hne] using h.meets }⟩
  · simpa [hne] using List.append_cancel_left hflow
  · intro hpipe
    simpa using (h.whole hpipe).1

/-- The side that is behind receives the messages that are on the way, and then those
that are sent; the other one receives those that are sent. -/
def Delivers (s t : Side) (items : List (List α)) (es : List (StreamEvent α)) : Prop :=
  es.filterMap (StreamEvent.receivedBy t) <+: items ++ es.filterMap (StreamEvent.sentBy s) ∧
    es.filterMap (StreamEvent.receivedBy s) <+: es.filterMap (StreamEvent.sentBy t)

theorem Delivers.swap {es : List (StreamEvent α)} (h : Delivers t s [] es) : Delivers s t [] es :=
  ⟨h.2, h.1⟩

theorem Delivers.sent {items : List (List α)} {side : Side} {part : List α}
    {es : List (StreamEvent α)} (h : Delivers s t items es) :
    Delivers s t items (.sent side part :: es) := h

theorem Delivers.took {items : List (List α)} {side : Side} {part : List α}
    {es : List (StreamEvent α)} (h : Delivers s t items es) :
    Delivers s t items (.took side part :: es) := h

theorem Delivers.finished {items : List (List α)} {message : List α} {es : List (StreamEvent α)}
    (hne : s ≠ t) (h : Delivers s t (items ++ [message]) es) :
    Delivers s t items (.finished s message :: es) := by
  obtain ⟨hbehind, hahead⟩ := h
  rw [List.append_assoc] at hbehind
  constructor
  · simpa [List.filterMap_cons, StreamEvent.receivedBy, StreamEvent.sentBy] using hbehind
  · simpa [List.filterMap_cons, StreamEvent.receivedBy, StreamEvent.sentBy, hne] using hahead

theorem Delivers.received {items : List (List α)} {slot : Nat} {message : List α}
    {es : List (StreamEvent α)} (hne : s ≠ t) (h : Delivers s t items es) :
    Delivers s t (message :: items) (.received t slot message :: es) := by
  obtain ⟨hbehind, hahead⟩ := h
  constructor
  · simpa [List.filterMap_cons, StreamEvent.receivedBy, StreamEvent.sentBy] using hbehind
  · simpa [List.filterMap_cons, StreamEvent.receivedBy, StreamEvent.sentBy, hne.symm] using hahead

/-- **One side is ahead after every step**, what was received is a whole message, and
what is on the way is delivered. -/
theorem Ahead.step (h : Ahead medium capacity results n s t items rest) {event : StreamEvent α}
    (step : StreamStep medium capacity n event m) :
    event.Whole ∧ ∃ s' t' items' rest', Ahead medium capacity results m s' t' items' rest' ∧
      ∀ es, Delivers s' t' items' es → Delivers s t items (event :: es) := by
  have hsides : ∀ side, side = s ∨ side = t := fun side => h.other ▸ s.eq_or_eq_other side
  have hne : s ≠ t := by rw [h.other]; exact Side.ne_other s
  have hnone : ∀ {want k : Nat}, ¬ medium.Takes want (n.wire s).length k := by
    intro want k takes
    have hthere := takes.le.2.2
    rw [h.wire] at hthere
    exact absurd hthere (Nat.lt_irrefl 0)
  cases step with
  | @part side message next k party sends more =>
      refine ⟨trivial, ?_⟩
      rcases hsides side with rfl | rfl
      · exact ⟨_, _, _, _, h.part party sends more, fun _ hes => hes.sent⟩
      · obtain ⟨rfl, _⟩ := h.caught_up party
        exact ⟨_, _, _, _, (h.swap party).part party sends more, fun _ hes => hes.swap.sent⟩
  | @last side message next k party sends all =>
      refine ⟨trivial, ?_⟩
      rcases hsides side with rfl | rfl
      · obtain ⟨_, _, _, hlast⟩ := h.last party all
        exact ⟨_, _, _, _, hlast, fun _ hes => hes.finished hne⟩
      · obtain ⟨rfl, _⟩ := h.caught_up party
        obtain ⟨_, _, _, hlast⟩ := (h.swap party).last party all
        exact ⟨_, _, _, _, hlast, fun _ hes => (hes.finished hne.symm).swap⟩
  | @took side slot later k party takes waits =>
      refine ⟨trivial, ?_⟩
      rcases hsides side with rfl | rfl
      · exact absurd takes hnone
      · exact ⟨_, _, _, _, h.took party takes waits, fun _ hes => hes.took⟩
  | @received side slot later k party takes returns =>
      rcases hsides side with rfl | rfl
      · exact absurd takes hnone
      · obtain ⟨hlength, items', rfl, hreceived⟩ := h.received party takes returns
        exact ⟨hlength, _, _, _, _, hreceived, fun _ hes => hes.received hne⟩

/-- **What is on the way is delivered, message by message.** -/
theorem Ahead.delivers (h : Ahead medium capacity results n s t items rest)
    {trace : List (StreamEvent α × StreamNetwork α ρ)}
    (run : Run (StreamStep medium capacity) n trace m) : Delivers s t items (events trace) := by
  induction run generalizing s t items rest with
  | nil n => exact ⟨List.nil_prefix, List.nil_prefix⟩
  | cons step _ ih =>
      obtain ⟨_, _, _, _, _, hnext, hdelivers⟩ := h.step step
      exact hdelivers _ (ih hnext)

theorem Delivers.inOrder {es : List (StreamEvent α)} (h : Delivers s s.other [] es) :
    InOrder es := by
  intro side
  rcases s.eq_or_eq_other side with rfl | rfl
  · exact h.1
  · rw [Side.other_other]
    exact h.2

/-! ## No run gets stuck -/

/-- All messages that are on the way are received. -/
theorem Ahead.drain (h : Ahead medium capacity results n s t items rest) :
    ∃ trace m, Run (StreamStep medium capacity) n trace m ∧ m.party s = n.party s ∧
      m.sent s = n.sent s ∧ Ahead medium capacity results m s t [] rest := by
  induction items generalizing n with
  | nil => exact ⟨[], n, .nil n, rfl, rfl, h⟩
  | cons message items ih =>
      have hne : s ≠ t := by rw [h.other]; exact Side.ne_other s
      obtain ⟨slot, later, party, fit⟩ : ∃ slot later, n.party t = .recv slot later ∧
          Suits medium capacity slot message := by
        have consumes := h.consumes
        generalize n.party t = p at consumes
        cases consumes with
        | cons fit tail => exact ⟨_, _, rfl, fit⟩
      have hgot : (n.got t).length < slot := by
        by_cases hnil : n.got t = []
        · rw [hnil]
          exact fit.pos
        · have hshort := h.short hnil
          rwa [party, Party.asking] at hshort
      have hlength := congrArg List.length h.flow
      rw [List.flatten_cons, List.length_append, List.append_assoc, List.length_append,
        fit.whole] at hlength
      obtain ⟨takes, returns⟩ : medium.Takes (slot - (n.got t).length) (n.wire t).length
            (slot - (n.got t).length) ∧
          medium.Returns (slot - (n.got t).length) (slot - (n.got t).length) :=
        medium.takes_want (by omega) (by omega)
      obtain ⟨_, items', hitems, hreceived⟩ := h.received party takes returns
      obtain ⟨_, rfl⟩ := List.cons.inj hitems
      obtain ⟨trace, m, run, hparty, hsent, hm⟩ := ih hreceived
      exact ⟨_, m, .cons (.received party takes returns) run, hparty.trans (by simp [hne]),
        hsent, hm⟩

/-- The other side takes what there is of a message. -/
theorem Ahead.clear (h : Ahead medium capacity results n s t [] rest) (hmedium : medium = .socket)
    {message : List α} {next : Party (List α) Nat (ρ s)} (party : n.party s = .send message next) :
    ∃ trace m, Run (StreamStep medium capacity) n trace m ∧ m.party s = n.party s ∧
      m.sent s = n.sent s ∧ m.wire t = [] ∧ Ahead medium capacity results m s t [] rest := by
  obtain ⟨slot, later, rfl, fit, _⟩ := h.meets_send party
  have hother : n.party t = .recv slot later := by
    have consumes := h.consumes
    generalize n.party t = p at consumes
    cases consumes
    rfl
  by_cases hempty : n.wire t = []
  · exact ⟨[], n, .nil n, rfl, rfl, hempty, h⟩
  · have hsome := List.length_pos_iff.mpr hempty
    have hlength := congrArg List.length h.flow
    rw [party, Party.sending, List.flatten_nil, List.nil_append, List.length_append,
      List.length_take, fit.whole] at hlength
    have hpart : n.sent s < slot := by
      have hbegun := h.begun (by omega)
      rwa [party, Party.sending, fit.whole] at hbegun
    subst hmedium
    have takes : Medium.socket.Takes (slot - (n.got t).length) (n.wire t).length
        (n.wire t).length := ⟨hsome, by omega, Nat.le_refl _⟩
    have waits : ¬ Medium.socket.Returns (slot - (n.got t).length) (n.wire t).length := by
      intro hall
      simp only [Medium.Returns] at hall
      omega
    exact ⟨_, _, .cons (.took hother takes waits) (.nil _), rfl, rfl, by simp,
      h.took hother takes waits⟩

/-- A message that is being sent goes over. -/
theorem Ahead.transfer (h : Ahead medium capacity results n s t [] rest) {message : List α}
    {next : Party (List α) Nat (ρ s)} (party : n.party s = .send message next) :
    ∃ trace m slot later, Run (StreamStep medium capacity) n trace m ∧ m.party s = next ∧
      m.sent s = 0 ∧ rest = .recv slot later ∧
      Ahead medium capacity results m s t [message] (later message) := by
  -- what is left of the message decreases
  generalize hleft : message.length - n.sent s = left
  induction left using Nat.strongRecOn generalizing n with
  | _ left ih =>
      obtain ⟨slot, _, _, fit, _⟩ := h.meets_send party
      have hpart : n.sent s < message.length := by
        by_cases hzero : n.sent s = 0
        · rw [hzero, fit.whole]
          exact fit.pos
        · have hbegun := h.begun hzero
          rwa [party, Party.sending] at hbegun
      have hother := h.other
      cases hmedium : medium with
      | pipe =>
          subst hmedium
          obtain ⟨hsent, hgot⟩ := h.whole rfl
          obtain ⟨_, hwire, _⟩ := h.turn hsent
          have hroom := fit.holds
          rw [← fit.whole] at hroom
          have sends : Medium.pipe.Sends (message.length - n.sent s)
              (capacity - (n.wire s.other).length) message.length := by
            rw [← hother, hwire, hsent]
            exact ⟨rfl, hroom⟩
          have all : n.sent s + message.length = message.length := by omega
          obtain ⟨slot, later, hrest, hlast⟩ := h.last party all
          exact ⟨_, _, slot, later, .cons (.last party sends all) (.nil _), by simp, by simp,
            hrest, hlast⟩
      | socket =>
          subst hmedium
          obtain ⟨first, m, run, hparty, hsent, hwire, hm⟩ := h.clear rfl party
          rw [party] at hparty
          have hroom : 0 < capacity := fit.holds
          have sends : Medium.socket.Sends (message.length - m.sent s)
              (capacity - (m.wire s.other).length) 1 := by
            rw [← hother, hwire, hsent]
            exact ⟨Nat.one_pos, by omega, hroom⟩
          by_cases all : m.sent s + 1 = message.length
          · obtain ⟨slot, later, hrest, hlast⟩ := hm.last hparty all
            exact ⟨_, _, slot, later, run.append (.cons (.last hparty sends all) (.nil _)),
              by simp, by simp, hrest, hlast⟩
          · have more : m.sent s + 1 < message.length := by omega
            obtain ⟨second, m', slot, later, run', hm'⟩ := ih _ (by simp; omega)
              (hm.part hparty sends more) (by simpa using hparty) rfl
            exact ⟨_, m', slot, later, run.append (.cons (.part hparty sends more) run'), hm'⟩

/-- Nothing is on the way. -/
structure StreamNetwork.Idle (n : StreamNetwork α ρ) : Prop where
  sent : ∀ side, n.sent side = 0
  got : ∀ side, n.got side = []
  wire : ∀ side, n.wire side = []

theorem Ahead.idle (h : Ahead medium capacity results n s t [] rest) (hsent : n.sent s = 0) :
    n.Idle := by
  obtain ⟨hgot, hwire, _⟩ := h.turn hsent
  have hsides : ∀ side, side = s ∨ side = t := fun side => h.other ▸ s.eq_or_eq_other side
  refine ⟨fun side => ?_, fun side => ?_, fun side => ?_⟩
  · rcases hsides side with rfl | rfl
    · exact hsent
    · exact h.sent
  · rcases hsides side with rfl | rfl
    · exact h.got
    · exact hgot
  · rcases hsides side with rfl | rfl
    · exact h.wire
    · exact hwire

theorem StreamNetwork.Idle.ahead (idle : n.Idle) (hother : t = s.other)
    (meets : Meets (Suits medium capacity) (n.party s) (n.party t) (results s) (results t)) :
    Ahead medium capacity results n s t [] (n.party t) where
  other := hother
  wire := idle.wire s
  got := idle.got s
  sent := idle.sent t
  flow := by simp [idle.got t, idle.wire t, idle.sent s]
  begun := fun hne => absurd (idle.sent s) hne
  short := fun hne => absurd (idle.got t) hne
  whole := fun _ => ⟨idle.sent s, idle.got t⟩
  consumes := .nil _
  meets := meets

/-- A message is sent and received. -/
theorem Ahead.deliver (h : Ahead medium capacity results n s t [] rest) {message : List α}
    {next : Party (List α) Nat (ρ s)} (party : n.party s = .send message next) :
    ∃ trace m slot later, Run (StreamStep medium capacity) n trace m ∧ m.Idle ∧
      m.party s = next ∧ rest = .recv slot later ∧ m.party t = later message := by
  obtain ⟨first, m, slot, later, run, hparty, hsent, hrest, hm⟩ := h.transfer party
  obtain ⟨second, m', run', hparty', hsent', hm'⟩ := hm.drain
  rw [hsent] at hsent'
  exact ⟨_, m', slot, later, run.append run', hm'.idle hsent', hparty'.trans hparty, hrest,
    (hm'.turn hsent').2.2.1.symm⟩

/-- Where nothing is on the way, the parties go on to the end of their meeting. -/
theorem StreamNetwork.Idle.finish (idle : n.Idle) (hother : t = s.other)
    {left : Party (List α) Nat (ρ s)} {right : Party (List α) Nat (ρ t)} {a : ρ s} {b : ρ t}
    (meets : Meets (Suits medium capacity) left right a b) (hleft : n.party s = left)
    (hright : n.party t = right) (hresult : a = results s) (hresult' : b = results t) :
    ∃ trace m, Run (StreamStep medium capacity) n trace m ∧ m.Idle ∧
      m.party s = .done (results s) ∧ m.party t = .done (results t) := by
  induction meets generalizing n with
  | done a b => exact ⟨[], n, .nil n, idle, hresult ▸ hleft, hresult' ▸ hright⟩
  | @toRight message slot left right a b fit meets ih =>
      have hmeets : Meets (Suits medium capacity) (n.party s) (n.party t) (results s)
          (results t) := by
        rw [hleft, hright, ← hresult, ← hresult']
        exact .toRight fit meets
      obtain ⟨first, m, _, later, run, hidle, hnext, hrest, hlater⟩ :=
        (idle.ahead hother hmeets).deliver hleft
      rw [hright] at hrest
      obtain ⟨_, rfl⟩ := Party.recv.inj hrest
      obtain ⟨second, m', run', hm'⟩ := ih hidle hnext hlater hresult hresult'
      exact ⟨_, m', run.append run', hm'⟩
  | @toLeft message slot left right a b fit meets ih =>
      have hother' : s = t.other := by rw [hother, Side.other_other]
      have hmeets : Meets (Suits medium capacity) (n.party t) (n.party s) (results t)
          (results s) := by
        rw [hleft, hright, ← hresult, ← hresult']
        exact .toRight fit meets.symm
      obtain ⟨first, m, _, later, run, hidle, hnext, hrest, hlater⟩ :=
        (idle.ahead hother' hmeets).deliver hright
      rw [hleft] at hrest
      obtain ⟨_, rfl⟩ := Party.recv.inj hrest
      obtain ⟨second, m', run', hm'⟩ := ih hidle hlater hnext hresult hresult'
      exact ⟨_, m', run.append run', hm'⟩

/-- From wherever one side is ahead, the parties go on to the end. -/
theorem Ahead.finish (h : Ahead medium capacity results n s t items rest) :
    ∃ trace m, Run (StreamStep medium capacity) n trace m ∧ m.Idle ∧
      m.party s = .done (results s) ∧ m.party t = .done (results t) := by
  obtain ⟨first, m, run, _, _, hm⟩ := h.drain
  have hgoes : ∃ trace u, Run (StreamStep medium capacity) m trace u ∧ u.Idle ∧
      u.party s = .done (results s) ∧ u.party t = .done (results t) := by
    have hquiet : (m.party s).sending = [] → ∃ trace u, Run (StreamStep medium capacity) m trace u ∧
        u.Idle ∧ u.party s = .done (results s) ∧ u.party t = .done (results t) := by
      intro hnothing
      have hsent := hm.sent_eq_zero hnothing
      obtain ⟨_, _, hrest, _⟩ := hm.turn hsent
      exact (hm.idle hsent).finish hm.other hm.meets rfl hrest.symm rfl rfl
    cases hparty : m.party s with
    | done result => exact hquiet (by rw [hparty]; rfl)
    | recv slot later => exact hquiet (by rw [hparty]; rfl)
    | send message next =>
        obtain ⟨_, _, hrest, _, meets⟩ := hm.meets_send hparty
        obtain ⟨second, u, slot, later, run', hidle, hnext, hrest', hlater⟩ := hm.deliver hparty
        obtain ⟨_, rfl⟩ := Party.recv.inj (hrest.symm.trans hrest')
        obtain ⟨third, v, run'', hv⟩ := hidle.finish hm.other meets hnext hlater rfl rfl
        exact ⟨_, v, run'.append run'', hv⟩
  obtain ⟨trace, u, run', hu⟩ := hgoes
  exact ⟨_, u, run.append run', hu⟩

/-- Both parties are done, and nothing is on the way. -/
theorem StreamNetwork.Idle.eq_start (idle : n.Idle) {a : ρ .left} {b : ρ .right}
    (hleft : n.party .left = .done a) (hright : n.party .right = .done b) :
    n = .start (.done a) (.done b) := by
  obtain ⟨party, sent, got, wire⟩ := n
  obtain rfl : sent = fun _ => 0 := funext idle.sent
  obtain rfl : got = fun _ => [] := funext idle.got
  obtain rfl : wire = fun _ => [] := funext idle.wire
  unfold StreamNetwork.start
  congr 1
  funext side
  cases side with
  | left => exact hleft
  | right => exact hright

/-- **Two parties that can meet get through over streams.**  However their messages
are cut up and their steps interleaved, every receive that returns has a whole
message, the messages received are those sent, in order, and every run goes on to the
results of the meeting, with nothing left on the way. -/
theorem Meets.stream_completed {left : Party (List α) Nat (ρ .left)}
    {right : Party (List α) Nat (ρ .right)} {a : ρ .left} {b : ρ .right}
    (meets : Meets (Suits medium capacity) left right a b)
    {trace : List (StreamEvent α × StreamNetwork α ρ)}
    (run : Run (StreamStep medium capacity) (.start left right) trace n) :
    (∀ event ∈ events trace, event.Whole) ∧ InOrder (events trace) ∧
      ∃ rest, Run (StreamStep medium capacity) n rest (.start (.done a) (.done b)) := by
  let results : (side : Side) → ρ side := fun
    | .left => a
    | .right => b
  let Inv : StreamNetwork α ρ → Prop := fun n =>
    ∃ s t items rest, Ahead medium capacity results n s t items rest
  have hstart : (StreamNetwork.start left right : StreamNetwork α ρ).Idle :=
    ⟨fun _ => rfl, fun _ => rfl, fun _ => rfl⟩
  have hmeet : Ahead medium capacity results (.start left right) .left .right [] right :=
    hstart.ahead rfl meets
  have hahead : Inv (.start left right) := ⟨.left, .right, [], right, hmeet⟩
  have kept : ∀ n event m, Inv n → StreamStep medium capacity n event m →
      event.Whole ∧ Inv m := by
    rintro n event m ⟨s, t, items, rest, h⟩ step
    obtain ⟨hwhole, s', t', items', rest', hnext, _⟩ := h.step step
    exact ⟨hwhole, s', t', items', rest', hnext⟩
  refine ⟨?_, (hmeet.delivers run).inOrder, ?_⟩
  · intro event hmem
    obtain ⟨entry, hentry, rfl⟩ := List.mem_map.mp hmem
    exact run.of_mem Inv StreamEvent.Whole kept hahead entry hentry
  · obtain ⟨s, t, items, rest, h⟩ := run.invariant Inv (fun _ _ _ hn step => (kept _ _ _ hn step).2)
        hahead
    obtain ⟨trace', m, run', hidle, hs, ht⟩ := h.finish
    refine ⟨trace', ?_⟩
    obtain rfl := h.other
    cases s with
    | left => exact hidle.eq_start hs ht ▸ run'
    | right => exact hidle.eq_start ht hs ▸ run'

end StreamNetwork

end AirTraffic.Foundation
