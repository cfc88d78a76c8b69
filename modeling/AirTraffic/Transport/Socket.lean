/-
  Transport/Socket.lean --- the send loop of the socket transport.

  WHAT THIS FILE IS FOR.  `send` may take fewer bytes than it is given, so
  `transport_send` calls it until all are taken or it fails.  The loop counts in
  `int`s, adds the -1 of a failure to its total, and compares the total with a
  `size_t`.  As long as `send` does not fail the total is what was taken, and the
  slices taken are a prefix of the buffer (`Sending`); behind a failure the total is
  one less than that, and so never the size (`Broken`).  For every buffer whose size
  is an `int` the result says which of the two it was (`transportSend_delivers`).
-/
import AirTraffic.Foundation.CInt
import AirTraffic.Foundation.Loop
import AirTraffic.Foundation.Region

set_option autoImplicit false

namespace AirTraffic.Transport.Socket

open AirTraffic.Foundation

/-! ## `transport_send` -/

/-- An `int` where a `size_t` is expected. -/
def toSize (n : Int32) : UInt64 := n.toInt64.toUInt64

/-- A call `send(sockfd, buffer + offset, length, 0)`. -/
structure SendCall where
  offset : Int
  length : UInt64
  data : Bytes
  result : Int64

/-- The slice that the call took. -/
def SendCall.accepted (call : SendCall) : Bytes := call.data.take call.result.toInt.toNat

variable {σ : Type}

/-- The variables of the loop, the calls of `send` so far, and the socket. -/
structure SendLoop (σ : Type) where
  totalSent : Int32
  bytesleft : Int32
  sent : Int32
  calls : List SendCall
  socket : σ

namespace SendLoop

/-- The concatenation of the slices taken. -/
def accepted (l : SendLoop σ) : Bytes := l.calls.flatMap SendCall.accepted

/-- Before the loop. -/
def start (size : UInt64) (socket : σ) : SendLoop σ where
  totalSent := 0
  bytesleft := size.toInt64.toInt32
  sent := 0
  calls := []
  socket := socket

/-- `total_sent < size && sent != -1` -/
def More (size : UInt64) (l : SendLoop σ) : Prop := toSize l.totalSent < size ∧ l.sent ≠ -1

instance (size : UInt64) : DecidablePred (More (σ := σ) size) :=
  fun _ => inferInstanceAs (Decidable (_ ∧ _))

/-- The body of the loop. -/
def next (send : Bytes → σ → Int64 × σ) (buffer : Bytes) (l : SendLoop σ) : SendLoop σ :=
  let data := readAt buffer l.totalSent.toInt.toNat (toSize l.bytesleft).toNat
  let (result, socket) := send data l.socket
  { totalSent := l.totalSent + result.toInt32
    bytesleft := l.bytesleft - result.toInt32
    sent := result.toInt32
    calls := l.calls ++
      [{ offset := l.totalSent.toInt
         length := toSize l.bytesleft
         data := data
         result := result }]
    socket := socket }

/-- `total_sent == size ? 0 : -1` -/
def result (size : UInt64) (l : SendLoop σ) : Int32 :=
  if toSize l.totalSent = size then 0 else -1

end SendLoop

/-- `transport_send`: what it returns, and how its loop ended, if it does within `fuel`
rounds. -/
def transportSend (send : Bytes → σ → Int64 × σ) (fuel : Nat) (buffer : Bytes) (size : UInt64)
    (socket : σ) : Option (Int32 × SendLoop σ) :=
  (iterate (SendLoop.More size) (SendLoop.next send buffer) fuel (.start size socket)).map
    fun l => (l.result size, l)

/-- `send` on a buffer that is not empty takes some of its bytes, or returns -1. -/
def SendLaw (send : Bytes → σ → Int64 × σ) : Prop :=
  ∀ data socket, data ≠ [] → (send data socket).1 = -1 ∨
    1 ≤ (send data socket).1.toInt ∧ (send data socket).1.toInt ≤ data.length

/-! ## Conversions -/

theorem toNat_toSize (n : Int32) : ((toSize n).toNat : Int) = n.toInt % 2 ^ 64 := by
  have hbmod := BitVec.toInt_eq_toNat_bmod n.toInt64.toBitVec
  have hint : n.toInt64.toBitVec.toInt = n.toInt := Int32.toInt_toInt64 n
  have hnat : n.toInt64.toBitVec.toNat < 2 ^ 64 := n.toInt64.toBitVec.isLt
  have hcast : (2 ^ 64 : Int) = ((2 ^ 64 : Nat) : Int) := by norm_cast
  rw [hint] at hbmod
  rw [hbmod, hcast, Int.bmod_emod, ← Int.natCast_emod, Nat.mod_eq_of_lt hnat]
  rfl

theorem toNat_toSize_of_nonneg {n : Int32} (h : 0 ≤ n.toInt) :
    (toSize n).toNat = n.toInt.toNat := by
  have hmod := toNat_toSize n
  have hrange := Int32.toInt_range n
  rw [Int.emod_eq_of_lt h (by omega)] at hmod
  omega

/-! ## The loop -/

/-- The call asks for nothing outside the buffer. -/
def Inside (buffer : Bytes) (call : SendCall) : Prop :=
  0 ≤ call.offset ∧ call.offset + call.length.toNat ≤ buffer.length

/-- `send` has not failed: the total is what was taken. -/
structure Sending (buffer : Bytes) (l : SendLoop σ) : Prop where
  inside : ∀ call ∈ l.calls, Inside buffer call
  answered : ∀ call ∈ l.calls, call.result ≠ -1
  delivered : l.accepted <+: buffer
  total : l.totalSent.toInt = l.accepted.length
  left : l.bytesleft.toInt = buffer.length - l.accepted.length
  sent : l.sent ≠ -1

/-- `send` has failed: the total is one less than what was taken. -/
structure Broken (buffer : Bytes) (l : SendLoop σ) : Prop where
  inside : ∀ call ∈ l.calls, Inside buffer call
  failed : ∃ call ∈ l.calls, call.result = -1
  delivered : l.accepted <+: buffer
  short : l.accepted.length < buffer.length
  total : l.totalSent.toInt = l.accepted.length - 1
  sent : l.sent = -1

/-- The bytes that are still to be taken, unless `send` has failed. -/
def remaining (buffer : Bytes) (l : SendLoop σ) : Nat :=
  if l.sent = -1 then 0 else buffer.length - l.accepted.length

section

variable {send : Bytes → σ → Int64 × σ} {buffer : Bytes} {l : SendLoop σ}

/-- As long as `send` does not fail, the condition is that bytes are left. -/
theorem Sending.more_iff (h : Sending buffer l) (small : buffer.length < 2 ^ 31) :
    l.More (UInt64.ofNat buffer.length) ↔ l.accepted.length < buffer.length := by
  have hsize : (UInt64.ofNat buffer.length).toNat = buffer.length :=
    UInt64.toNat_ofNat_of_lt' (by simp only [UInt64.size]; omega)
  have htotal := toNat_toSize_of_nonneg (n := l.totalSent) (by rw [h.total]; omega)
  rw [h.total, Int.toNat_natCast] at htotal
  rw [SendLoop.More, and_iff_left h.sent, UInt64.lt_iff_toNat_lt, htotal, hsize]

/-- The next call is given all that was not taken yet. -/
theorem Sending.asked (h : Sending buffer l) :
    (toSize l.bytesleft).toNat = buffer.length - l.accepted.length ∧
      readAt buffer l.totalSent.toInt.toNat (toSize l.bytesleft).toNat =
        buffer.drop l.accepted.length := by
  have hle := h.delivered.length_le
  have hleft := toNat_toSize_of_nonneg (n := l.bytesleft) (by rw [h.left]; omega)
  have hasked : (toSize l.bytesleft).toNat = buffer.length - l.accepted.length := by
    rw [hleft, h.left]
    omega
  refine ⟨hasked, ?_⟩
  rw [hasked, h.total, Int.toNat_natCast, readAt]
  apply List.take_of_length_le
  rw [List.length_drop]

/-- A round, with what `send` returned. -/
theorem Sending.next_eq (h : Sending buffer l) {r : Int64} {socket : σ}
    (hsend : send (buffer.drop l.accepted.length) l.socket = (r, socket)) :
    l.next send buffer =
      { totalSent := l.totalSent + r.toInt32
        bytesleft := l.bytesleft - r.toInt32
        sent := r.toInt32
        calls := l.calls ++
          [{ offset := l.totalSent.toInt
             length := toSize l.bytesleft
             data := buffer.drop l.accepted.length
             result := r }]
        socket := socket } := by
  rw [SendLoop.next, h.asked.2, hsend]

theorem Sending.accepted_next (h : Sending buffer l) {r : Int64} {socket : σ}
    (hsend : send (buffer.drop l.accepted.length) l.socket = (r, socket)) :
    (l.next send buffer).accepted =
      l.accepted ++ (buffer.drop l.accepted.length).take r.toInt.toNat := by
  rw [h.next_eq hsend]
  simp [SendLoop.accepted, SendCall.accepted]

theorem Sending.inside_next (h : Sending buffer l) :
    ∀ call ∈ (l.next send buffer).calls, Inside buffer call := by
  intro call hmem
  rcases List.mem_append.mp hmem with hbefore | hnew
  · exact h.inside call hbefore
  · obtain rfl := List.mem_singleton.mp hnew
    have hle := h.delivered.length_le
    have htotal := h.total
    have hasked := h.asked.1
    constructor
    · dsimp only
      omega
    · dsimp only
      omega

/-- A round in which `send` takes some bytes. -/
theorem Sending.next_sending (h : Sending buffer l) (small : buffer.length < 2 ^ 31) {r : Int64}
    {socket : σ} (hsend : send (buffer.drop l.accepted.length) l.socket = (r, socket))
    (hlow : 1 ≤ r.toInt) (hhigh : r.toInt ≤ (buffer.drop l.accepted.length).length) :
    Sending buffer (l.next send buffer) ∧
      (l.next send buffer).accepted.length = l.accepted.length + r.toInt.toNat := by
  have hle := h.delivered.length_le
  have htotal := h.total
  have hleft := h.left
  rw [List.length_drop] at hhigh
  have hresult : r.toInt32.toInt = r.toInt := by
    rw [Int64.toInt_toInt32]
    exact Int.bmod_eq_of_le (by omega) (by omega)
  have haccepted := h.accepted_next hsend
  have hlength : (l.next send buffer).accepted.length = l.accepted.length + r.toInt.toNat := by
    rw [haccepted, List.length_append, List.length_take, List.length_drop]
    omega
  have hnext := h.next_eq hsend
  refine ⟨⟨h.inside_next, ?_, ?_, ?_, ?_, ?_⟩, hlength⟩
  · intro call hmem
    rw [hnext] at hmem
    rcases List.mem_append.mp hmem with hbefore | hnew
    · exact h.answered call hbefore
    · obtain rfl := List.mem_singleton.mp hnew
      rintro rfl
      exact absurd hlow (by decide)
  · have hfront : l.accepted = buffer.take l.accepted.length :=
      List.prefix_iff_eq_take.mp h.delivered
    have hboth : (l.next send buffer).accepted =
        buffer.take (l.accepted.length + r.toInt.toNat) := by
      rw [haccepted, List.take_add, ← hfront]
    rw [hboth]
    exact List.take_prefix _ _
  · rw [hlength, hnext]
    dsimp only
    rw [Int32.toInt_add_of_range (by omega) (by omega)]
    omega
  · rw [hlength, hnext]
    dsimp only
    rw [Int32.toInt_sub_of_range (by omega) (by omega)]
    omega
  · rw [hnext]
    intro hsent
    obtain hsent : r.toInt32 = -1 := hsent
    rw [hsent] at hresult
    have hminus : (-1 : Int32).toInt = -1 := rfl
    omega

/-- A round in which `send` fails. -/
theorem Sending.next_broken (h : Sending buffer l) (small : buffer.length < 2 ^ 31)
    (more : l.accepted.length < buffer.length) {socket : σ}
    (hsend : send (buffer.drop l.accepted.length) l.socket = (-1, socket)) :
    Broken buffer (l.next send buffer) := by
  have htotal := h.total
  have hminus : (-1 : Int64).toInt32.toInt = -1 := rfl
  have haccepted : (l.next send buffer).accepted = l.accepted := by
    have hzero : (-1 : Int64).toInt.toNat = 0 := rfl
    rw [h.accepted_next hsend, hzero, List.take_zero, List.append_nil]
  have hnext := h.next_eq hsend
  refine ⟨h.inside_next, ?_, ?_, ?_, ?_, ?_⟩
  · rw [hnext]
    exact ⟨_, List.mem_append_right _ (List.mem_singleton.mpr rfl), rfl⟩
  · rw [haccepted]
    exact h.delivered
  · rw [haccepted]
    exact more
  · rw [haccepted, hnext]
    dsimp only
    rw [Int32.toInt_add_of_range (by omega) (by omega)]
    omega
  · rw [hnext]
    rfl

/-- One round. -/
theorem Sending.next (h : Sending buffer l) (law : SendLaw send) (small : buffer.length < 2 ^ 31)
    (more : l.accepted.length < buffer.length) :
    Sending buffer (l.next send buffer) ∧
        l.accepted.length < (l.next send buffer).accepted.length ∨
      Broken buffer (l.next send buffer) := by
  have hdata : buffer.drop l.accepted.length ≠ [] := by
    rw [ne_eq, List.drop_eq_nil_iff]
    omega
  obtain ⟨r, socket, hsend⟩ :
      ∃ r socket, send (buffer.drop l.accepted.length) l.socket = (r, socket) := ⟨_, _, rfl⟩
  have hlaw := law _ l.socket hdata
  rw [hsend] at hlaw
  rcases hlaw with hfailed | ⟨hlow, hhigh⟩
  · obtain rfl : r = -1 := hfailed
    exact Or.inr (h.next_broken small more hsend)
  · obtain ⟨hnext, hlength⟩ := h.next_sending small hsend hlow hhigh
    dsimp only at hlow
    exact Or.inl ⟨hnext, by omega⟩

theorem sending_start {size : UInt64} (hsize : size = UInt64.ofNat buffer.length)
    (small : buffer.length < 2 ^ 31) (socket : σ) :
    Sending buffer (SendLoop.start size socket) where
  inside := by simp [SendLoop.start]
  answered := by simp [SendLoop.start]
  delivered := List.nil_prefix
  total := rfl
  left := by
    have hint : size.toInt64.toInt = buffer.length := by
      rw [hsize, UInt64.toInt64_ofNat', Int64.toInt_ofNat_of_lt (by omega)]
    have hleft : size.toInt64.toInt32.toInt = buffer.length := by
      rw [Int64.toInt_toInt32, hint]
      exact Int.bmod_eq_of_le (by omega) (by omega)
    rw [SendLoop.start, hleft]
    simp [SendLoop.accepted]
  sent := by
    have hsent : (SendLoop.start size socket).sent = 0 := rfl
    rw [hsent]
    decide

/-- What a round does to a loop that goes on. -/
theorem round_of_more (law : SendLaw send) (small : buffer.length < 2 ^ 31)
    (inv : Sending buffer l ∨ Broken buffer l)
    (more : l.More (UInt64.ofNat buffer.length)) :
    (Sending buffer (l.next send buffer) ∨ Broken buffer (l.next send buffer)) ∧
      remaining buffer (l.next send buffer) < remaining buffer l := by
  rcases inv with sending | broken
  · have hless := (sending.more_iff small).mp more
    have hbefore : remaining buffer l = buffer.length - l.accepted.length := if_neg sending.sent
    rcases sending.next law small hless with ⟨hnext, hgrows⟩ | hnext
    · have hafter : remaining buffer (l.next send buffer) =
          buffer.length - (l.next send buffer).accepted.length := if_neg hnext.sent
      exact ⟨Or.inl hnext, by omega⟩
    · have hafter : remaining buffer (l.next send buffer) = 0 := if_pos hnext.sent
      exact ⟨Or.inr hnext, by omega⟩
  · exact absurd broken.sent more.2

/-- The loop ends, with nothing left or behind a failure. -/
theorem exists_end (law : SendLaw send) (small : buffer.length < 2 ^ 31)
    (start : Sending buffer l) :
    ∃ last, (Sending buffer last ∧ last.accepted = buffer ∨ Broken buffer last) ∧
      ∀ fuel, buffer.length < fuel →
        iterate (SendLoop.More (UInt64.ofNat buffer.length)) (SendLoop.next send buffer) fuel l =
          some last := by
  obtain ⟨last, inv, hend, hrun⟩ := @iterate_of_measure _
    (SendLoop.More (UInt64.ofNat buffer.length)) _ (SendLoop.next send buffer)
    (fun l => Sending buffer l ∨ Broken buffer l) (remaining buffer)
    (fun _ inv more => round_of_more law small inv more) l (Or.inl start)
  refine ⟨last, ?_, ?_⟩
  · rcases inv with sending | broken
    · have hle := sending.delivered.length_le
      have hall := mt (sending.more_iff small).mpr hend
      exact Or.inl ⟨sending, sending.delivered.eq_of_length (by omega)⟩
    · exact Or.inr broken
  · intro fuel hfuel
    have hbound : remaining buffer l ≤ buffer.length := by
      unfold remaining
      split
      · exact Nat.zero_le _
      · exact Nat.sub_le _ _
    exact hrun fuel (by omega)

/-- Behind the last byte the total is the size. -/
theorem Sending.result_eq (h : Sending buffer l) (small : buffer.length < 2 ^ 31)
    (all : l.accepted = buffer) : l.result (UInt64.ofNat buffer.length) = 0 := by
  have hsize : (UInt64.ofNat buffer.length).toNat = buffer.length :=
    UInt64.toNat_ofNat_of_lt' (by simp only [UInt64.size]; omega)
  have htotal := toNat_toSize_of_nonneg (n := l.totalSent) (by rw [h.total]; omega)
  rw [h.total, all, Int.toNat_natCast] at htotal
  exact if_pos (UInt64.toNat_inj.mp (htotal.trans hsize.symm))

/-- Behind a failure it is not, and not even where nothing was taken and the total
is -1. -/
theorem Broken.result_eq (h : Broken buffer l) (small : buffer.length < 2 ^ 31) :
    l.result (UInt64.ofNat buffer.length) = -1 := by
  have hsize : (UInt64.ofNat buffer.length).toNat = buffer.length :=
    UInt64.toNat_ofNat_of_lt' (by simp only [UInt64.size]; omega)
  have hshort := h.short
  have hother : toSize l.totalSent ≠ UInt64.ofNat buffer.length := by
    intro heq
    have htotal := toNat_toSize l.totalSent
    rw [heq, hsize, h.total] at htotal
    omega
  exact if_neg hother

/-- How `transport_send` ends: with the whole buffer taken and 0, or behind a failure
with -1. -/
theorem exists_transportSend (law : SendLaw send) (small : buffer.length < 2 ^ 31) (socket : σ) :
    ∃ (status : Int32) (last : SendLoop σ),
      (status = 0 ∧ Sending buffer last ∧ last.accepted = buffer ∨
        status = -1 ∧ Broken buffer last) ∧
      ∀ fuel, buffer.length < fuel →
        transportSend send fuel buffer (UInt64.ofNat buffer.length) socket =
          some (status, last) := by
  obtain ⟨last, hend, hrun⟩ := exists_end law small (sending_start rfl small socket)
  refine ⟨last.result (UInt64.ofNat buffer.length), last, ?_, ?_⟩
  · rcases hend with ⟨sending, hall⟩ | broken
    · exact Or.inl ⟨sending.result_eq small hall, sending, hall⟩
    · exact Or.inr ⟨broken.result_eq small, broken⟩
  · intro fuel hfuel
    rw [transportSend, hrun fuel hfuel, Option.map_some]

/-- **All or a failure.**  For every buffer whose size is an `int`, and whatever `send`
answers, `transport_send` ends, asks for nothing outside the buffer, returns 0
exactly if all of the buffer was taken, in order, and -1 exactly if a call of
`send` did; and then a proper prefix was taken. -/
theorem transportSend_delivers (law : SendLaw send) (small : buffer.length < 2 ^ 31)
    (socket : σ) :
    ∃ (status : Int32) (last : SendLoop σ),
      (∀ fuel, buffer.length < fuel →
        transportSend send fuel buffer (UInt64.ofNat buffer.length) socket =
          some (status, last)) ∧
      (∀ call ∈ last.calls, Inside buffer call) ∧
      (status = 0 ↔ last.accepted = buffer) ∧
      (status = -1 ↔ ∃ call ∈ last.calls, call.result = -1) ∧
      (status = -1 → last.accepted <+: buffer ∧ last.accepted ≠ buffer) := by
  obtain ⟨status, last, hend, hrun⟩ := exists_transportSend law small socket
  refine ⟨status, last, hrun, ?_⟩
  rcases hend with ⟨rfl, sending, hall⟩ | ⟨rfl, broken⟩
  · refine ⟨sending.inside, iff_of_true rfl hall, ?_, fun h => absurd h (by decide)⟩
    apply iff_of_false (by decide)
    rintro ⟨call, hmem, hfailed⟩
    exact sending.answered call hmem hfailed
  · have hne : last.accepted ≠ buffer := fun heq => absurd broken.short (by rw [heq]; omega)
    exact ⟨broken.inside, iff_of_false (by decide) hne, iff_of_true rfl broken.failed,
      fun _ => ⟨broken.delivered, hne⟩⟩

end

/-- A socket that takes two bytes at a time, and fails after a number of calls. -/
def sendTwo (data : Bytes) (calls : Nat) : Int64 × Nat :=
  if calls = 0 then (-1, 0) else (Int64.ofNat (min 2 data.length), calls - 1)

theorem sendTwo_law : SendLaw sendTwo := by
  intro data calls hdata
  have hpos := List.length_pos_iff.mpr hdata
  unfold sendTwo
  split
  · exact Or.inl rfl
  · right
    have hresult : (Int64.ofNat (min 2 data.length)).toInt = (min 2 data.length : Nat) :=
      Int64.toInt_ofNat_of_lt (by omega)
    dsimp only
    omega

theorem transportSend_delivers_sendTwo :
    ∃ (status : Int32) (last : SendLoop Nat),
      (∀ fuel, 3 < fuel →
        transportSend sendTwo fuel [1, 2, 3] (UInt64.ofNat 3) 5 = some (status, last)) ∧
      (∀ call ∈ last.calls, Inside [1, 2, 3] call) ∧
      (status = 0 ↔ last.accepted = [1, 2, 3]) ∧
      (status = -1 ↔ ∃ call ∈ last.calls, call.result = -1) ∧
      (status = -1 → last.accepted <+: [1, 2, 3] ∧ last.accepted ≠ [1, 2, 3]) :=
  @transportSend_delivers _ sendTwo [1, 2, 3] sendTwo_law (by decide) 5

example : (transportSend sendTwo 4 [1, 2, 3] 3 5).map Prod.fst = some 0 := by decide

example : (transportSend sendTwo 4 [1, 2, 3] 3 1).map Prod.fst = some (-1) := by decide

end AirTraffic.Transport.Socket
