/-
  Transport/Fifo.lean --- the names of the FIFOs of a connection.

  WHAT THIS FILE IS FOR.  Server and client each make a FIFO and tell the other
  its name.  `_get_fifo_name` is meant to put a prefix and a counter into the
  buffer, but clears and copies one byte only, so that whatever the buffer held
  from its second byte on stays in the name (`cstr_printName`).  A client's name
  is its pid behind a slash, and a server's name is the pid it has just read with
  its counter behind it.  No name is the one meant, and names are distinct exactly
  if the numbers that these digits are read as are (`fifo_names_iff`).
-/
import AirTraffic.Foundation.Decimal
import AirTraffic.Foundation.CInt
import AirTraffic.Foundation.Transition
import Mathlib.Logic.Function.Basic

set_option autoImplicit false

namespace AirTraffic.Transport.Fifo

open AirTraffic.Foundation

/-- `MAX_FIFO_NAME` -/
def maxFifoName : Nat := 35

/-- `srv_to_cli`, which is `/tmp/scfifo` -/
def srvToCli : Bytes := [47, 116, 109, 112, 47, 115, 99, 102, 105, 102, 111]

/-- `cli_to_srv`, which is `/tmp/csfifo` -/
def cliToSrv : Bytes := [47, 116, 109, 112, 47, 99, 115, 102, 105, 102, 111]

/-! ## `_get_fifo_name` -/

/-- The string in a buffer. -/
def cstr (buff : Bytes) : Bytes := buff.take (strnlen buff buff.length)

/-- What `_get_fifo_name` leaves in the buffer. -/
def printName (buff name : Bytes) (newFifoIndex : Int32) : Bytes :=
  -- `sizeof(*buff)` and `sizeof(*name)` are the size of one `char`
  let cleared := writeAt buff 0 (zeros 1)
  let copied := writeAt cleared 0 (readAt name 0 1)
  writeAt copied (strnlen copied copied.length) (decimal newFifoIndex.toInt ++ [0])

/-- What a call of `_get_fifo_name` leaves: its result, the buffer, the counter and
the paths of the files there are. -/
structure Named where
  status : Int32
  buff : Bytes
  newFifoIndex : Int32
  files : List Bytes

/-- `_get_fifo_name`; `mkfifo` says whether a FIFO can be made where there is no
file. -/
def getFifoName (files : List Bytes) (mkfifo : Bool) (buff name : Bytes)
    (newFifoIndex : Int32) : Named :=
  let printed := printName buff name newFifoIndex
  let missing := cstr printed ∉ files
  { status := if missing ∧ mkfifo = false then -1 else 0
    buff := printed
    newFifoIndex := newFifoIndex + 1
    files := if missing ∧ mkfifo = true then cstr printed :: files else files }

@[simp] theorem getFifoName_buff (files : List Bytes) (mkfifo : Bool) (buff name : Bytes)
    (newFifoIndex : Int32) :
    (getFifoName files mkfifo buff name newFifoIndex).buff = printName buff name newFifoIndex :=
  rfl

theorem cstr_append_nul {s : Bytes} (hs : NulFree s) (t : Bytes) : cstr (s ++ 0 :: t) = s := by
  have hlen : (s ++ 0 :: t).length = s.length + (t.length + 1) := by
    rw [List.length_append, List.length_cons]
  rw [cstr, hlen, strnlen_append hs, strnlen, if_pos rfl, Nat.add_zero, List.take_left' rfl]

theorem nulFree_cstr (buff : Bytes) : NulFree (cstr buff) := nulFree_take_strnlen buff _

theorem length_cstr (buff : Bytes) : (cstr buff).length = strnlen buff buff.length :=
  length_take_strnlen buff _

theorem cstr_zeros (n : Nat) : cstr (zeros n) = [] := by
  cases n with
  | zero => rfl
  | succ n => exact cstr_append_nul (s := []) (by simp [NulFree]) (zeros n)

theorem writeAt_cons (c : UInt8) (tail : Bytes) (n : Nat) (data : Bytes) :
    writeAt (c :: tail) (n + 1) data = c :: writeAt tail n data := by
  have hgap : n + 1 - (c :: tail).length = n - tail.length := by
    rw [List.length_cons]
    omega
  have hend : n + 1 + data.length = n + data.length + 1 := by omega
  rw [writeAt, writeAt, hgap, hend, List.take_succ_cons, List.drop_succ_cons]
  rfl

theorem writeAt_head (b c : UInt8) (tail : Bytes) : writeAt (b :: tail) 0 [c] = c :: tail := by
  simp [writeAt, zeros]

/-- Only the first byte of the buffer makes way for the prefix, and only the first
byte of the prefix comes in. -/
theorem printName_cons (b c : UInt8) (tail rest : Bytes) (hc : c ≠ 0) (newFifoIndex : Int32) :
    printName (b :: tail) (c :: rest) newFifoIndex =
      c :: writeAt tail (cstr tail).length (decimal newFifoIndex.toInt ++ [0]) := by
  have hcleared : writeAt (b :: tail) 0 (zeros 1) = 0 :: tail := writeAt_head b 0 tail
  have hcopied : writeAt (0 :: tail) 0 (readAt (c :: rest) 0 1) = c :: tail :=
    writeAt_head 0 c tail
  have hlen : strnlen (c :: tail) (c :: tail).length = (cstr tail).length + 1 := by
    rw [List.length_cons, strnlen, if_neg hc, length_cstr]
  rw [printName, hcleared, hcopied, hlen]
  exact writeAt_cons c tail _ _

/-- What `_get_fifo_name` yields, whatever was in the buffer. -/
theorem cstr_printName (b c : UInt8) (tail rest : Bytes) (hc : c ≠ 0) (newFifoIndex : Int32) :
    cstr (printName (b :: tail) (c :: rest) newFifoIndex) =
      c :: (cstr tail ++ decimal newFifoIndex.toInt) := by
  have hfree : NulFree (c :: (cstr tail ++ decimal newFifoIndex.toInt)) := by
    intro d hd
    rcases List.mem_cons.mp hd with rfl | hd
    · exact hc
    · rcases List.mem_append.mp hd with hd | hd
      · exact nulFree_cstr tail d hd
      · exact nulFree_decimal _ d hd
  have hgap : (cstr tail).length - tail.length = 0 := by
    rw [length_cstr]
    exact Nat.sub_eq_zero_of_le (strnlen_le tail _)
  have hfront : tail.take (cstr tail).length = cstr tail := by rw [length_cstr, cstr]
  have hend := cstr_append_nul hfree
    (tail.drop ((cstr tail).length + (decimal newFifoIndex.toInt ++ [0]).length))
  rw [printName_cons b c tail rest hc, writeAt, hgap, hfront]
  simpa [zeros] using hend

/-- It is the name that is meant if the buffer had this name already, from the second
byte on. -/
theorem cstr_printName_eq_iff (b c : UInt8) (tail rest : Bytes) (hc : c ≠ 0)
    (newFifoIndex : Int32) :
    cstr (printName (b :: tail) (c :: rest) newFifoIndex) =
      (c :: rest) ++ decimal newFifoIndex.toInt ↔ cstr tail = rest := by
  rw [cstr_printName b c tail rest hc, List.cons_append, List.cons_inj_right,
    List.append_left_inj]

/-- With room for the numeral and its NUL nothing is written outside the buffer. -/
theorem length_printName (b c : UInt8) (tail rest : Bytes) (hc : c ≠ 0) (newFifoIndex : Int32)
    (room : (cstr tail).length + 12 ≤ tail.length) :
    (printName (b :: tail) (c :: rest) newFifoIndex).length = (b :: tail).length := by
  have hdecimal := length_decimal_le newFifoIndex
  rw [printName_cons b c tail rest hc, List.length_cons, List.length_cons, length_writeAt,
    List.length_append, List.length_singleton]
  omega

/-! ## The two calls -/

/-- An address: the paths of what its two descriptors are open on. -/
structure Addr where
  fifoFd0 : Bytes
  fifoFd1 : Bytes

/-- Where `transport_accept` is. -/
inductive AcceptPoint where
  /-- In `open` or `read` of the requests. -/
  | receiving
  /-- Before `open` of the client's FIFO; the pid is that of the client whose name was
  read, and 0 if nothing was. -/
  | openingOut (pid : Int32) (nameBuffer : Bytes)
  /-- Before `_get_fifo_name`; a descriptor that is -1 is `none`. -/
  | naming (pid : Int32) (newServOut : Option Bytes) (nameBuffer : Bytes)
  /-- In `write`. -/
  | answering (newServOut : Option Bytes) (nameBuffer : Bytes)
  /-- In `open` of the server's own FIFO. -/
  | openingIn (newServOut : Bytes) (nameBuffer : Bytes)

/-- Where a client is in `transport_connect`. -/
inductive ConnectPoint where
  /-- Before `open` of the requests. -/
  | opening
  /-- Before `_get_fifo_name`. -/
  | naming
  /-- In `write`. -/
  | sending (nameBuffer : Bytes)
  /-- In `open` of the client's own FIFO. -/
  | openingIn (nameBuffer : Bytes)
  /-- In `read`. -/
  | receiving (newCliIn : Bytes) (nameBuffer : Bytes)
  /-- In `open` of the server's FIFO. -/
  | openingOut (newCliIn : Bytes) (nameBuffer : Bytes)
  /-- It returned 0. -/
  | connected (addr : Addr)
  /-- It returned -1. -/
  | failed

/-- A call of `_get_fifo_name`. -/
structure Call where
  /-- The pid whose name the buffer held; 0 for none. -/
  held : Int32
  name : Bytes
  index : Int32
  status : Int32
  path : Bytes

/-- The number that the digits behind the slash are read as. -/
def Call.mark (call : Call) : Nat × Int := joined call.held.toInt.toNat call.index.toInt

/-- The file system, the server and its counter, and the clients by their pids. -/
structure Fifos where
  files : List Bytes
  /-- What is in `inc_fifo`, with the pid of the client that wrote it. -/
  inc : List (Int32 × Bytes)
  newFifoIndex : Int32
  accept : AcceptPoint
  accepted : List Addr
  connects : Int32 → ConnectPoint
  /-- The calls of `_get_fifo_name` so far. -/
  calls : List Call

/-- No one has called yet. -/
def Fifos.start (files : List Bytes) : Fifos where
  files := files
  inc := []
  newFifoIndex := 0
  accept := .receiving
  accepted := []
  connects := fun _ => .opening
  calls := []

namespace Fifos

/-- The calls that returned 0. -/
def made (s : Fifos) : List Call := s.calls.filter fun call => call.status == 0

/-- One client goes on. -/
def move (s : Fifos) (pid : Int32) (point : ConnectPoint) : Fifos :=
  { s with connects := Function.update s.connects pid point }

/-- A call of `_get_fifo_name` has returned. -/
def log (s : Fifos) (held : Int32) (name : Bytes) (index : Int32) (named : Named) : Fifos :=
  { s with
    files := named.files
    calls := s.calls ++
      [{ held := held
         name := name
         index := index
         status := named.status
         path := cstr named.buff }] }

/-- `_get_fifo_name` in `transport_accept`. -/
def acceptName (s : Fifos) (mkfifo : Bool) (pid : Int32) (newServOut : Option Bytes)
    (nameBuffer : Bytes) : Fifos :=
  let named := getFifoName s.files mkfifo nameBuffer cliToSrv s.newFifoIndex
  { s.log pid cliToSrv s.newFifoIndex named with
    newFifoIndex := named.newFifoIndex
    accept := if named.status = -1 then .receiving else .answering newServOut named.buff }

/-- `_get_fifo_name` in `transport_connect`: the buffer is new and the counter is the
pid. -/
def connectName (s : Fifos) (mkfifo : Bool) (pid : Int32) : Fifos :=
  let named := getFifoName s.files mkfifo (zeros maxFifoName) srvToCli pid
  (s.log 0 srvToCli pid named).move pid
    (if named.status = -1 then .failed else .sending named.buff)

end Fifos

inductive FifoEvent where
  | acceptReceive
  /-- `read` finds the end of the file. -/
  | acceptNothing
  /-- `open` or `read` returns -1. -/
  | acceptFails
  | acceptOpenOut (ok : Bool)
  | acceptName (mkfifo : Bool)
  | acceptAnswer (ok : Bool)
  | acceptOpenIn (ok : Bool)
  | openInc (pid : Int32) (ok : Bool)
  | name (pid : Int32) (mkfifo : Bool)
  | send (pid : Int32) (ok : Bool)
  | openIn (pid : Int32) (ok : Bool)
  /-- `read` of the client, whatever it finds. -/
  | receive (pid : Int32) (data : Bytes)
  | openOut (pid : Int32) (ok : Bool)
  /-- No one has `inc_fifo` open, and what is in it is gone. -/
  | lose

/-- One step of the server or of a client; a client calls once. -/
inductive FifoStep : Fifos → FifoEvent → Fifos → Prop
  | acceptReceive {s : Fifos} {pid : Int32} {message : Bytes} {rest : List (Int32 × Bytes)}
      (accept : s.accept = .receiving) (inc : s.inc = (pid, message) :: rest) :
      FifoStep s .acceptReceive
        { s with inc := rest, accept := .openingOut pid (writeAt (zeros maxFifoName) 0 message) }
  | acceptNothing {s : Fifos} (accept : s.accept = .receiving) :
      -- only -1 is looked at
      FifoStep s .acceptNothing { s with accept := .openingOut 0 (zeros maxFifoName) }
  | acceptFails {s : Fifos} (accept : s.accept = .receiving) : FifoStep s .acceptFails s
  | acceptOpenOut {s : Fifos} {pid : Int32} {nameBuffer : Bytes} (ok : Bool)
      (accept : s.accept = .openingOut pid nameBuffer) :
      -- the descriptor is not looked at
      FifoStep s (.acceptOpenOut ok)
        { s with
          accept := .naming pid (if ok then some (cstr nameBuffer) else none) nameBuffer }
  | acceptName {s : Fifos} {pid : Int32} {newServOut : Option Bytes} {nameBuffer : Bytes}
      (mkfifo : Bool) (accept : s.accept = .naming pid newServOut nameBuffer) :
      FifoStep s (.acceptName mkfifo) (s.acceptName mkfifo pid newServOut nameBuffer)
  | acceptAnswer {s : Fifos} {newServOut nameBuffer : Bytes}
      (accept : s.accept = .answering (some newServOut) nameBuffer) :
      FifoStep s (.acceptAnswer true) { s with accept := .openingIn newServOut nameBuffer }
  | acceptAnswerFails {s : Fifos} {newServOut : Option Bytes} {nameBuffer : Bytes}
      (accept : s.accept = .answering newServOut nameBuffer) :
      FifoStep s (.acceptAnswer false) { s with accept := .receiving }
  | acceptOpenIn {s : Fifos} {newServOut nameBuffer : Bytes}
      (accept : s.accept = .openingIn newServOut nameBuffer) :
      FifoStep s (.acceptOpenIn true)
        { s with
          accept := .receiving
          accepted := s.accepted ++ [{ fifoFd0 := cstr nameBuffer, fifoFd1 := newServOut }] }
  | acceptOpenInFails {s : Fifos} {newServOut nameBuffer : Bytes}
      (accept : s.accept = .openingIn newServOut nameBuffer) :
      FifoStep s (.acceptOpenIn false) { s with accept := .receiving }
  | openInc {s : Fifos} {pid : Int32} (ok : Bool) (positive : 0 < pid)
      (point : s.connects pid = .opening) :
      FifoStep s (.openInc pid ok) (s.move pid (if ok then .naming else .failed))
  | name {s : Fifos} {pid : Int32} (mkfifo : Bool) (point : s.connects pid = .naming) :
      FifoStep s (.name pid mkfifo) (s.connectName mkfifo pid)
  | send {s : Fifos} {pid : Int32} {nameBuffer : Bytes}
      (point : s.connects pid = .sending nameBuffer) :
      FifoStep s (.send pid true)
        ({ s with inc := s.inc ++ [(pid, nameBuffer)] }.move pid (.openingIn nameBuffer))
  | sendFails {s : Fifos} {pid : Int32} {nameBuffer : Bytes}
      (point : s.connects pid = .sending nameBuffer) :
      FifoStep s (.send pid false) (s.move pid .failed)
  | openIn {s : Fifos} {pid : Int32} {nameBuffer : Bytes} (ok : Bool)
      (point : s.connects pid = .openingIn nameBuffer) :
      FifoStep s (.openIn pid ok)
        (s.move pid (if ok then .receiving (cstr nameBuffer) nameBuffer else .failed))
  | receive {s : Fifos} {pid : Int32} {newCliIn nameBuffer data : Bytes}
      (point : s.connects pid = .receiving newCliIn nameBuffer)
      (short : data.length ≤ maxFifoName) :
      -- the result is not looked at
      FifoStep s (.receive pid data)
        (s.move pid (.openingOut newCliIn (writeAt nameBuffer 0 data)))
  | openOut {s : Fifos} {pid : Int32} {newCliIn nameBuffer : Bytes} (ok : Bool)
      (point : s.connects pid = .openingOut newCliIn nameBuffer) :
      FifoStep s (.openOut pid ok)
        (s.move pid
          (if ok then .connected { fifoFd0 := newCliIn, fifoFd1 := cstr nameBuffer }
            else .failed))
  | lose (s : Fifos) : FifoStep s .lose { s with inc := [] }

/-! ## What the buffers hold -/

/-- The buffer holds the pid behind its first byte, or nothing for 0. -/
def Holds (pid : Int32) (nameBuffer : Bytes) : Prop :=
  nameBuffer.length = maxFifoName ∧ cstr nameBuffer.tail = stem pid.toInt.toNat

/-- What a name buffer of `transport_accept` holds. -/
def AcceptHolds : AcceptPoint → Prop
  | .openingOut pid nameBuffer => Holds pid nameBuffer
  | .naming pid _ nameBuffer => Holds pid nameBuffer
  | .answering _ nameBuffer => nameBuffer.length = maxFifoName
  | .openingIn _ nameBuffer => nameBuffer.length = maxFifoName
  | .receiving => True

/-- What a name buffer of `transport_connect` holds. -/
def ConnectHolds (pid : Int32) : ConnectPoint → Prop
  | .naming => 0 < pid
  | .sending nameBuffer => Holds pid nameBuffer
  | .openingIn nameBuffer => nameBuffer.length = maxFifoName
  | .receiving _ nameBuffer => nameBuffer.length = maxFifoName
  | .openingOut _ nameBuffer => nameBuffer.length = maxFifoName
  | _ => True

/-- What a call yields: a slash, the pid in the buffer, and the counter. -/
structure Call.Yields (call : Call) : Prop where
  name : call.name = srvToCli ∨ call.name = cliToSrv
  path : call.path = 47 :: (stem call.held.toInt.toNat ++ decimal call.index.toInt)

/-- What every run keeps. -/
structure FifoInv (s : Fifos) : Prop where
  inc : ∀ message ∈ s.inc, Holds message.1 message.2
  accept : AcceptHolds s.accept
  connects : ∀ pid, ConnectHolds pid (s.connects pid)
  calls : ∀ call ∈ s.calls, call.Yields

theorem holds_zeros : Holds 0 (zeros maxFifoName) := ⟨length_zeros _, cstr_zeros 34⟩

/-- A message fills the buffer it is read into. -/
theorem Holds.read {pid : Int32} {message : Bytes} (h : Holds pid message) :
    Holds pid (writeAt (zeros maxFifoName) 0 message) := by
  rwa [writeAt_zero_of_length_le (by rw [length_zeros, h.1])]

theorem cstr_cons {c : UInt8} (hc : c ≠ 0) (tail : Bytes) : cstr (c :: tail) = c :: cstr tail := by
  rw [cstr, List.length_cons, strnlen, if_neg hc, List.take_succ_cons, cstr]

/-- `_get_fifo_name` on a buffer that holds a pid. -/
theorem Holds.printName {pid : Int32} {nameBuffer : Bytes} (h : Holds pid nameBuffer)
    (rest : Bytes) (newFifoIndex : Int32) :
    (printName nameBuffer (47 :: rest) newFifoIndex).length = maxFifoName ∧
      cstr (printName nameBuffer (47 :: rest) newFifoIndex) =
        47 :: (stem pid.toInt.toNat ++ decimal newFifoIndex.toInt) ∧
      cstr (printName nameBuffer (47 :: rest) newFifoIndex).tail =
        stem pid.toInt.toNat ++ decimal newFifoIndex.toInt := by
  obtain ⟨hlength, hstem⟩ := h
  obtain ⟨b, tail, rfl⟩ := List.exists_cons_of_length_eq_add_one hlength
  rw [List.tail_cons] at hstem
  have hslash : (47 : UInt8) ≠ 0 := by decide
  have hcstr := cstr_printName b 47 tail rest hslash newFifoIndex
  rw [hstem] at hcstr
  refine ⟨?_, hcstr, ?_⟩
  · have hshort := length_stem_le pid
    rw [length_printName b 47 tail rest hslash, hlength]
    rw [List.length_cons, maxFifoName] at hlength
    rw [hstem]
    omega
  · rw [printName_cons b 47 tail rest hslash, cstr_cons hslash] at hcstr
    rw [printName_cons b 47 tail rest hslash, List.tail_cons]
    exact (List.cons.inj hcstr).2

/-! ## One step -/

/-- A client that goes on. -/
theorem connectHolds_move {s : Fifos} (h : ∀ q, ConnectHolds q (s.connects q)) {pid : Int32}
    {point : ConnectPoint} (self : ConnectHolds pid point) (q : Int32) :
    ConnectHolds q ((s.move pid point).connects q) := by
  have hupdate : (s.move pid point).connects q = if q = pid then point else s.connects q :=
    Function.update_apply s.connects pid point q
  rw [hupdate]
  split
  next heq => exact heq ▸ self
  next => exact h q

/-- A call of `_get_fifo_name` on a buffer that holds a pid. -/
theorem yields_log {s : Fifos} (h : ∀ call ∈ s.calls, call.Yields) {pid : Int32}
    {nameBuffer name rest : Bytes} (holds : Holds pid nameBuffer)
    (hname : name = srvToCli ∨ name = cliToSrv) (hslash : name = 47 :: rest) (mkfifo : Bool)
    (index : Int32) :
    ∀ call ∈ (s.log pid name index (getFifoName s.files mkfifo nameBuffer name index)).calls,
      call.Yields := by
  intro call hmem
  rcases List.mem_append.mp hmem with hbefore | hnew
  · exact h call hbefore
  · obtain rfl := List.mem_singleton.mp hnew
    refine ⟨hname, ?_⟩
    dsimp only
    rw [getFifoName_buff, hslash]
    exact (holds.printName rest index).2.1

theorem FifoInv.acceptName {s : Fifos} (inv : FifoInv s) {pid : Int32} {nameBuffer : Bytes}
    (holds : Holds pid nameBuffer) (mkfifo : Bool) (newServOut : Option Bytes) :
    FifoInv (s.acceptName mkfifo pid newServOut nameBuffer) where
  inc := inv.inc
  accept := by
    unfold Fifos.acceptName
    dsimp only
    split
    · exact True.intro
    · have hprinted := holds.printName cliToSrv.tail s.newFifoIndex
      rw [AcceptHolds, getFifoName_buff]
      exact hprinted.1
  connects := inv.connects
  calls := yields_log inv.calls holds (Or.inr rfl) rfl mkfifo s.newFifoIndex

theorem FifoInv.connectName {s : Fifos} (inv : FifoInv s) {pid : Int32} (positive : 0 < pid)
    (mkfifo : Bool) : FifoInv (s.connectName mkfifo pid) where
  inc := inv.inc
  accept := inv.accept
  connects := by
    apply connectHolds_move inv.connects
    split
    · exact True.intro
    · have hprinted := holds_zeros.printName srvToCli.tail pid
      have hpositive : 0 < pid.toInt := Int32.lt_iff_toInt_lt.mp positive
      rw [ConnectHolds, getFifoName_buff]
      refine ⟨hprinted.1, ?_⟩
      rw [← decimal_of_pos hpositive]
      exact hprinted.2.2
  calls := yields_log inv.calls holds_zeros (Or.inl rfl) rfl mkfifo pid

theorem FifoInv.step {s t : Fifos} {e : FifoEvent} (inv : FifoInv s) (step : FifoStep s e t) :
    FifoInv t := by
  have hmove : ∀ {pid : Int32} {point : ConnectPoint}, ConnectHolds pid point →
      FifoInv (s.move pid point) :=
    fun self => ⟨inv.inc, inv.accept, connectHolds_move inv.connects self, inv.calls⟩
  have haccept := inv.accept
  cases step with
  | acceptReceive accept inc =>
      have hread := inv.inc _ (inc ▸ List.mem_cons_self)
      refine ⟨?_, hread.read, inv.connects, inv.calls⟩
      exact fun message hmem => inv.inc message (inc ▸ List.mem_cons_of_mem _ hmem)
  | acceptNothing accept => exact ⟨inv.inc, holds_zeros, inv.connects, inv.calls⟩
  | acceptFails accept => exact inv
  | acceptOpenOut ok accept =>
      rw [accept] at haccept
      exact ⟨inv.inc, haccept, inv.connects, inv.calls⟩
  | acceptName mkfifo accept =>
      rw [accept] at haccept
      exact inv.acceptName haccept mkfifo _
  | acceptAnswer accept =>
      rw [accept] at haccept
      exact ⟨inv.inc, haccept, inv.connects, inv.calls⟩
  | acceptAnswerFails | acceptOpenIn | acceptOpenInFails =>
      exact ⟨inv.inc, trivial, inv.connects, inv.calls⟩
  | openInc ok positive point =>
      apply hmove
      split
      · exact positive
      · exact True.intro
  | @name pid mkfifo point =>
      have hpid := inv.connects pid
      rw [point] at hpid
      exact inv.connectName hpid mkfifo
  | @send pid nameBuffer point =>
      have hpid := inv.connects pid
      rw [point] at hpid
      have hsent : FifoInv { s with inc := s.inc ++ [(pid, nameBuffer)] } := by
        refine ⟨?_, inv.accept, inv.connects, inv.calls⟩
        intro message hmem
        rcases List.mem_append.mp hmem with hbefore | hnew
        · exact inv.inc message hbefore
        · obtain rfl := List.mem_singleton.mp hnew
          exact hpid
      exact ⟨hsent.inc, hsent.accept, connectHolds_move hsent.connects hpid.1, hsent.calls⟩
  | sendFails point => exact hmove trivial
  | @openIn pid nameBuffer ok point =>
      have hpid := inv.connects pid
      rw [point] at hpid
      apply hmove
      split
      · exact hpid
      · exact True.intro
  | @receive pid newCliIn nameBuffer data point short =>
      have hpid : nameBuffer.length = maxFifoName := by
        have hholds := inv.connects pid
        rwa [point] at hholds
      apply hmove
      rw [ConnectHolds, length_writeAt, hpid, Nat.zero_add, Nat.max_eq_left short]
  | openOut ok point =>
      apply hmove
      split
      · exact True.intro
      · exact True.intro
  | lose => exact ⟨by simp, inv.accept, inv.connects, inv.calls⟩

theorem FifoInv.start (files : List Bytes) : FifoInv (Fifos.start files) where
  inc := by simp [Fifos.start]
  accept := trivial
  connects := fun _ => trivial
  calls := by simp [Fifos.start]

/-! ## Names -/

/-- No call yields the name that is meant. -/
theorem Call.Yields.path_ne {call : Call} (h : call.Yields) :
    call.path ≠ call.name ++ decimal call.index.toInt := by
  intro heq
  have hmem : (116 : UInt8) ∈ stem call.held.toInt.toNat := by
    rcases h.name with hname | hname
    · rw [h.path, hname, srvToCli, List.cons_append, List.cons_inj_right,
        List.append_left_inj] at heq
      exact heq ▸ List.mem_cons_self
    · rw [h.path, hname, cliToSrv, List.cons_append, List.cons_inj_right,
        List.append_left_inj] at heq
      exact heq ▸ List.mem_cons_self
  exact absurd (le_of_mem_stem hmem) (by decide)

theorem Call.Yields.path_inj {a b : Call} (ha : a.Yields) (hb : b.Yields) :
    a.path = b.path ↔ a.mark = b.mark := by
  rw [ha.path, hb.path, List.cons_inj_right, stem_append_decimal_inj]
  rfl

theorem FifoInv.of_run {files : List Bytes} {trace : List (FifoEvent × Fifos)} {t : Fifos}
    (run : Run FifoStep (Fifos.start files) trace t) : FifoInv t :=
  run.invariant FifoInv (fun _ _ _ inv step => inv.step step) (FifoInv.start files)

/-- **When the names of FIFOs are right, and when they are distinct.**  A call yields
the name that is meant exactly if the buffer has it already, from its second byte
on, which no call of a run finds; and the names that a run makes are distinct
exactly if the numbers are that the pid in the buffer and the counter behind it are
read as. -/
theorem fifo_names_iff {files : List Bytes} {trace : List (FifoEvent × Fifos)} {t : Fifos}
    (run : Run FifoStep (Fifos.start files) trace t) :
    (∀ (b : UInt8) (tail : Bytes) (newFifoIndex : Int32), ∀ name ∈ [srvToCli, cliToSrv],
      cstr (printName (b :: tail) name newFifoIndex) = name ++ decimal newFifoIndex.toInt ↔
        cstr tail = name.tail) ∧
    (∀ call ∈ t.calls, call.path ≠ call.name ++ decimal call.index.toInt) ∧
    ((t.made.map Call.path).Nodup ↔ (t.made.map Call.mark).Nodup) := by
  have inv := FifoInv.of_run run
  refine ⟨?_, fun call hmem => (inv.calls call hmem).path_ne, ?_⟩
  · intro b tail newFifoIndex name hname
    have hslash : (47 : UInt8) ≠ 0 := by decide
    have hiff := fun rest => cstr_printName_eq_iff b 47 tail rest hslash newFifoIndex
    rcases List.mem_pair.mp hname with rfl | rfl
    · exact hiff srvToCli.tail
    · exact hiff cliToSrv.tail
  · rw [List.Nodup, List.Nodup, List.pairwise_map, List.pairwise_map]
    apply List.Pairwise.iff_of_mem
    intro a b ha hb
    have hya := inv.calls a (List.mem_of_mem_filter ha)
    have hyb := inv.calls b (List.mem_of_mem_filter hb)
    exact not_congr (hya.path_inj hyb)

/-- Clients 12 and 120 make their FIFOs, and the server answers client 12 first. -/
def collisionEvents : List FifoEvent :=
  [.openInc 12 true, .name 12 true, .send 12 true, .openInc 120 true, .name 120 true,
    .acceptReceive, .acceptOpenOut true, .acceptName true]

/-- What a run of `collisionEvents` has made. -/
theorem exists_collision : ∃ (trace : List (FifoEvent × Fifos)) (t : Fifos),
    Run FifoStep (Fifos.start []) trace t ∧ trace.map Prod.fst = collisionEvents ∧
      t.made.map Call.path = [[47, 49, 50], [47, 49, 50, 48], [47, 49, 50, 48]] :=
  ⟨_, _, .cons (.openInc true (by decide) rfl) (.cons (.name true rfl)
    (.cons (.send rfl) (.cons (.openInc true (by decide) rfl) (.cons (.name true rfl)
      (.cons (.acceptReceive rfl rfl) (.cons (.acceptOpenOut true rfl)
        (.cons (.acceptName true rfl) (.nil _)))))))), rfl, by decide +kernel⟩

theorem fifo_names_iff_collision : ∃ (trace : List (FifoEvent × Fifos)) (t : Fifos),
    trace.map Prod.fst = collisionEvents ∧
      (∀ (b : UInt8) (tail : Bytes) (newFifoIndex : Int32), ∀ name ∈ [srvToCli, cliToSrv],
        cstr (printName (b :: tail) name newFifoIndex) = name ++ decimal newFifoIndex.toInt ↔
          cstr tail = name.tail) ∧
      (∀ call ∈ t.calls, call.path ≠ call.name ++ decimal call.index.toInt) ∧
      ((t.made.map Call.path).Nodup ↔ (t.made.map Call.mark).Nodup) := by
  obtain ⟨trace, t, run, hevents, _⟩ := exists_collision
  exact ⟨trace, t, hevents, fifo_names_iff run⟩

theorem collision_wrong_and_shared :
    (¬ ∀ (files : List Bytes) (trace : List (FifoEvent × Fifos)) (t : Fifos),
      Run FifoStep (Fifos.start files) trace t →
        ∀ call ∈ t.calls, call.path = call.name ++ decimal call.index.toInt) ∧
    ¬ ∀ (files : List Bytes) (trace : List (FifoEvent × Fifos)) (t : Fifos),
      Run FifoStep (Fifos.start files) trace t → (t.made.map Call.path).Nodup := by
  obtain ⟨trace, t, run, _, hpaths⟩ := exists_collision
  constructor
  · intro hexact
    obtain ⟨call, hmade, _⟩ := List.mem_map.mp (hpaths ▸ List.mem_cons_self)
    have hmem := List.mem_of_mem_filter hmade
    exact ((FifoInv.of_run run).calls call hmem).path_ne (hexact [] trace t run call hmem)
  · intro hdistinct
    have hnodup := hdistinct [] trace t run
    rw [hpaths] at hnodup
    exact absurd hnodup (by decide)

end AirTraffic.Transport.Fifo
