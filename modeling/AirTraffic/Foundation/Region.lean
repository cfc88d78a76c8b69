/-
  Foundation/Region.lean --- byte regions with positioned reads and writes.

  WHAT THIS FILE IS FOR.  A file, a `struct` in memory and a wire buffer are all
  a list of bytes that is read and written at offsets.  This file fixes the two
  operations once, with the POSIX rule for a write past the end (the hole reads
  as zeros), and proves the read-after-write laws that every layer above uses:
  the bytes just written, the bytes before them and the bytes after them.
-/
import Mathlib.Data.List.Basic

set_option autoImplicit false

namespace AirTraffic.Foundation

/-- A sequence of bytes: a file, a buffer, the memory of a record. -/
abbrev Bytes : Type := List UInt8

/-- `n` zero bytes. -/
def zeros (n : Nat) : Bytes := List.replicate n 0

@[simp] theorem length_zeros (n : Nat) : (zeros n).length = n := by
  simp [zeros]

theorem getElem?_zeros (n i : Nat) :
    (zeros n)[i]? = if i < n then some 0 else none := by
  simp [zeros, List.getElem?_replicate]

/-- The `n` bytes at offset `off`, or as many of them as exist. -/
def readAt (region : Bytes) (off n : Nat) : Bytes :=
  (region.drop off).take n

/-- `data` stored at offset `off`.  A gap between the old end and `off` is
filled with zeros. -/
def writeAt (region : Bytes) (off : Nat) (data : Bytes) : Bytes :=
  region.take off ++ zeros (off - region.length) ++ data ++
    region.drop (off + data.length)

/-! ## Lengths -/

@[simp] theorem length_readAt (region : Bytes) (off n : Nat) :
    (readAt region off n).length = min n (region.length - off) := by
  simp [readAt]

@[simp] theorem length_writeAt (region : Bytes) (off : Nat) (data : Bytes) :
    (writeAt region off data).length = max region.length (off + data.length) := by
  simp only [writeAt, List.length_append, List.length_take, length_zeros,
    List.length_drop]
  omega

/-- Inside the region a read is never short. -/
theorem length_readAt_of_le {region : Bytes} {off n : Nat}
    (h : off + n ≤ region.length) : (readAt region off n).length = n := by
  rw [length_readAt]
  omega

/-- A read at or past the end returns nothing. -/
theorem readAt_of_length_le {region : Bytes} {off : Nat} (n : Nat)
    (h : region.length ≤ off) : readAt region off n = [] := by
  rw [readAt, List.drop_eq_nil_of_le h, List.take_nil]

/-! ## Bytes of a read and of a write -/

theorem getElem?_readAt (region : Bytes) (off n i : Nat) :
    (readAt region off n)[i]? = if i < n then region[off + i]? else none := by
  simp [readAt, List.getElem?_take, List.getElem?_drop]

theorem getElem?_writeAt (region : Bytes) (off : Nat) (data : Bytes) (i : Nat) :
    (writeAt region off data)[i]? =
      if i < off then (if i < region.length then region[i]? else some 0)
      else if i < off + data.length then data[i - off]?
      else region[i]? := by
  simp only [writeAt, List.getElem?_append, List.length_append,
    List.length_take, length_zeros, getElem?_zeros, List.getElem?_take,
    List.getElem?_drop]
  have hpad : min off region.length + (off - region.length) = off := by omega
  rw [hpad]
  by_cases hbefore : i < off
  · by_cases hold : i < region.length
    · have : i < min off region.length := by omega
      simp [hbefore, hold, this, Nat.lt_add_right]
    · have hmin : ¬ i < min off region.length := by omega
      have hgap : i - min off region.length < off - region.length := by omega
      simp [hbefore, hold, hmin, hgap, Nat.lt_add_right]
  · by_cases hinside : i < off + data.length
    · simp [hbefore, hinside]
    · have hpast : off + data.length + (i - (off + data.length)) = i := by omega
      simp [hbefore, hinside, hpast]

/-- The bytes just written are read back. -/
theorem readAt_writeAt_self (region : Bytes) (off : Nat) (data : Bytes) :
    readAt (writeAt region off data) off data.length = data := by
  apply List.ext_getElem?
  intro i
  rw [getElem?_readAt, getElem?_writeAt]
  by_cases hi : i < data.length
  · have hnot : ¬ off + i < off := by omega
    have hin : off + i < off + data.length := by omega
    have hshift : off + i - off = i := by omega
    rw [if_pos hi, if_neg hnot, if_pos hin, hshift]
  · simp [hi]

/-- Part of the bytes just written. -/
theorem readAt_writeAt_inside {off a n : Nat} (region : Bytes) {data : Bytes}
    (hfrom : off ≤ a) (hto : a + n ≤ off + data.length) :
    readAt (writeAt region off data) a n = readAt data (a - off) n := by
  apply List.ext_getElem?
  intro i
  rw [getElem?_readAt, getElem?_readAt, getElem?_writeAt]
  by_cases hi : i < n
  · have hnot : ¬ a + i < off := by omega
    have hin : a + i < off + data.length := by omega
    have hshift : a + i - off = a - off + i := by omega
    simp [hi, hnot, hin, hshift]
  · simp [hi]

/-- Bytes below the write are unchanged. -/
theorem readAt_writeAt_before {region : Bytes} {off a n : Nat} (data : Bytes)
    (hbelow : a + n ≤ off) (hold : a + n ≤ region.length) :
    readAt (writeAt region off data) a n = readAt region a n := by
  apply List.ext_getElem?
  intro i
  rw [getElem?_readAt, getElem?_readAt, getElem?_writeAt]
  by_cases hi : i < n
  · have hlt : a + i < off := by omega
    have hlen : a + i < region.length := by omega
    simp [hi, hlt, hlen]
  · simp [hi]

/-- Bytes above the write are unchanged. -/
theorem readAt_writeAt_after {off a : Nat} (region : Bytes) (n : Nat)
    {data : Bytes} (habove : off + data.length ≤ a) :
    readAt (writeAt region off data) a n = readAt region a n := by
  apply List.ext_getElem?
  intro i
  rw [getElem?_readAt, getElem?_readAt, getElem?_writeAt]
  by_cases hi : i < n
  · have hnot : ¬ a + i < off := by omega
    have hpast : ¬ a + i < off + data.length := by omega
    simp [hi, hnot, hpast]
  · simp [hi]

/-- Two writes one behind the other are one write. -/
theorem writeAt_writeAt_append (region : Bytes) (off : Nat) (left right : Bytes) :
    writeAt (writeAt region off left) (off + left.length) right =
      writeAt region off (left ++ right) := by
  apply List.ext_getElem?
  intro i
  rw [getElem?_writeAt, getElem?_writeAt, getElem?_writeAt, length_writeAt,
    List.length_append, ← Nat.add_assoc, List.getElem?_append]
  by_cases hbefore : i < off
  · have hlt : i < off + left.length := by omega
    have hlen : i < max region.length (off + left.length) := by omega
    simp only [hbefore, hlt, hlen, if_true]
  · by_cases hleft : i < off + left.length
    · have hsub : i - off < left.length := by omega
      have hboth : i < off + left.length + right.length := by omega
      have hlen : i < max region.length (off + left.length) := by omega
      simp only [hbefore, hleft, hsub, hboth, hlen, if_true, if_false]
    · have hsub : ¬ i - off < left.length := by omega
      have hshift : i - off - left.length = i - (off + left.length) := by omega
      simp [hbefore, hleft, hsub, hshift]

/-- A second write over the front of a first one. -/
theorem writeAt_writeAt_front (region : Bytes) (off : Nat) (old new : Bytes)
    (h : new.length ≤ old.length) :
    writeAt (writeAt region off old) off new =
      writeAt region off (new ++ old.drop new.length) := by
  apply List.ext_getElem?
  intro i
  rw [getElem?_writeAt, getElem?_writeAt, getElem?_writeAt, length_writeAt,
    List.length_append, List.length_drop, List.getElem?_append, List.getElem?_drop]
  by_cases hbefore : i < off
  · have hlen : i < max region.length (off + old.length) := by omega
    simp only [hbefore, hlen, if_true]
  · by_cases hnew : i < off + new.length
    · have hsub : i - off < new.length := by omega
      have hboth : i < off + (new.length + (old.length - new.length)) := by omega
      simp only [hbefore, hnew, hsub, hboth, if_true, if_false]
    · have hsub : ¬ i - off < new.length := by omega
      have hold : (i < off + (new.length + (old.length - new.length))) ↔
          i < off + old.length := by omega
      have hshift : new.length + (i - off - new.length) = i - off := by omega
      simp only [hbefore, hnew, hsub, hold, hshift, if_false]

/-- A part of a part that was read. -/
theorem readAt_readAt {a n off m : Nat} (region : Bytes) (h : a + n ≤ m) :
    readAt (readAt region off m) a n = readAt region (off + a) n := by
  apply List.ext_getElem?
  intro i
  rw [getElem?_readAt, getElem?_readAt, getElem?_readAt]
  by_cases hi : i < n
  · have hin : a + i < m := by omega
    simp [hi, hin, Nat.add_assoc]
  · simp [hi]

/-- Writing over exactly the bytes of a region replaces it. -/
theorem writeAt_zero_of_length_le {region data : Bytes}
    (h : region.length ≤ data.length) : writeAt region 0 data = data := by
  simp [writeAt, zeros, List.drop_eq_nil_of_le h]

/-- Bytes that are there already. -/
theorem writeAt_eq_self {region data : Bytes} {off : Nat} (hdata : data ≠ [])
    (h : readAt region off data.length = data) : writeAt region off data = region := by
  have hpos : 0 < data.length := List.length_pos_of_ne_nil hdata
  have hlength := congrArg List.length h
  rw [length_readAt] at hlength
  apply List.ext_getElem?
  intro i
  rw [getElem?_writeAt]
  split
  · rw [if_pos (by omega)]
  · split
    · rw [← h, getElem?_readAt, if_pos (by omega)]
      congr 1
      omega
    · rfl

end AirTraffic.Foundation
