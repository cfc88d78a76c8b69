/-
  Foundation/Endian.lean --- fixed-width integers as bytes.

  WHAT THIS FILE IS FOR.  A record in memory stores its integers least
  significant byte first, a message on the wire most significant byte first.
  Both are the same base-256 digits of the unsigned value of the word, so the
  round trips are proved for naturals and read off for 32-bit and 64-bit words.
-/
import AirTraffic.Foundation.Region
import Mathlib.Tactic.Ring

set_option autoImplicit false

namespace AirTraffic.Foundation

/-! ## Naturals -/

/-- The `w` low bytes of `n`, least significant first. -/
def toLE : Nat → Nat → Bytes
  | 0, _ => []
  | w + 1, n => UInt8.ofNat n :: toLE w (n / 256)

/-- The natural whose bytes, least significant first, are given. -/
def ofLE : Bytes → Nat
  | [] => 0
  | b :: bs => b.toNat + 256 * ofLE bs

@[simp] theorem length_toLE (w n : Nat) : (toLE w n).length = w := by
  induction w generalizing n with
  | zero => rfl
  | succ w ih => simp [toLE, ih]

theorem ofLE_toLE (w n : Nat) : ofLE (toLE w n) = n % 256 ^ w := by
  induction w generalizing n with
  | zero => simp [toLE, ofLE, Nat.mod_one]
  | succ w ih =>
      rw [toLE, ofLE, ih, Nat.pow_succ', Nat.mod_mul, UInt8.toNat_ofNat']

theorem ofLE_toLE_of_lt {w n : Nat} (h : n < 256 ^ w) : ofLE (toLE w n) = n := by
  rw [ofLE_toLE, Nat.mod_eq_of_lt h]

theorem ofLE_append (low high : Bytes) :
    ofLE (low ++ high) = ofLE low + 256 ^ low.length * ofLE high := by
  induction low with
  | nil => simp [ofLE]
  | cons b bs ih =>
      rw [List.cons_append, ofLE, ofLE, ih, List.length_cons]
      ring

@[simp] theorem ofLE_zeros (n : Nat) : ofLE (zeros n) = 0 := by
  induction n with
  | zero => rfl
  | succ n ih =>
      have hcons : zeros (n + 1) = 0 :: zeros n := rfl
      rw [hcons, ofLE, ih]
      rfl

/-! ## Words in memory, little-endian -/

/-- The four bytes of an `int` on a little-endian host. -/
def int32LE (x : Int32) : Bytes := toLE 4 x.toBitVec.toNat

/-- The `int` held by four bytes of memory. -/
def int32OfLE (bytes : Bytes) : Int32 :=
  Int32.ofBitVec (BitVec.ofNat 32 (ofLE bytes))

/-- The eight bytes of a `time_t` on a little-endian host. -/
def int64LE (x : Int64) : Bytes := toLE 8 x.toBitVec.toNat

/-- The `time_t` held by eight bytes of memory. -/
def int64OfLE (bytes : Bytes) : Int64 :=
  Int64.ofBitVec (BitVec.ofNat 64 (ofLE bytes))

@[simp] theorem length_int32LE (x : Int32) : (int32LE x).length = 4 := length_toLE _ _

@[simp] theorem length_int64LE (x : Int64) : (int64LE x).length = 8 := length_toLE _ _

@[simp] theorem int32OfLE_int32LE (x : Int32) : int32OfLE (int32LE x) = x := by
  have hlt : x.toBitVec.toNat < 256 ^ 4 := x.toBitVec.isLt
  rw [int32OfLE, int32LE, ofLE_toLE_of_lt hlt, BitVec.ofNat_toNat, BitVec.setWidth_eq,
    Int32.ofBitVec_toBitVec]

@[simp] theorem int64OfLE_int64LE (x : Int64) : int64OfLE (int64LE x) = x := by
  have hlt : x.toBitVec.toNat < 256 ^ 8 := x.toBitVec.isLt
  rw [int64OfLE, int64LE, ofLE_toLE_of_lt hlt, BitVec.ofNat_toNat, BitVec.setWidth_eq,
    Int64.ofBitVec_toBitVec]

/-! ## Words on the wire, big-endian -/

/-- The four bytes of an `int` in network order. -/
def int32BE (x : Int32) : Bytes := (int32LE x).reverse

/-- The `int` whose bytes in network order are given. -/
def int32OfBE (bytes : Bytes) : Int32 := int32OfLE bytes.reverse

@[simp] theorem length_int32BE (x : Int32) : (int32BE x).length = 4 := by
  simp [int32BE]

@[simp] theorem int32OfBE_int32BE (x : Int32) : int32OfBE (int32BE x) = x := by
  simp [int32OfBE, int32BE]

/-! ## A narrow word in the low half of a wide one -/

/-- A `time_t` in `[0, 2^32)` survives being cut to its low four bytes and
written back over the low half of a zeroed `time_t`. -/
theorem int64OfLE_low_half {t : Int64} (hnonneg : 0 ≤ t.toInt)
    (hlt : t.toInt < 2 ^ 32) :
    int64OfLE (int32LE t.toInt32 ++ zeros 4) = t := by
  have hnat : (t.toBitVec.toNat : Int) = t.toInt := by
    rw [← Int64.toInt_toBitVec] at hnonneg ⊢
    exact (BitVec.toInt_eq_toNat_of_msb (BitVec.msb_eq_false_iff_two_mul_lt.mpr
      (by rw [BitVec.toInt_eq_toNat_cond] at hnonneg; split at hnonneg <;> omega))).symm
  have hsmall : t.toBitVec.toNat < 2 ^ 32 := by omega
  have hcut : t.toInt32.toBitVec.toNat = t.toBitVec.toNat := by
    rw [Int64.toBitVec_toInt32, BitVec.signExtend_eq_setWidth_of_le _ (by omega),
      BitVec.toNat_setWidth, Nat.mod_eq_of_lt hsmall]
  have hbound : t.toInt32.toBitVec.toNat < 256 ^ 4 := t.toInt32.toBitVec.isLt
  rw [int64OfLE, ofLE_append, ofLE_zeros, Nat.mul_zero, Nat.add_zero, int32LE,
    ofLE_toLE_of_lt hbound, hcut, BitVec.ofNat_toNat, BitVec.setWidth_eq,
    Int64.ofBitVec_toBitVec]

end AirTraffic.Foundation
