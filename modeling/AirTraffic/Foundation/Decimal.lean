/-
  Foundation/Decimal.lean --- numbers as `%d` prints them.

  WHAT THIS FILE IS FOR.  A name made from numerals is a string of digits without
  a mark of where one numeral ends and the next begins.  So two numerals one
  behind the other are the numeral of one number (`digits_append_digits`), and
  such pairs are told apart exactly as far as these numbers are
  (`stem_append_decimal_inj`).
-/
import AirTraffic.Foundation.CString
import Mathlib.Algebra.Group.Nat.Defs
import Mathlib.Data.List.Basic

set_option autoImplicit false

namespace AirTraffic.Foundation

/-! ## Digits -/

/-- The decimal digits of a number. -/
def digits (n : Nat) : Bytes := (Nat.toDigits 10 n).map fun c => UInt8.ofNat c.toNat

theorem toNat_of_mem_digits {n : Nat} {b : UInt8} (h : b ∈ digits n) :
    48 ≤ b.toNat ∧ b.toNat ≤ 57 := by
  obtain ⟨c, hc, rfl⟩ := List.mem_map.mp h
  have hdigit := Nat.isDigit_of_mem_toDigits (by decide) (by decide) hc
  have hrange : 48 ≤ c.toNat ∧ c.toNat ≤ 57 := Char.isDigit_iff_toNat.mp hdigit
  rw [UInt8.toNat_ofNat_of_lt' (by simp only [UInt8.size]; omega)]
  exact hrange

theorem nulFree_digits (n : Nat) : NulFree (digits n) := by
  rintro b hb rfl
  have hrange := toNat_of_mem_digits hb
  simp at hrange

/-- A minus sign is not a digit. -/
theorem minus_not_mem_digits (n : Nat) : (45 : UInt8) ∉ digits n := by
  intro h
  have hrange := toNat_of_mem_digits h
  simp at hrange

theorem digits_ne_nil (n : Nat) : digits n ≠ [] := by
  rw [digits, ne_eq, List.map_eq_nil_iff]
  exact Nat.toDigits_ne_nil

theorem length_digits_le {n k : Nat} (hk : 0 < k) (h : n < 10 ^ k) : (digits n).length ≤ k := by
  rw [digits, List.length_map]
  exact (Nat.length_toDigits_le_iff (by decide) hk).mpr h

/-- The digits can be read back. -/
theorem map_ofNat_digits (n : Nat) :
    (digits n).map (fun b => Char.ofNat b.toNat) = Nat.toDigits 10 n := by
  rw [digits, List.map_map]
  conv_rhs => rw [← List.map_id (Nat.toDigits 10 n)]
  apply List.map_congr_left
  intro c hc
  have hdigit := Nat.isDigit_of_mem_toDigits (by decide) (by decide) hc
  have hrange : 48 ≤ c.toNat ∧ c.toNat ≤ 57 := Char.isDigit_iff_toNat.mp hdigit
  rw [Function.comp_apply, UInt8.toNat_ofNat_of_lt' (by simp only [UInt8.size]; omega),
    Char.ofNat_toNat, id]

theorem digits_inj {m n : Nat} : digits m = digits n ↔ m = n := by
  constructor
  · intro h
    have hchars : Nat.toDigits 10 m = Nat.toDigits 10 n := by
      rw [← map_ofNat_digits, ← map_ofNat_digits, h]
    have hvalue := congrArg (fun cs => Nat.ofDigitChars 10 cs 0) hchars
    simpa using hvalue
  · rintro rfl
    rfl

/-- One more digit. -/
theorem digits_append_digit {q d : Nat} (hq : 0 < q) (hd : d < 10) :
    digits q ++ digits d = digits (10 * q + d) := by
  rw [digits, digits, ← List.map_append, Nat.toDigits_append_toDigits (by decide) hq hd, digits]

/-- Two numerals one behind the other are a numeral. -/
theorem digits_append_digits {q : Nat} (hq : 0 < q) (i : Nat) :
    digits q ++ digits i = digits (q * 10 ^ (digits i).length + i) := by
  induction i using Nat.strongRecOn with
  | ind i ih =>
      rcases Nat.lt_or_ge i 10 with hlt | hge
      · have hlen : (digits i).length = 1 := by
          rw [digits, Nat.toDigits_of_lt_base hlt]
          rfl
        rw [digits_append_digit hq hlt, hlen, Nat.pow_one, Nat.mul_comm]
      · -- the last digit of `i` comes off
        have hdigit : i % 10 < 10 := Nat.mod_lt i (by decide)
        have hlast : digits i = digits (i / 10) ++ digits (i % 10) := by
          rw [digits_append_digit (by omega) hdigit, Nat.div_add_mod]
        have hone : (digits (i % 10)).length = 1 := by
          rw [digits, Nat.toDigits_of_lt_base hdigit]
          rfl
        have hlen : (digits i).length = (digits (i / 10)).length + 1 := by
          rw [hlast, List.length_append, hone]
        have hpos : 0 < q * 10 ^ (digits (i / 10)).length + i / 10 := by omega
        rw [hlast, ← List.append_assoc, ih (i / 10) (by omega), digits_append_digit hpos hdigit,
          ← hlast, hlen, Nat.pow_succ]
        congr 1
        have hsplit := Nat.div_add_mod i 10
        rw [Nat.mul_add, Nat.add_assoc, hsplit, Nat.mul_left_comm, Nat.mul_comm 10]

/-! ## Numerals -/

/-- What `%d` prints. -/
def decimal (n : Int) : Bytes := if n < 0 then 45 :: digits n.natAbs else digits n.natAbs

theorem nulFree_decimal (n : Int) : NulFree (decimal n) := by
  unfold decimal
  split
  · intro b hb
    rcases List.mem_cons.mp hb with rfl | hb
    · decide
    · exact nulFree_digits _ b hb
  · exact nulFree_digits _

/-- An `int` takes a sign and ten digits at most. -/
theorem length_decimal_le (n : Int32) : (decimal n.toInt).length ≤ 11 := by
  have hlow := Int32.le_toInt n
  have hhigh := Int32.toInt_lt n
  have hdigits : (digits n.toInt.natAbs).length ≤ 10 := length_digits_le (by decide) (by omega)
  unfold decimal
  split
  · rw [List.length_cons]
    omega
  · omega

/-- The numeral before another one; 0 stands for none. -/
def stem (q : Nat) : Bytes := if q = 0 then [] else digits q

theorem minus_not_mem_stem (q : Nat) : (45 : UInt8) ∉ stem q := by
  unfold stem
  split
  · exact List.not_mem_nil
  · exact minus_not_mem_digits q

theorem stem_inj {p q : Nat} : stem p = stem q ↔ p = q := by
  unfold stem
  split
  · rename_i hp
    split
    · rename_i hq
      exact ⟨fun _ => hp.trans hq.symm, fun _ => rfl⟩
    · rename_i hq
      exact iff_of_false (digits_ne_nil q).symm fun h => hq (h ▸ hp)
  · rename_i hp
    split
    · rename_i hq
      exact iff_of_false (digits_ne_nil p) fun h => hp (h ▸ hq)
    · exact digits_inj

/-- The numeral of an `int` has ten digits at most. -/
theorem length_stem_le (n : Int32) : (stem n.toInt.toNat).length ≤ 10 := by
  have hhigh := Int32.toInt_lt n
  unfold stem
  split
  · exact Nat.zero_le _
  · exact length_digits_le (by decide) (by omega)

theorem decimal_of_pos {n : Int} (h : 0 < n) : decimal n = stem n.toNat := by
  have habs : n.natAbs = n.toNat := by omega
  rw [decimal, stem, if_neg (by omega), if_neg (by omega), habs]

theorem le_of_mem_stem {q : Nat} {b : UInt8} (h : b ∈ stem q) : b.toNat ≤ 57 := by
  unfold stem at h
  split at h
  · exact absurd h List.not_mem_nil
  · exact (toNat_of_mem_digits h).2

/-- What a stem and a number are read as: one number, as long as no minus sign
stands between them. -/
def joined (q : Nat) (n : Int) : Nat × Int :=
  if n < 0 then (q, n) else (q * 10 ^ (digits n.natAbs).length + n.natAbs, 0)

theorem stem_append_digits (q n : Nat) :
    stem q ++ digits n = digits (q * 10 ^ (digits n).length + n) := by
  unfold stem
  split
  · rename_i hq
    rw [hq, Nat.zero_mul, Nat.zero_add, List.nil_append]
  · rename_i hq
    exact digits_append_digits (Nat.pos_of_ne_zero hq) n

/-- Stems with numbers are told apart as far as what they are read as. -/
theorem stem_append_decimal_inj {p q : Nat} {m n : Int} :
    stem p ++ decimal m = stem q ++ decimal n ↔ joined p m = joined q n := by
  unfold decimal joined
  split
  · rename_i hm
    split
    · rename_i hn
      rw [List.append_cons_inj_of_notMem (minus_not_mem_stem p) (minus_not_mem_digits _), stem_inj,
        digits_inj, Prod.mk.injEq]
      refine and_congr_right fun _ => ⟨fun h => ?_, fun h => ⟨rfl, congrArg _ h⟩⟩
      have habs : m.natAbs = n.natAbs := h.2
      omega
    · rename_i hn
      rw [stem_append_digits]
      apply iff_of_false
      · intro h
        exact minus_not_mem_digits _ (h ▸ List.mem_append_right _ List.mem_cons_self)
      · intro h
        have hzero : m = 0 := congrArg Prod.snd h
        omega
  · rename_i hm
    split
    · rename_i hn
      rw [stem_append_digits]
      apply iff_of_false
      · intro h
        exact minus_not_mem_digits _ (h.symm ▸ List.mem_append_right _ List.mem_cons_self)
      · intro h
        have hzero : 0 = n := congrArg Prod.snd h
        omega
    · rw [stem_append_digits, stem_append_digits, digits_inj, Prod.mk.injEq]
      exact (and_iff_left rfl).symm

theorem decimal_inj {m n : Int} : decimal m = decimal n ↔ m = n := by
  have hstem : stem 0 ++ decimal m = stem 0 ++ decimal n ↔ joined 0 m = joined 0 n :=
    stem_append_decimal_inj
  rw [List.append_right_inj] at hstem
  rw [hstem]
  refine ⟨fun h => ?_, fun h => congrArg (joined 0) h⟩
  unfold joined at h
  rw [Nat.zero_mul, Nat.zero_mul, Nat.zero_add, Nat.zero_add] at h
  split at h
  · split at h
    · exact (Prod.mk.inj h).2
    · have hzero : m = 0 := (Prod.mk.inj h).2
      omega
  · split at h
    · have hzero : 0 = n := (Prod.mk.inj h).2
      omega
    · have habs : m.natAbs = n.natAbs := (Prod.mk.inj h).1
      omega

end AirTraffic.Foundation
