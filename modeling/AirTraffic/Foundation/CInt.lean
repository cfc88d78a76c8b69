/-
  Foundation/CInt.lean --- C arithmetic on `int`, and casts to it.

  WHAT THIS FILE IS FOR.  Coordinates are `int`s; a displacement is computed in
  floats and cast back.  What the operations on floats round to is the platform's
  (`Platform`), the cast truncates toward zero, and a value that no `int` can hold
  (which C leaves undefined, and which includes the infinity of a division by zero)
  casts to whatever the platform answers.  `%` on `int` takes the sign of the
  dividend, so a coordinate is brought back into its range with one correction;
  `remFix` is that idiom and `toInt_remFix` says it is the mathematical remainder.

  PLATFORMS.  `x86` has the two IEEE formats, to nearest, and operations that round
  to the type of the expression.  `exactX86` is the same machine with exact rationals
  for floats.
-/
import AirTraffic.Foundation.Rounding

set_option autoImplicit false

namespace AirTraffic.Foundation

/-! ## Sums of `int`s that do not overflow -/

theorem Int32.toInt_add_of_range {a b : Int32} (hlow : -2 ^ 31 ≤ a.toInt + b.toInt)
    (hhigh : a.toInt + b.toInt < 2 ^ 31) : (a + b).toInt = a.toInt + b.toInt := by
  rw [Int32.toInt_add]
  exact Int.bmod_eq_of_le (by omega) (by omega)

theorem Int32.toInt_sub_of_range {a b : Int32} (hlow : -2 ^ 31 ≤ a.toInt - b.toInt)
    (hhigh : a.toInt - b.toInt < 2 ^ 31) : (a - b).toInt = a.toInt - b.toInt := by
  rw [Int32.toInt_sub]
  exact Int.bmod_eq_of_le (by omega) (by omega)

theorem Int32.toInt_ofInt_of_range {n : Int} (hlow : -2 ^ 31 ≤ n) (hhigh : n < 2 ^ 31) :
    (Int32.ofInt n).toInt = n := by
  rw [Int32.toInt_ofInt]
  exact Int.bmod_eq_of_le (by simp [Int32.size]; omega) (by simp [Int32.size]; omega)

theorem Int32.toInt_range (a : Int32) : -2 ^ 31 ≤ a.toInt ∧ a.toInt < 2 ^ 31 := by
  have hle := Int32.le_toInt a
  have hlt := Int32.toInt_lt a
  omega

/-- Below the largest number counting up goes up. -/
theorem Int32.lt_succ {a : Int32} (h : a ≠ Int32.maxValue) : a < a + 1 := by
  have hone : (1 : Int32).toInt = 1 := rfl
  have hmax : Int32.maxValue.toInt = 2 ^ 31 - 1 := rfl
  have hne : a.toInt ≠ Int32.maxValue.toInt := fun heq => h (Int32.toInt_inj.mp heq)
  have hrange := Int32.toInt_range a
  rw [Int32.lt_iff_toInt_lt, Int32.toInt_add_of_range (by omega) (by omega)]
  omega

/-! ## Platforms -/

/-- How a platform computes with floats, and what it does where C leaves the cast to
`int` undefined. -/
class Platform where
  /-- Operations on `float`. -/
  single : Rounding 24
  /-- Operations on `double`. -/
  double : Rounding 53
  /-- The `int` that a value out of range, or an infinity, is cast to. -/
  indefinite : Int32
  /-- It is a number that a `float` holds. -/
  single_indefinite : single.round indefinite.toInt = indefinite.toInt

/-- An x86 rounds to nearest and answers the smallest `int`. -/
@[reducible] def x86 : Platform where
  single := .toNearest 24 (by decide)
  double := .toNearest 53 (by decide)
  indefinite := -2147483648
  single_indefinite := by decide +kernel

/-- Arithmetic without rounding, on an x86. -/
@[reducible] def exactX86 : Platform where
  single := .exact 24
  double := .exact 53
  indefinite := -2147483648
  single_indefinite := rfl

/-- No operation rounds. -/
structure Platform.IsExact [Platform] : Prop where
  single : ∀ q, Platform.single.round q = q
  double : ∀ q, Platform.double.round q = q

theorem isExact_exactX86 : @Platform.IsExact exactX86 :=
  @Platform.IsExact.mk exactX86 (fun _ => rfl) fun _ => rfl

/-! ## The `(int)` cast of a float -/

/-- The value lies in the range of `int`. -/
def FitsInt (n : Int) : Prop := -2 ^ 31 ≤ n ∧ n < 2 ^ 31

instance (n : Int) : Decidable (FitsInt n) := inferInstanceAs (Decidable (_ ∧ _))

theorem fitsInt_toInt (a : Int32) : FitsInt a.toInt := Int32.toInt_range a

/-- The `(int)` cast of a `float` or a `double`. -/
def castInt [Platform] (q : ℚ) : Int32 :=
  if FitsInt (trunc q) then Int32.ofInt (trunc q) else Platform.indefinite

theorem toInt_castInt_of_fits [Platform] {q : ℚ} (h : FitsInt (trunc q)) :
    (castInt q).toInt = trunc q := by
  rw [castInt, if_pos h]
  exact Int32.toInt_ofInt_of_range h.1 h.2

theorem abs_lt_of_fits {q : ℚ} (h : FitsInt (trunc q)) : |q| < 2 ^ 31 + 1 := by
  rw [abs_lt]
  constructor
  · by_contra hlow
    have hless := trunc_le_trunc (show q ≤ ((-2 ^ 31 - 1 : Int) : ℚ) by push_cast; linarith)
    rw [trunc_intCast] at hless
    have := h.1
    omega
  · have hnot := mt (le_trunc_iff (n := 2 ^ 31) (by decide) q).mpr (not_le.mpr h.2)
    push_cast at hnot
    linarith

/-- Where the cast of a value out of range is negative, a cast is negative exactly below
zero and beyond the largest number. -/
theorem castInt_neg_iff [Platform] (h : Platform.indefinite < 0) (q : ℚ) :
    castInt q < 0 ↔ trunc q < 0 ∨ 2 ^ 31 ≤ trunc q := by
  by_cases hfits : FitsInt (trunc q)
  · rw [Int32.lt_iff_toInt_lt, toInt_castInt_of_fits hfits, Int32.toInt_zero]
    exact ⟨Or.inl, fun hout => hout.elim id fun hbig => absurd hfits.2 (by omega)⟩
  · rw [castInt, if_neg hfits]
    refine iff_of_true h ?_
    by_contra hin
    exact hfits (by unfold FitsInt; omega)

/-- Casting a float that holds an `int` gives the `int` back. -/
@[simp] theorem castInt_toInt [Platform] (a : Int32) : castInt (a.toInt : ℚ) = a := by
  apply Int32.toInt_inj.mp
  rw [toInt_castInt_of_fits, trunc_intCast]
  rw [trunc_intCast]
  exact fitsInt_toInt a

/-- A cast of a `float` is a number that a `float` holds. -/
theorem single_castInt [Platform] (q : ℚ) :
    Platform.single.round (castInt (Platform.single.round q)).toInt =
      (castInt (Platform.single.round q)).toInt := by
  by_cases hfits : FitsInt (trunc (Platform.single.round q))
  · rw [toInt_castInt_of_fits hfits]
    exact Platform.single.round_trunc q
  · rw [castInt, if_neg hfits]
    exact Platform.single_indefinite

/-! ## Remainders -/

/-- `v % m` brought into `[0, m)`: C's remainder is negative for a negative
dividend, and `m` is added once. -/
def remFix (v m : Int32) : Int32 :=
  if v % m < 0 then m + v % m else v % m

/-- C's remainder is the mathematical one, or one modulus below it. -/
theorem tmod_eq_emod_or {v m : Int} (hm : 0 < m) :
    v.tmod m = v % m ∨ v.tmod m = v % m - m := by
  rw [Int.tmod_eq_emod]
  split
  · exact Or.inl (Int.sub_zero _)
  · right
    rw [Int.natAbs_of_nonneg (Int.le_of_lt hm)]

theorem toInt_remFix {v m : Int32} (hm : 0 < m.toInt) :
    (remFix v m).toInt = v.toInt % m.toInt := by
  have hrem : (v % m).toInt = v.toInt.tmod m.toInt := Int32.toInt_mod v m
  have hcases := tmod_eq_emod_or (v := v.toInt) hm
  have hlow : 0 ≤ v.toInt % m.toInt := Int.emod_nonneg _ (by omega)
  have hhigh : v.toInt % m.toInt < m.toInt := Int.emod_lt_of_pos _ hm
  have hrange := Int32.toInt_range m
  unfold remFix
  by_cases hneg : v % m < 0
  · have hlt : v.toInt.tmod m.toInt < 0 := by
      rw [← hrem]
      exact Int32.lt_iff_toInt_lt.mp hneg
    rw [if_pos hneg, Int32.toInt_add_of_range (by omega) (by omega), hrem]
    omega
  · have hge : 0 ≤ v.toInt.tmod m.toInt := by
      rw [← hrem]
      exact Int32.le_iff_toInt_le.mp (Int32.not_lt.mp hneg)
    rw [if_neg hneg, hrem]
    omega

/-- A corrected remainder is a coordinate of its range. -/
theorem remFix_range {v m : Int32} (hm : 0 < m.toInt) :
    0 ≤ (remFix v m).toInt ∧ (remFix v m).toInt < m.toInt := by
  rw [toInt_remFix hm]
  exact ⟨Int.emod_nonneg _ (by omega), Int.emod_lt_of_pos _ hm⟩

/-- A coordinate already in range stays where it is. -/
theorem remFix_of_range {v m : Int32} (hm : 0 < m.toInt) (hlow : 0 ≤ v.toInt)
    (hhigh : v.toInt < m.toInt) : remFix v m = v := by
  apply Int32.toInt_inj.mp
  rw [toInt_remFix hm, Int.emod_eq_of_lt hlow hhigh]

/-- Two values become one coordinate if they differ by whole turns of the map. -/
theorem remFix_eq_iff {v w m : Int32} (hm : 0 < m.toInt) :
    remFix v m = remFix w m ↔ m.toInt ∣ v.toInt - w.toInt := by
  rw [← Int32.toInt_inj, toInt_remFix hm, toInt_remFix hm, Int.emod_eq_emod_iff_emod_sub_eq_zero,
    Int.dvd_iff_emod_eq_zero]

end AirTraffic.Foundation
