/-
  Foundation/Rounding.lean --- rounding to the numbers of a binary format.

  WHAT THIS FILE IS FOR.  A binary floating-point format with `bits` significant bits
  holds the numbers `n * 2 ^ k` with `|n| ≤ 2 ^ bits`, and an operation answers the
  number of the format that is nearest to the exact result, the even one of two.
  `nearest` computes it on rationals.  There is no bound on the exponent here, so
  nothing overflows and nothing underflows.

  `Rounding` is what a program may rely on, and proofs about programs use nothing
  else.  `Rounding.nearest` has it, and so has `Rounding.exact`, which does not round:
  what is proved of every `Rounding` holds of exact arithmetic too.
-/
import Mathlib.Algebra.Order.Archimedean.Basic
import Mathlib.Algebra.Order.Field.Rat
import Mathlib.Data.Int.Log
import Mathlib.Data.Rat.Floor
import Mathlib.Tactic.Linarith
import Mathlib.Tactic.Ring

set_option autoImplicit false

namespace AirTraffic.Foundation

/-! ## Rounding toward zero -/

/-- Rounding toward zero. -/
def trunc (q : ℚ) : Int := q.num.tdiv q.den

@[simp] theorem trunc_intCast (n : Int) : trunc (n : ℚ) = n := by
  simp [trunc]

/-- Rounding a fraction toward zero is C's division. -/
theorem trunc_div (a : Int) {n : Int} (hn : 0 < n) : trunc ((a : ℚ) / n) = a.tdiv n := by
  obtain ⟨c, hnum, hden⟩ := Rat.exists_eq_mul_div_num_and_eq_mul_div_den a (Int.ne_of_gt hn)
  generalize ((a : ℚ) / n) = q at hnum hden
  have hc : 0 < c := by
    have hpos : (0 : Int) < (q.den : Int) := Int.natCast_pos.mpr q.den_pos
    rw [hden] at hn
    exact pos_of_mul_pos_left hn (Int.le_of_lt hpos)
  rw [trunc, hnum, hden, Int.mul_tdiv_mul_of_pos _ _ hc]

theorem trunc_of_nonneg {q : ℚ} (h : 0 ≤ q) : trunc q = ⌊q⌋ := by
  rw [trunc, Int.tdiv_eq_ediv_of_nonneg (Rat.num_nonneg.mpr h), Rat.floor_def']

theorem trunc_neg (q : ℚ) : trunc (-q) = -trunc q := by
  rw [trunc, trunc, Rat.neg_num, Rat.neg_den, Int.neg_tdiv]

theorem trunc_of_nonpos {q : ℚ} (h : q ≤ 0) : trunc q = ⌈q⌉ := by
  have hneg := trunc_of_nonneg (Left.nonneg_neg_iff.mpr h)
  rw [trunc_neg, Int.floor_neg] at hneg
  exact Int.neg_inj.mp hneg

theorem trunc_le_trunc {q r : ℚ} (h : q ≤ r) : trunc q ≤ trunc r := by
  rcases le_total 0 q with hq | hq
  · rw [trunc_of_nonneg hq, trunc_of_nonneg (hq.trans h)]
    exact Int.floor_le_floor h
  · rcases le_total 0 r with hr | hr
    · rw [trunc_of_nonpos hq, trunc_of_nonneg hr]
      exact (Int.ceil_le.mpr (by exact_mod_cast hq)).trans (Int.floor_nonneg.mpr hr)
    · rw [trunc_of_nonpos hq, trunc_of_nonpos hr]
      exact Int.ceil_le_ceil h

/-- Rounding toward zero does not lead past a whole number. -/
theorem abs_trunc_le {q : ℚ} {n : Int} (h : |q| ≤ n) : |trunc q| ≤ n := by
  obtain ⟨hlow, hhigh⟩ := abs_le.mp h
  have hbelow := trunc_le_trunc (show ((-n : Int) : ℚ) ≤ q by push_cast; exact hlow)
  have habove := trunc_le_trunc hhigh
  rw [trunc_intCast] at hbelow habove
  exact abs_le.mpr ⟨hbelow, habove⟩

/-- Rounded toward zero, a number is negative from -1 down. -/
theorem trunc_neg_iff (q : ℚ) : trunc q < 0 ↔ q ≤ -1 := by
  rcases le_total 0 q with hq | hq
  · rw [trunc_of_nonneg hq]
    exact iff_of_false (not_lt.mpr (Int.floor_nonneg.mpr hq)) (by linarith)
  · have hceil : ⌈q⌉ ≤ -1 ↔ q ≤ ((-1 : Int) : ℚ) := Int.ceil_le
    push_cast at hceil
    rw [trunc_of_nonpos hq, ← hceil]
    omega

theorem le_trunc_iff {n : Int} (hn : 0 < n) (q : ℚ) : n ≤ trunc q ↔ (n : ℚ) ≤ q := by
  have hn' : (0 : ℚ) < n := by exact_mod_cast hn
  rcases le_total 0 q with hq | hq
  · rw [trunc_of_nonneg hq, Int.le_floor]
  · have hnonpos : ⌈q⌉ ≤ 0 := Int.ceil_le.mpr (by exact_mod_cast hq)
    rw [trunc_of_nonpos hq]
    exact iff_of_false (by omega) (by linarith)

/-! ## Rounding to a whole number -/

/-- The nearest whole number, and the even one of two. -/
def roundEven (q : ℚ) : Int :=
  if q - ⌊q⌋ < 1 / 2 ∨ q - ⌊q⌋ = 1 / 2 ∧ ⌊q⌋ % 2 = 0 then ⌊q⌋ else ⌊q⌋ + 1

@[simp] theorem roundEven_intCast (n : Int) : roundEven (n : ℚ) = n := by
  have hzero : (n : ℚ) - ⌊(n : ℚ)⌋ < 1 / 2 := by
    rw [Int.floor_intCast, sub_self]
    norm_num
  rw [roundEven, if_pos (.inl hzero), Int.floor_intCast]

theorem roundEven_bounds (q : ℚ) : ⌊q⌋ ≤ roundEven q ∧ roundEven q ≤ ⌊q⌋ + 1 := by
  unfold roundEven
  split
  · omega
  · omega

theorem roundEven_mono {q r : ℚ} (h : q ≤ r) : roundEven q ≤ roundEven r := by
  have hq := roundEven_bounds q
  have hr := roundEven_bounds r
  rcases (Int.floor_le_floor h).lt_or_eq with hlt | hsame
  · omega
  · unfold roundEven
    rw [hsame]
    split
    · split
      · exact le_rfl
      · omega
    · rename_i hup
      rw [if_neg]
      -- what is rounded up is at least half way, and so is what lies above it
      intro hdown
      rcases hdown with hless | ⟨hhalf, heven⟩
      · exact hup (.inl (by linarith))
      · rcases lt_or_eq_of_le h with hlt | rfl
        · exact hup (.inl (by linarith))
        · exact hup (.inr ⟨hhalf, heven⟩)

/-! ## Rounding to a format -/

/-- The place of the last of `bits` significant bits. -/
def lastPlace (bits : Nat) (q : ℚ) : Int := Int.log 2 |q| + 1 - bits

/-- The number with `bits` significant bits that is nearest, and the even one of two. -/
def nearest (bits : Nat) (q : ℚ) : ℚ :=
  roundEven (q / 2 ^ lastPlace bits q) * 2 ^ lastPlace bits q

section Nearest

variable {bits : Nat} {q r s : ℚ}

theorem two_zpow_pos (k : Int) : (0 : ℚ) < 2 ^ k := zpow_pos (by norm_num) k

/-- A multiple of the last place of a number. -/
def OnGrid (bits : Nat) (q s : ℚ) : Prop := ∃ n : Int, s = n * 2 ^ lastPlace bits q

theorem onGrid_of_le {m k : Int} (h : lastPlace bits q ≤ k) : OnGrid bits q (m * 2 ^ k) := by
  obtain ⟨d, hd⟩ := Int.eq_ofNat_of_zero_le (Int.sub_nonneg_of_le h)
  refine ⟨m * 2 ^ d, ?_⟩
  have hk : k = lastPlace bits q + (d : Int) := by omega
  rw [hk, zpow_add₀ (by norm_num), zpow_natCast]
  push_cast
  ring

theorem nearest_of_onGrid (h : OnGrid bits q q) : nearest bits q = q := by
  obtain ⟨n, hn⟩ := h
  have hpos := two_zpow_pos (lastPlace bits q)
  have hquot : q / 2 ^ lastPlace bits q = n := (div_eq_iff hpos.ne').mpr hn
  rw [nearest, hquot, roundEven_intCast, ← hn]

/-- Rounding does not lead past a number of the grid. -/
theorem nearest_le_of_onGrid (h : OnGrid bits q s) (hle : q ≤ s) : nearest bits q ≤ s := by
  obtain ⟨n, rfl⟩ := h
  have hpos := two_zpow_pos (lastPlace bits q)
  have hround := roundEven_mono ((div_le_iff₀ hpos).mpr hle)
  rw [roundEven_intCast] at hround
  exact mul_le_mul_of_nonneg_right (by exact_mod_cast hround) hpos.le

theorem le_nearest_of_onGrid (h : OnGrid bits q s) (hle : s ≤ q) : s ≤ nearest bits q := by
  obtain ⟨n, rfl⟩ := h
  have hpos := two_zpow_pos (lastPlace bits q)
  have hround := roundEven_mono ((le_div_iff₀ hpos).mpr hle)
  rw [roundEven_intCast] at hround
  exact mul_le_mul_of_nonneg_right (by exact_mod_cast hround) hpos.le

/-- Numbers of one size are rounded on one grid. -/
theorem nearest_mono_of_place (hplace : lastPlace bits q = lastPlace bits r) (h : q ≤ r) :
    nearest bits q ≤ nearest bits r := by
  have hpos := two_zpow_pos (lastPlace bits r)
  have hround := roundEven_mono (div_le_div_of_nonneg_right h hpos.le)
  rw [nearest, nearest, hplace]
  exact mul_le_mul_of_nonneg_right (by exact_mod_cast hround) hpos.le

theorem abs_lt_of_log (q : ℚ) : |q| < 2 ^ (Int.log 2 |q| + 1) := by
  exact_mod_cast Int.lt_zpow_succ_log_self (b := 2) (by norm_num) |q|

theorem le_abs_of_log (h : q ≠ 0) : 2 ^ Int.log 2 |q| ≤ |q| := by
  exact_mod_cast Int.zpow_log_le_self (b := 2) (by norm_num) (abs_pos.mpr h)

/-- A power of two that lies on the grid of every number up to its size. -/
theorem onGrid_zpow (hbits : 0 < bits) {k : Int} (m : Int) (h : Int.log 2 |q| ≤ k) :
    OnGrid bits q (m * 2 ^ k) :=
  onGrid_of_le (by unfold lastPlace; omega)

theorem onGrid_zero (bits : Nat) (q : ℚ) : OnGrid bits q 0 :=
  ⟨0, by rw [Int.cast_zero, zero_mul]⟩

theorem nearest_mono_of_pos (hbits : 0 < bits) (hq : 0 < q) (h : q ≤ r) :
    nearest bits q ≤ nearest bits r := by
  have hr : 0 < r := hq.trans_le h
  rcases (Int.log_mono_right (b := 2) (abs_pos.mpr hq.ne')
    (abs_le_abs_of_nonneg hq.le h)).lt_or_eq with hlog | hlog
  · -- a power of two lies between them
    have hbetween : q ≤ ((1 : Int) : ℚ) * 2 ^ Int.log 2 |r| := by
      rw [Int.cast_one, one_mul]
      calc q = |q| := (abs_of_pos hq).symm
        _ ≤ 2 ^ (Int.log 2 |q| + 1) := (abs_lt_of_log q).le
        _ ≤ 2 ^ Int.log 2 |r| := zpow_le_zpow_right₀ (by norm_num) hlog
    have hbelow : ((1 : Int) : ℚ) * 2 ^ Int.log 2 |r| ≤ r := by
      rw [Int.cast_one, one_mul]
      exact (le_abs_of_log hr.ne').trans (abs_of_pos hr).le
    exact (nearest_le_of_onGrid (onGrid_zpow hbits 1 hlog.le) hbetween).trans
      (le_nearest_of_onGrid (onGrid_zpow hbits 1 le_rfl) hbelow)
  · exact nearest_mono_of_place (by rw [lastPlace, lastPlace, hlog]) h

theorem nearest_mono_of_neg (hbits : 0 < bits) (hr : r < 0) (h : q ≤ r) :
    nearest bits q ≤ nearest bits r := by
  have hq : q < 0 := h.trans_lt hr
  rcases (Int.log_mono_right (b := 2) (abs_pos.mpr hr.ne)
    (abs_le_abs_of_nonpos hr.le h)).lt_or_eq with hlog | hlog
  · have hbetween : ((-1 : Int) : ℚ) * 2 ^ Int.log 2 |q| ≤ r := by
      have hsize : |r| ≤ 2 ^ Int.log 2 |q| :=
        (abs_lt_of_log r).le.trans (zpow_le_zpow_right₀ (by norm_num) hlog)
      push_cast
      linarith [neg_abs_le r]
    have habove : q ≤ ((-1 : Int) : ℚ) * 2 ^ Int.log 2 |q| := by
      have hsize := le_abs_of_log hq.ne
      rw [abs_of_neg hq] at hsize ⊢
      push_cast
      linarith
    exact (nearest_le_of_onGrid (onGrid_zpow hbits (-1) le_rfl) habove).trans
      (le_nearest_of_onGrid (onGrid_zpow hbits (-1) hlog.le) hbetween)
  · exact nearest_mono_of_place (by rw [lastPlace, lastPlace, hlog]) h

/-- **Rounding is monotone.** -/
theorem nearest_mono (hbits : 0 < bits) : Monotone (nearest bits) := by
  intro q r h
  rcases lt_or_ge 0 q with hq | hq
  · exact nearest_mono_of_pos hbits hq h
  · rcases lt_or_ge r 0 with hr | hr
    · exact nearest_mono_of_neg hbits hr h
    · exact (nearest_le_of_onGrid (onGrid_zero bits q) hq).trans
        (le_nearest_of_onGrid (onGrid_zero bits r) hr)

/-- The numbers of the format are those that rounding leaves alone. -/
theorem nearest_fixed (hbits : 0 < bits) {n k : Int} (h : |n| ≤ 2 ^ bits) :
    nearest bits (n * 2 ^ k) = n * 2 ^ k := by
  rcases h.lt_or_eq with hlt | htop
  · by_cases hzero : n = 0
    · rw [hzero, Int.cast_zero, zero_mul]
      exact nearest_of_onGrid (onGrid_zero bits 0)
    · refine nearest_of_onGrid (onGrid_of_le ?_)
      have hpos := two_zpow_pos k
      have hne : (n : ℚ) * 2 ^ k ≠ 0 := mul_ne_zero (Int.cast_ne_zero.mpr hzero) hpos.ne'
      have hsize : |(n : ℚ) * 2 ^ k| < 2 ^ ((bits : Int) + k) := by
        rw [abs_mul, abs_of_pos hpos, zpow_add₀ (by norm_num), zpow_natCast]
        exact mul_lt_mul_of_pos_right (by exact_mod_cast hlt) hpos
      have hlog : Int.log 2 |(n : ℚ) * 2 ^ k| < bits + k := by
        refine (zpow_lt_zpow_iff_right₀ (show (1 : ℚ) < 2 by norm_num)).mp ?_
        exact (le_abs_of_log hne).trans_lt hsize
      unfold lastPlace
      omega
  · -- the largest number is a power of two
    have hpower : |(n : ℚ) * 2 ^ k| = 2 ^ ((bits : Int) + k) := by
      rw [abs_mul, abs_of_pos (two_zpow_pos k), zpow_add₀ (by norm_num), zpow_natCast]
      congr 1
      exact_mod_cast htop
    have hlog : Int.log 2 |(n : ℚ) * 2 ^ k| = bits + k := by
      rw [hpower]
      exact_mod_cast Int.log_zpow (b := 2) (R := ℚ) (by norm_num) (bits + k)
    rcases (abs_eq (two_zpow_pos _).le).mp hpower with hn | hn
    · have hgrid := onGrid_zpow hbits (q := (n : ℚ) * 2 ^ k) 1 hlog.le
      rw [Int.cast_one, one_mul, ← hn] at hgrid
      exact nearest_of_onGrid hgrid
    · have hgrid := onGrid_zpow hbits (q := (n : ℚ) * 2 ^ k) (-1) hlog.le
      rw [Int.cast_neg, Int.cast_one, neg_one_mul, ← hn] at hgrid
      exact nearest_of_onGrid hgrid

/-- What rounding answers is a number of the format. -/
theorem exists_nearest_eq (bits : Nat) (q : ℚ) :
    ∃ n k : Int, |n| ≤ 2 ^ bits ∧ nearest bits q = n * 2 ^ k := by
  refine ⟨roundEven (q / 2 ^ lastPlace bits q), lastPlace bits q, ?_, rfl⟩
  have hpos := two_zpow_pos (lastPlace bits q)
  have hsize : |q / 2 ^ lastPlace bits q| ≤ 2 ^ bits := by
    rw [abs_div, abs_of_pos hpos, div_le_iff₀ hpos, ← zpow_natCast, ← zpow_add₀ (by norm_num)]
    have hexponent : (bits : Int) + lastPlace bits q = Int.log 2 |q| + 1 := by
      unfold lastPlace
      omega
    rw [hexponent]
    exact (abs_lt_of_log q).le
  obtain ⟨hlow, hhigh⟩ := abs_le.mp hsize
  have hbelow := roundEven_mono (show ((-2 ^ bits : Int) : ℚ) ≤ q / 2 ^ lastPlace bits q by
    push_cast
    exact hlow)
  have habove := roundEven_mono (show q / 2 ^ lastPlace bits q ≤ ((2 ^ bits : Int) : ℚ) by
    push_cast
    exact hhigh)
  rw [roundEven_intCast] at hbelow habove
  exact abs_le.mpr ⟨hbelow, habove⟩

/-- The whole part of a number of the format is one too. -/
theorem exists_trunc_eq {n k : Int} (h : |n| ≤ 2 ^ bits) :
    ∃ m l : Int, |m| ≤ 2 ^ bits ∧ (trunc ((n : ℚ) * 2 ^ k) : ℚ) = m * 2 ^ l := by
  rcases le_or_gt 0 k with hk | hk
  · obtain ⟨d, rfl⟩ := Int.eq_ofNat_of_zero_le hk
    have hwhole : (n : ℚ) * 2 ^ (d : Int) = ((n * 2 ^ d : Int) : ℚ) := by
      rw [zpow_natCast]
      push_cast
      rfl
    refine ⟨n, d, h, ?_⟩
    rw [hwhole, trunc_intCast, ← hwhole]
  · refine ⟨trunc ((n : ℚ) * 2 ^ k), 0, ?_, by rw [zpow_zero, mul_one]⟩
    apply abs_trunc_le
    have hsmall : (2 : ℚ) ^ k ≤ 1 := zpow_le_one_of_nonpos₀ (by norm_num) hk.le
    rw [abs_mul, abs_of_pos (two_zpow_pos k)]
    calc |(n : ℚ)| * 2 ^ k ≤ |(n : ℚ)| * 1 :=
          mul_le_mul_of_nonneg_left hsmall (abs_nonneg _)
      _ ≤ ((2 ^ bits : Int) : ℚ) := by
          rw [mul_one]
          exact_mod_cast h

end Nearest

/-! ## What programs rely on -/

/-- Rounding to a format with `bits` significant bits, or to a finer one. -/
structure Rounding (bits : Nat) where
  round : ℚ → ℚ
  mono : Monotone round
  /-- A number of the format is not rounded. -/
  fixed : ∀ n k : Int, |n| ≤ 2 ^ bits → round (n * 2 ^ k) = n * 2 ^ k
  /-- A result is not rounded again. -/
  round_round : ∀ q, round (round q) = round q
  /-- And neither is its whole part. -/
  round_trunc : ∀ q, round (trunc (round q)) = trunc (round q)

namespace Rounding

/-- Exact arithmetic. -/
def exact (bits : Nat) : Rounding bits where
  round := id
  mono := monotone_id
  fixed := fun _ _ _ => rfl
  round_round := fun _ => rfl
  round_trunc := fun _ => rfl

/-- Rounding to nearest, ties to even. -/
def toNearest (bits : Nat) (hbits : 0 < bits) : Rounding bits where
  round := nearest bits
  mono := nearest_mono hbits
  fixed := fun _ _ h => nearest_fixed hbits h
  round_round := by
    intro q
    obtain ⟨n, k, hn, hq⟩ := exists_nearest_eq bits q
    rw [hq, nearest_fixed hbits hn]
  round_trunc := by
    intro q
    obtain ⟨n, k, hn, hq⟩ := exists_nearest_eq bits q
    obtain ⟨m, l, hm, htrunc⟩ := exists_trunc_eq (k := k) hn
    rw [hq, htrunc, nearest_fixed hbits hm]

variable {bits : Nat} (R : Rounding bits)

/-- A whole number with few bits is not rounded. -/
theorem round_intCast {n : Int} (h : |n| ≤ 2 ^ bits) : R.round n = n := by
  have hfixed := R.fixed n 0 h
  rwa [zpow_zero, mul_one] at hfixed

@[simp] theorem round_zero : R.round 0 = 0 := by
  have hfixed := R.round_intCast (n := 0) (by rw [abs_zero]; positivity)
  rwa [Int.cast_zero] at hfixed

/-- What is as far from zero as a number of the format stays so. -/
theorem le_abs_round {n k : Int} (hn : |n| ≤ 2 ^ bits) {q : ℚ} (h : (n : ℚ) * 2 ^ k ≤ |q|) :
    (n : ℚ) * 2 ^ k ≤ |R.round q| := by
  rcases le_abs.mp h with hpos | hneg
  · exact le_abs.mpr (.inl ((R.fixed n k hn).symm.le.trans (R.mono hpos)))
  · have hback := R.fixed (-n) k (by rwa [abs_neg])
    have hround := R.mono (show q ≤ ((-n : Int) : ℚ) * 2 ^ k by push_cast; linarith)
    rw [hback] at hround
    push_cast at hround
    exact le_abs.mpr (.inr (by linarith))

/-- A sum in the format.  A whole number is converted before it is added. -/
def sum (w : ℚ) (x : Int) : ℚ := R.round (w + R.round x)

theorem sum_mono {w w' : ℚ} (h : w ≤ w') (x : Int) : R.sum w x ≤ R.sum w' x :=
  R.mono (add_le_add_left h _)

theorem sum_zero (x : Int) : R.sum 0 x = R.round x := by
  rw [sum, zero_add, R.round_round]

end Rounding

end AirTraffic.Foundation
