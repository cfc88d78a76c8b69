/-
  Foundation/CString.lean --- NUL-terminated strings in fixed-size buffers.

  WHAT THIS FILE IS FOR.  `strnlen`, `strncmp` and `strncpy` as the C library
  defines them, over byte lists; a byte past the end of a list reads as NUL.
  The one law the layers above need is that comparing against a NUL-free prefix
  is comparing the bytes of that prefix (`strncmp_eq_zero_iff_take`), and that
  padding with NULs loses nothing but the length (`nulPad_injective`).
-/
import AirTraffic.Foundation.Region

set_option autoImplicit false

namespace AirTraffic.Foundation

/-- `strnlen`: the bytes before the first NUL, at most `n`. -/
def strnlen : Bytes → Nat → Nat
  | _, 0 => 0
  | [], _ + 1 => 0
  | c :: s, n + 1 => if c = 0 then 0 else strnlen s n + 1

/-- `strncmp`: the difference of the first bytes that differ, stopping after
`n` bytes or after a NUL common to both. -/
def strncmp : Bytes → Bytes → Nat → Int
  | _, _, 0 => 0
  | a, b, n + 1 =>
      if a.headD 0 ≠ b.headD 0 then
        ((a.headD 0).toNat : Int) - ((b.headD 0).toNat : Int)
      else if a.headD 0 = 0 then 0
      else strncmp a.tail b.tail n

/-- `strncpy`: the string `src`, cut or padded with NULs to `n` bytes, over the
front of `dst`. -/
def strncpy (dst src : Bytes) (n : Nat) : Bytes :=
  writeAt dst 0 (src.take (strnlen src n) ++ zeros (n - strnlen src n))

/-- No byte of the string is NUL. -/
def NulFree (s : Bytes) : Prop := ∀ c ∈ s, c ≠ 0

instance (s : Bytes) : Decidable (NulFree s) :=
  inferInstanceAs (Decidable (∀ c ∈ s, c ≠ 0))

/-- A string padded with NULs to `width` bytes. -/
def nulPad (width : Nat) (s : Bytes) : Bytes := s ++ zeros (width - s.length)

/-! ## Length -/

theorem strnlen_le (s : Bytes) (n : Nat) : strnlen s n ≤ n := by
  induction s, n using strnlen.induct with
  | case1 s => simp [strnlen]
  | case2 n => simp [strnlen]
  | case3 s n => simp [strnlen]
  | case4 c s n hc ih => simp [strnlen, hc, ih]

theorem strnlen_le_length (s : Bytes) (n : Nat) : strnlen s n ≤ s.length := by
  induction s, n using strnlen.induct with
  | case1 s => simp [strnlen]
  | case2 n => simp [strnlen]
  | case3 s n => simp [strnlen]
  | case4 c s n hc ih => simp [strnlen, hc, ih]

theorem nulFree_take_strnlen (s : Bytes) (n : Nat) :
    NulFree (s.take (strnlen s n)) := by
  induction s, n using strnlen.induct with
  | case1 s => simp [strnlen, NulFree]
  | case2 n => simp [strnlen, NulFree]
  | case3 s n => simp [strnlen, NulFree]
  | case4 c s n hc ih =>
      rw [strnlen, if_neg hc, List.take_succ_cons]
      intro d hd
      rcases List.mem_cons.mp hd with rfl | hd
      · exact hc
      · exact ih d hd

theorem length_take_strnlen (s : Bytes) (n : Nat) :
    (s.take (strnlen s n)).length = strnlen s n := by
  rw [List.length_take, Nat.min_eq_left (strnlen_le_length s n)]

/-- A NUL-free prefix is counted in full, and the count goes on behind it. -/
theorem strnlen_append {s : Bytes} (h : NulFree s) (t : Bytes) (n : Nat) :
    strnlen (s ++ t) (s.length + n) = s.length + strnlen t n := by
  induction s with
  | nil => simp
  | cons c s ih =>
      have hc : c ≠ 0 := h c List.mem_cons_self
      have hs : NulFree s := fun d hd => h d (List.mem_cons_of_mem c hd)
      have hsucc : (c :: s).length + n = (s.length + n) + 1 := by
        rw [List.length_cons]; omega
      rw [hsucc, List.cons_append, strnlen, if_neg hc, ih hs, List.length_cons]
      omega

/-- What stands behind a NUL is not counted. -/
theorem strnlen_append_nul (t : Bytes) {s : Bytes} : ∀ {n : Nat}, s.length ≤ n →
    strnlen (s ++ 0 :: t) n = strnlen s n := by
  induction s with
  | nil =>
      intro n _
      cases n with
      | zero => rfl
      | succ n => rfl
  | cons c s ih =>
      intro n h
      rw [List.length_cons] at h
      obtain ⟨n, rfl⟩ : ∃ m, n = m + 1 := ⟨n - 1, by omega⟩
      rw [List.cons_append, strnlen, strnlen, ih (by omega)]

/-- Neither is what stands behind a string that has a NUL. -/
theorem strnlen_append_of_lt {s : Bytes} (h : strnlen s s.length < s.length) (t : Bytes) {n : Nat}
    (hn : s.length ≤ n) : strnlen (s ++ t) n = strnlen s s.length := by
  induction s generalizing n with
  | nil => exact absurd h (Nat.lt_irrefl 0)
  | cons c s ih =>
      obtain ⟨n, rfl⟩ : ∃ m, n = m + 1 := ⟨n - 1, by rw [List.length_cons] at hn; omega⟩
      rw [List.length_cons] at h hn
      rw [List.length_cons, List.cons_append, strnlen, strnlen]
      rw [strnlen] at h
      split
      · rfl
      · rename_i hc
        rw [if_neg hc] at h
        rw [ih (by omega) (by omega)]

/-- A string that is counted in full has no NUL. -/
theorem nulFree_of_strnlen {s : Bytes} (h : strnlen s s.length = s.length) : NulFree s := by
  have hfree := nulFree_take_strnlen s s.length
  rwa [h, List.take_length] at hfree

/-- A prefix without NUL is counted. -/
theorem le_strnlen_of_nulFree {s : Bytes} {k n : Nat} (hfree : NulFree (s.take k))
    (hlen : k ≤ s.length) (hk : k ≤ n) : k ≤ strnlen s n := by
  have happend := strnlen_append hfree (s.drop k) (n - k)
  rw [List.take_append_drop, List.length_take, Nat.min_eq_left hlen,
    Nat.add_sub_cancel' hk] at happend
  omega

/-! ## Comparison -/

/-- Against a prefix without NUL, `strncmp` compares exactly its bytes. -/
theorem strncmp_eq_zero_iff_take {n : Nat} (a b : Bytes) (hlen : n ≤ b.length)
    (hfree : NulFree (b.take n)) :
    strncmp a b n = 0 ↔ a.take n = b.take n := by
  induction n generalizing a b with
  | zero => simp [strncmp]
  | succ n ih =>
      cases b with
      | nil => simp at hlen
      | cons y b =>
          have hy : y ≠ 0 := hfree y (by simp)
          have hb : NulFree (b.take n) :=
            fun d hd => hfree d (by simp [hd])
          have hn : n ≤ b.length := by simpa using hlen
          cases a with
          | nil =>
              have hdiff : ¬ (0 : UInt8) = y := fun h => hy h.symm
              have hpos : y.toNat ≠ 0 := fun h => hy (UInt8.toNat_inj.mp h)
              simp only [strncmp, List.headD_nil, List.headD_cons, ne_eq, hdiff,
                not_false_eq_true, if_true, List.take_nil, List.take_succ_cons]
              constructor
              · intro h
                have : y.toNat = 0 := by simpa using h
                exact absurd this hpos
              · intro h
                simp at h
          | cons x a =>
              by_cases hxy : x = y
              · subst hxy
                simp [strncmp, hy, ih a b hn hb]
              · have hnat : (x.toNat : Int) - (y.toNat : Int) ≠ 0 := by
                  intro h
                  apply hxy
                  apply UInt8.toNat_inj.mp
                  omega
                simp [strncmp, hxy, hnat]

/-- The string in front of the first NUL, byte by byte. -/
theorem take_strnlen_succ (s : Bytes) (n : Nat) :
    s.take (strnlen s (n + 1)) =
      if s.headD 0 = 0 then [] else s.headD 0 :: s.tail.take (strnlen s.tail n) := by
  cases s with
  | nil => simp
  | cons c s =>
      rw [List.headD_cons, strnlen]
      split
      · rfl
      · rfl

/-- `strncmp` compares the strings in front of the first NULs. -/
theorem strncmp_eq_zero_iff (a b : Bytes) (n : Nat) :
    strncmp a b n = 0 ↔ a.take (strnlen a n) = b.take (strnlen b n) := by
  induction n generalizing a b with
  | zero => simp [strncmp, strnlen]
  | succ n ih =>
      rw [take_strnlen_succ, take_strnlen_succ, strncmp]
      split
      next hne =>
        have hnat : (a.headD 0).toNat ≠ (b.headD 0).toNat := fun h => hne (UInt8.toNat_inj.mp h)
        refine iff_of_false (by omega) ?_
        split <;> split
        next hzero hzero' => exact absurd (hzero.trans hzero'.symm) hne
        next => simp
        next => simp
        next => exact fun heq => hne (List.cons.inj heq).1
      next heq =>
        rw [Decidable.not_not] at heq
        rw [heq]
        split
        · simp
        · rw [ih, List.cons.injEq]
          simp

/-! ## Copying and padding -/

/-- Copying a string without NUL over a zeroed buffer pads it with NULs. -/
theorem strncpy_zeros {n : Nat} (width : Nat) (src : Bytes) (hn : n ≤ src.length)
    (hfree : NulFree (src.take n)) :
    strncpy (zeros width) src n = nulPad width (src.take n) := by
  have hlen : strnlen src n = n := by
    have happ := strnlen_append hfree (src.drop n) 0
    rw [List.take_append_drop, List.length_take, Nat.min_eq_left hn] at happ
    simpa [strnlen] using happ
  have htake : (src.take n).length = n := by simp [hn]
  rw [strncpy, hlen, Nat.sub_self]
  simp [writeAt, zeros, nulPad, htake]

/-- A padded string is as long as it was. -/
theorem strnlen_nulPad {width : Nat} {s : Bytes} (hs : NulFree s) (hsw : s.length ≤ width) :
    strnlen (nulPad width s) width = s.length := by
  obtain ⟨k, hk⟩ := Nat.exists_eq_add_of_le hsw
  rw [nulPad, hk, strnlen_append hs, Nat.add_sub_cancel_left]
  cases k with
  | zero => simp [strnlen]
  | succ k => simp [zeros, List.replicate_succ, strnlen]

/-- Padding is injective on strings without NUL. -/
theorem nulPad_injective {width : Nat} {s t : Bytes} (hs : NulFree s)
    (ht : NulFree t) (hsw : s.length ≤ width) (htw : t.length ≤ width)
    (h : nulPad width s = nulPad width t) : s = t := by
  have heq : s.length = t.length := by
    rw [← strnlen_nulPad hs hsw, ← strnlen_nulPad ht htw, h]
  have hpre := congrArg (List.take s.length) h
  rw [nulPad, nulPad, List.take_left' rfl, heq, List.take_left' rfl] at hpre
  exact hpre

end AirTraffic.Foundation
