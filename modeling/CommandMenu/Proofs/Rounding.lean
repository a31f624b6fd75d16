import CommandMenu.Number.Binary64
import Mathlib.Data.Int.Log
import Mathlib.Data.Rat.Cast.Order
import Mathlib.Data.Rat.Floor
import Mathlib.Tactic.FieldSimp
import Mathlib.Tactic.Linarith
import Mathlib.Tactic.Positivity
import Mathlib.Tactic.Ring

/-! # Rounding to the format

A binary64 number stands for an interval of rational numbers, those to which it is nearest.  Rounding
a quotient finds the number whose interval it lies in.

* `Binary64.InFormat` are the significands and exponents of the format, and
  `Binary64.isFormat_readDecimal` says that no other number is ever read.
* `Binary64.Rounds` says what the interval of a number is.
* `Binary64.ofRatio_of_rounds` says that a quotient is rounded to the number in whose interval it
  lies. -/

namespace CommandMenu

/-! ### Powers with whole exponents -/

theorem zpow_eq_div {b : ℚ} (hb : b ≠ 0) (z : ℤ) : b ^ z = b ^ z.toNat / b ^ (-z).toNat := by
  rw [eq_div_iff (pow_ne_zero _ hb), ← zpow_natCast, ← zpow_natCast, ← zpow_add₀ hb]
  congr 1
  omega

theorem cast_twoTo (n : ℕ) : (twoTo n : ℚ) = 2 ^ n := Nat.cast_pow 2 n

theorem cast_tenTo (n : ℕ) : (tenTo n : ℚ) = 10 ^ n := Nat.cast_pow 10 n

theorem zpow_two_eq_div (z : ℤ) : (2 : ℚ) ^ z = twoTo z.toNat / twoTo (-z).toNat := by
  rw [cast_twoTo, cast_twoTo, zpow_eq_div two_ne_zero]

theorem zpow_ten_eq_div (z : ℤ) : (10 : ℚ) ^ z = tenTo z.toNat / tenTo (-z).toNat := by
  rw [cast_tenTo, cast_tenTo, zpow_eq_div (by norm_num)]

theorem twoTo_pos (n : ℕ) : 0 < twoTo n := Nat.two_pow_pos n

theorem tenTo_pos (n : ℕ) : 0 < tenTo n := Nat.pow_pos (by decide)

namespace Binary64

/-! ### Parts of rounding -/

theorem log_eq_of_le_of_lt {q : ℚ} (hq : 0 < q) {z : ℤ} (hl : 2 ^ z ≤ q) (hu : q < 2 ^ (z + 1)) :
    Int.log 2 q = z := by
  have h1 := (Int.zpow_le_iff_le_log (b := 2) (by decide) hq).mp (by exact_mod_cast hl)
  have h2 := (Int.lt_zpow_iff_log_lt (b := 2) (by decide) hq).mp (by exact_mod_cast hu)
  omega

/-- A quotient is compared with a power of two within the natural numbers. -/
theorem lt_zpow_two_iff {num den : ℕ} (hd : 0 < den) (z : ℤ) :
    num * twoTo (-z).toNat < den * twoTo z.toNat ↔ (num / den : ℚ) < 2 ^ z := by
  have hden : (0 : ℚ) < den := by exact_mod_cast hd
  have hpow : (0 : ℚ) < twoTo (-z).toNat := by exact_mod_cast twoTo_pos _
  rw [zpow_two_eq_div, div_lt_div_iff₀ hden hpow, mul_comm (twoTo z.toNat : ℚ)]
  exact_mod_cast Iff.rfl

theorem floorLog_eq {num den : ℕ} (hn : 0 < num) (hd : 0 < den) :
    floorLog num den = Int.log 2 (num / den : ℚ) := by
  have hnum : (0 : ℚ) < num := by exact_mod_cast hn
  have hden : (0 : ℚ) < den := by exact_mod_cast hd
  have hn1 : ((2 : ℚ) ^ num.log2) ≤ num := by exact_mod_cast Nat.log2_self_le hn.ne'
  have hn2 : (num : ℚ) < 2 ^ (num.log2 + 1) := by exact_mod_cast Nat.lt_log2_self
  have hd1 : ((2 : ℚ) ^ den.log2) ≤ den := by exact_mod_cast Nat.log2_self_le hd.ne'
  have hd2 : (den : ℚ) < 2 ^ (den.log2 + 1) := by exact_mod_cast Nat.lt_log2_self
  -- the sizes of the parts leave two powers for the quotient
  have hlow : (2 : ℚ) ^ ((num.log2 : ℤ) - den.log2 - 1) ≤ num / den := by
    rw [show (num.log2 : ℤ) - den.log2 - 1 = (num.log2 : ℕ) - (den.log2 + 1 : ℕ) by omega,
      zpow_sub₀ two_ne_zero, zpow_natCast, zpow_natCast]
    exact div_le_div₀ hnum.le hn1 hden hd2.le
  have hhigh : (num / den : ℚ) < 2 ^ ((num.log2 : ℤ) - den.log2 + 1) := by
    rw [show (num.log2 : ℤ) - den.log2 + 1 = (num.log2 + 1 : ℕ) - (den.log2 : ℕ) by omega,
      zpow_sub₀ two_ne_zero, zpow_natCast, zpow_natCast]
    exact div_lt_div₀ hn2 hd1 (by positivity) (by positivity)
  have hq : (0 : ℚ) < num / den := by positivity
  unfold floorLog
  dsimp only
  split
  · next h =>
      rw [lt_zpow_two_iff hd] at h
      exact (log_eq_of_le_of_lt hq hlow (by rwa [sub_add_cancel])).symm
  · next h =>
      rw [lt_zpow_two_iff hd, not_lt] at h
      exact (log_eq_of_le_of_lt hq h hhigh).symm

/-- A whole number that is at most one half away, and less if it is odd, is the rounded one. -/
theorem roundDiv_eq {num den n : ℕ} (hd : 0 < den) (hl : (n : ℚ) - 1 / 2 ≤ num / den)
    (hu : (num / den : ℚ) ≤ n + 1 / 2)
    (ho : n % 2 = 1 → (n : ℚ) - 1 / 2 ≠ num / den ∧ (num / den : ℚ) ≠ n + 1 / 2) :
    roundDiv num den = n := by
  have hden : (0 : ℚ) < den := by exact_mod_cast hd
  have hl : 2 * n * den ≤ 2 * num + den := by
    rw [le_div_iff₀ hden] at hl
    exact_mod_cast (by linarith : (2 * n * den : ℚ) ≤ 2 * num + den)
  have hu : 2 * num ≤ (2 * n + 1) * den := by
    rw [div_le_iff₀ hden] at hu
    exact_mod_cast (by linarith : (2 * num : ℚ) ≤ (2 * n + 1) * den)
  have ho : n % 2 = 1 → 2 * n * den ≠ 2 * num + den ∧ 2 * num ≠ (2 * n + 1) * den := by
    refine fun h => ⟨fun he => (ho h).1 ?_, fun he => (ho h).2 ?_⟩
    · rw [eq_div_iff hden.ne']
      linarith [show (2 * n * den : ℚ) = 2 * num + den by exact_mod_cast he]
    · rw [div_eq_iff hden.ne']
      linarith [show (2 * num : ℚ) = (2 * n + 1) * den by exact_mod_cast he]
  have hdiv : den * (num / den) + num % den = num := Nat.div_add_mod num den
  have hmod : num % den < den := Nat.mod_lt _ hd
  unfold roundDiv
  dsimp only
  generalize num / den = q at hdiv ⊢
  generalize num % den = r at hdiv hmod ⊢
  subst hdiv
  have hqn : q ≤ n := by
    by_contra h
    have : (2 * n + 2) * den ≤ 2 * q * den := Nat.mul_le_mul_right _ (by omega)
    nlinarith
  have hnq : n ≤ q + 1 := by
    by_contra h
    have : (2 * q + 4) * den ≤ 2 * n * den := Nat.mul_le_mul_right _ (by omega)
    nlinarith
  obtain rfl | rfl : n = q ∨ n = q + 1 := by omega
  · have hr : 2 * r ≤ den := by nlinarith
    have hr' : n % 2 = 1 → 2 * r ≠ den := fun h he => (ho h).2 (by rw [← he]; ring)
    rw [if_neg]
    simp only [Bool.or_eq_true, decide_eq_true_eq, Bool.and_eq_true, beq_iff_eq, not_or, not_and]
    omega
  · have hr : den ≤ 2 * r := by nlinarith
    have hr' : (q + 1) % 2 = 1 → 2 * r ≠ den := fun h he => (ho h).1 (by rw [← he]; ring)
    rw [if_pos]
    simp only [Bool.or_eq_true, decide_eq_true_eq, Bool.and_eq_true, beq_iff_eq]
    omega

/-! ### Rounding a quotient -/

/-- A significand and an exponent of the format. -/
structure InFormat (m : ℕ) (e : ℤ) : Prop where
  lt : m < 2 ^ 53
  least : -1074 ≤ e
  greatest : e ≤ 971
  full : 2 ^ 52 ≤ m ∨ e = -1074

/-- How far below a number the border to its lower neighbour is, in units of its last place. -/
def lowerGap (m : ℕ) (e : ℤ) : ℚ := if m = 2 ^ 52 ∧ -1074 < e then 1 / 4 else 1 / 2

/-- The numbers to which `m · 2 ^ e` is nearest.  The borders to its neighbours belong to it if its
significand is even. -/
structure Rounds (m : ℕ) (e : ℤ) (q : ℚ) : Prop where
  lower : (m - lowerGap m e) * 2 ^ e ≤ q
  upper : q ≤ (m + 1 / 2) * 2 ^ e
  inside : m % 2 = 1 → (m - lowerGap m e) * 2 ^ e ≠ q ∧ q ≠ (m + 1 / 2) * 2 ^ e

theorem lowerGap_le (m : ℕ) (e : ℤ) : lowerGap m e ≤ 1 / 2 := by
  unfold lowerGap
  split <;> norm_num

theorem lowerGap_pos (m : ℕ) (e : ℤ) : 0 < lowerGap m e := by
  unfold lowerGap
  split <;> norm_num

theorem lowerGap_of_odd {m : ℕ} (h : m % 2 = 1) (e : ℤ) : lowerGap m e = 1 / 2 := by
  rw [lowerGap, if_neg]
  rintro ⟨rfl, -⟩
  simp at h

variable {m : ℕ} {e : ℤ} {q : ℚ}

theorem Rounds.pos (h : Rounds m e q) (hm : 0 < m) : 0 < q := by
  have hm1 : (1 : ℚ) ≤ m := by exact_mod_cast hm
  have hgap := lowerGap_le m e
  exact (mul_pos (by linarith) (zpow_pos two_pos e)).trans_le h.lower

theorem div_scaled (num den : ℕ) (e : ℤ) :
    ((num * twoTo (-e).toNat : ℕ) / (den * twoTo e.toNat : ℕ) : ℚ) = num / den / 2 ^ e := by
  rw [zpow_two_eq_div, div_div_div_eq, Nat.cast_mul, Nat.cast_mul]

/-- A quotient that is at most one half of a place away from a number, and less if its significand
is odd, is rounded to its significand. -/
theorem roundDiv_scaled {num den n : ℕ} (hd : 0 < den)
    (hl : ((n : ℚ) - 1 / 2) * 2 ^ e ≤ num / den) (hu : (num / den : ℚ) ≤ (n + 1 / 2) * 2 ^ e)
    (ho : n % 2 = 1 →
      ((n : ℚ) - 1 / 2) * 2 ^ e ≠ num / den ∧ (num / den : ℚ) ≠ (n + 1 / 2) * 2 ^ e) :
    roundDiv (num * twoTo (-e).toNat) (den * twoTo e.toNat) = n := by
  have hpow : (0 : ℚ) < 2 ^ e := zpow_pos two_pos e
  refine roundDiv_eq (Nat.mul_pos hd (twoTo_pos _)) ?_ ?_ fun h => ⟨?_, ?_⟩
  · rwa [div_scaled, le_div_iff₀ hpow]
  · rwa [div_scaled, div_le_iff₀ hpow]
  · rw [div_scaled, ne_eq, eq_div_iff hpow.ne']
    exact (ho h).1
  · rw [div_scaled, ne_eq, div_eq_iff hpow.ne']
    exact (ho h).2

/-- A quotient is rounded at its last place, and again at the next one if its significand is too
great. -/
theorem ofRatio_eq {num den : ℕ} (hn : 0 < num) (hd : 0 < den) {n : ℕ}
    (he : max (Int.log 2 (num / den : ℚ) - 52) (-1074) = e)
    (hr : roundDiv (num * twoTo (-e).toNat) (den * twoTo e.toNat) = n) (negative : Bool) :
    ofRatio negative num den =
      if n = 2 ^ 53 then if e + 1 > 971 then .infinite negative
        else .finite negative (2 ^ 52) (e + 1)
      else if e > 971 then .infinite negative else .finite negative n e := by
  unfold ofRatio
  rw [if_neg hn.ne', floorLog_eq hn hd]
  simp only [he, hr]
  by_cases h : n = 2 ^ 53
  · rw [if_pos h, show n = twoTo 53 from h, if_pos rfl]
    rfl
  · rw [if_neg h, if_neg (show ¬ n = twoTo 53 from h)]

/-- **A quotient is rounded to the number to which it is nearest.** -/
theorem ofRatio_of_rounds {num den : ℕ} (hd : 0 < den) (hf : InFormat m e) (hm : 0 < m)
    (h : Rounds m e (num / den)) (negative : Bool) :
    ofRatio negative num den = .finite negative m e := by
  have hq := h.pos hm
  have hn : 0 < num := by
    refine Nat.pos_of_ne_zero ?_
    rintro rfl
    simp at hq
  have hpow : (0 : ℚ) < 2 ^ e := zpow_pos two_pos e
  have hgreatest := hf.greatest
  by_cases hnormal : (2 : ℚ) ^ (52 + e) ≤ num / den ∨ e = -1074
  · -- the last place of the quotient is that of the number
    have hlt : Int.log 2 (num / den : ℚ) < 53 + e := by
      refine (Int.lt_zpow_iff_log_lt (by decide) hq).mp (h.upper.trans_lt ?_)
      have hm53 : (m : ℚ) + 1 ≤ 2 ^ 53 := by exact_mod_cast hf.lt
      rw [Nat.cast_ofNat, zpow_add₀ two_ne_zero]
      exact mul_lt_mul_of_pos_right (by norm_num at hm53 ⊢; linarith) hpow
    have hle : max (Int.log 2 (num / den : ℚ) - 52) (-1074) = e := by
      rcases hnormal with hnormal | rfl
      · have := (Int.zpow_le_iff_le_log (b := 2) (by decide) hq).mp (by exact_mod_cast hnormal)
        have := hf.least
        omega
      · omega
    have hround : roundDiv (num * twoTo (-e).toNat) (den * twoTo e.toNat) = m := by
      refine roundDiv_scaled hd (le_trans ?_ h.lower) h.upper fun ho => ?_
      · exact mul_le_mul_of_nonneg_right (sub_le_sub_left (lowerGap_le m e) _) hpow.le
      · have hi := h.inside ho
        rwa [lowerGap_of_odd ho] at hi
    rw [ofRatio_eq hn hd hle hround, if_neg (by have := hf.lt; omega), if_neg (by omega)]
  · -- the quotient lies just below a power of two, and its last place is one less
    push Not at hnormal
    obtain ⟨hbelow, he⟩ := hnormal
    have hleast := hf.least
    have hm52 : 2 ^ 52 ≤ m := hf.full.resolve_right he
    rw [zpow_add₀ two_ne_zero] at hbelow
    obtain rfl : m = 2 ^ 52 := by
      have hlow : (m - lowerGap m e : ℚ) < 2 ^ 52 :=
        lt_of_mul_lt_mul_right (h.lower.trans_lt hbelow) hpow.le
      have hgap := lowerGap_le m e
      have hlt : (m : ℚ) < 2 ^ 52 + 1 := by linarith
      have hlt : m < 2 ^ 52 + 1 := by exact_mod_cast hlt
      omega
    have hlower := h.lower
    rw [lowerGap, if_pos ⟨rfl, by omega⟩] at hlower
    have hhalf : (2 : ℚ) ^ e = 2 ^ (e - 1) * 2 := by
      rw [← zpow_add_one₀ two_ne_zero, sub_add_cancel]
    have hle : max (Int.log 2 (num / den : ℚ) - 52) (-1074) = e - 1 := by
      have hlog : Int.log 2 (num / den : ℚ) = 51 + e := by
        refine log_eq_of_le_of_lt hq ?_ ?_
        · rw [zpow_add₀ two_ne_zero]
          refine le_trans ?_ hlower
          exact mul_le_mul_of_nonneg_right (by norm_num) hpow.le
        · rwa [show (51 + e + 1 : ℤ) = 52 + e by ring, zpow_add₀ two_ne_zero]
      omega
    have hround : roundDiv (num * twoTo (-(e - 1)).toNat) (den * twoTo (e - 1).toNat) = 2 ^ 53 := by
      rw [hhalf] at hlower hbelow
      refine roundDiv_scaled hd (le_trans (le_of_eq ?_) hlower) (hbelow.le.trans ?_) (by simp)
      · push_cast
        ring
      · rw [mul_left_comm, mul_comm]
        refine mul_le_mul_of_nonneg_right ?_ (zpow_pos two_pos _).le
        norm_num
    rw [ofRatio_eq hn hd hle hround, if_pos rfl, if_neg (by omega), sub_add_cancel]

/-! ### Numbers of the format -/

/-- A number that is finite has a significand and an exponent of the format. -/
def IsFormat : Binary64 → Prop
  | .finite _ m e => InFormat m e
  | .infinite _ | .notANumber => True

theorem isFormat_zero (negative : Bool) : (zero negative).IsFormat :=
  ⟨by norm_num, le_rfl, by norm_num, .inr rfl⟩

theorem le_roundDiv {num den n : ℕ} (hd : 0 < den) (h : n * den ≤ num) : n ≤ roundDiv num den := by
  have hq : n ≤ num / den := (Nat.le_div_iff_mul_le hd).mpr h
  unfold roundDiv
  dsimp only
  split <;> omega

theorem roundDiv_le {num den n : ℕ} (hd : 0 < den) (h : num ≤ n * den) : roundDiv num den ≤ n := by
  have hdiv : den * (num / den) + num % den = num := Nat.div_add_mod num den
  have hmod : num % den < den := Nat.mod_lt _ hd
  unfold roundDiv
  dsimp only
  generalize num / den = q at hdiv ⊢
  generalize num % den = r at hdiv hmod ⊢
  have hqn : q ≤ n := by
    by_contra hn
    have : (n + 1) * den ≤ q * den := Nat.mul_le_mul_right _ (by omega)
    nlinarith
  split
  · next hup =>
      simp only [Bool.or_eq_true, decide_eq_true_eq, Bool.and_eq_true, beq_iff_eq] at hup
      rcases hqn.lt_or_eq with hlt | rfl
      · omega
      · have : r = 0 := by nlinarith
        omega
  · exact hqn

/-- **What is rounded is a number of the format.** -/
theorem isFormat_ofRatio (negative : Bool) (num : ℕ) {den : ℕ} (hd : 0 < den) :
    (ofRatio negative num den).IsFormat := by
  rcases Nat.eq_zero_or_pos num with rfl | hn
  · exact isFormat_zero negative
  have hq : (0 : ℚ) < num / den := div_pos (by exact_mod_cast hn) (by exact_mod_cast hd)
  obtain ⟨e, he⟩ : ∃ e, max (Int.log 2 (num / den : ℚ) - 52) (-1074) = e := ⟨_, rfl⟩
  obtain ⟨n, hr⟩ : ∃ n, roundDiv (num * twoTo (-e).toNat) (den * twoTo e.toNat) = n := ⟨_, rfl⟩
  have hpow : (0 : ℚ) < 2 ^ e := zpow_pos two_pos e
  have hd' : 0 < den * twoTo e.toNat := Nat.mul_pos hd (twoTo_pos _)
  have hden' : (0 : ℚ) < (den * twoTo e.toNat : ℕ) := by exact_mod_cast hd'
  have hscaled := div_scaled num den e
  have hn53 : n ≤ 2 ^ 53 := by
    have hlog : Int.log 2 (num / den : ℚ) + 1 ≤ 53 + e := by omega
    have hlt : (num / den : ℚ) < 2 ^ (53 + e) := by
      have hsucc := Int.lt_zpow_succ_log_self (b := 2) (by decide) (num / den : ℚ)
      rw [Nat.cast_ofNat] at hsucc
      exact hsucc.trans_le (zpow_le_zpow_right₀ one_le_two hlog)
    rw [zpow_add₀ two_ne_zero, ← div_lt_iff₀ hpow, ← hscaled, div_lt_iff₀ hden'] at hlt
    exact hr ▸ roundDiv_le hd' (by exact_mod_cast hlt.le)
  have hn52 : -1074 < e → 2 ^ 52 ≤ n := by
    intro hnormal
    have hlog : 52 + e = Int.log 2 (num / den : ℚ) := by omega
    have hle : (2 : ℚ) ^ (52 + e) ≤ num / den := by
      rw [hlog]
      exact_mod_cast Int.zpow_log_le_self (b := 2) (by decide) hq
    rw [zpow_add₀ two_ne_zero, ← le_div_iff₀ hpow, ← hscaled, le_div_iff₀ hden'] at hle
    exact hr ▸ le_roundDiv hd' (by exact_mod_cast hle)
  rw [ofRatio_eq hn hd he hr]
  split
  · split
    · trivial
    · exact ⟨by norm_num, by omega, by omega, .inl le_rfl⟩
  · split
    · trivial
    · exact ⟨by omega, by omega, by omega, by omega⟩

theorem isFormat_ofDecimal (negative : Bool) (digits : ℕ) (exponent : ℤ) :
    (ofDecimal negative digits exponent).IsFormat := by
  unfold ofDecimal
  dsimp only
  split
  · exact isFormat_zero negative
  · split
    · trivial
    · split
      · exact isFormat_zero negative
      · exact isFormat_ofRatio negative _ (tenTo_pos _)

theorem isFormat_readUnsigned {negative : Bool} {cs : List Char} {x : Binary64}
    (h : readUnsigned negative cs = some x) : x.IsFormat := by
  simp only [readUnsigned] at h
  split at h
  all_goals
    split at h
    · cases h
    split at h
    · exact Option.some.inj h ▸ isFormat_ofDecimal ..
    · obtain ⟨k, -, rfl⟩ := Option.map_eq_some_iff.mp h
      exact isFormat_ofDecimal ..
    · obtain ⟨k, -, rfl⟩ := Option.map_eq_some_iff.mp h
      exact isFormat_ofDecimal ..
    · cases h

/-- What is read is a number of the format. -/
theorem isFormat_readDecimal {cs : List Char} {x : Binary64} (h : readDecimal cs = some x) :
    x.IsFormat := by
  unfold readDecimal at h
  split at h <;> exact isFormat_readUnsigned h

end Binary64
end CommandMenu
