import CommandMenu.Number.Shortest
import CommandMenu.Proofs.Rounding
import Mathlib.Data.Nat.Cast.Order.Field

/-! # The shortest decimal of a number

The search for the shortest decimal ends with one that lies in the interval of the number, so that
the decimal is read as the number again.

* `Decimal.value` is the number that a decimal denotes.
* `Binary64.rounds_shortest` says that the shortest decimal lies in the interval.
* `Binary64.ofDecimal_of_rounds` says that every decimal of the interval is read as the number. -/

namespace CommandMenu

/-! ### Powers of two and of ten -/

/-- The factor by which sizes are converted is good enough for all powers that occur. -/
theorem ten_pow_le_two_pow : ∀ n ∈ List.range 2400,
    10 ^ (n * 30103 / 100000) ≤ 2 ^ n ∧ 2 ^ n < 10 ^ (n * 30103 / 100000 + 1) := by
  decide +kernel

theorem ten_zpow_le_two_zpow {t : ℤ} (hl : -2400 < t) (hu : t < 2400) :
    (10 : ℚ) ^ (t * 30103 / 100000 - 1) ≤ 2 ^ t ∧ (2 : ℚ) ^ t ≤ 10 ^ (t * 30103 / 100000 + 1) := by
  obtain ⟨n, hn⟩ : ∃ n : ℕ, n = t.natAbs := ⟨_, rfl⟩
  obtain ⟨hle, hlt⟩ := ten_pow_le_two_pow n (List.mem_range.mpr (by omega))
  have hle : (10 : ℚ) ^ (n * 30103 / 100000) ≤ 2 ^ n := by exact_mod_cast hle
  have hlt : (2 : ℚ) ^ n < 10 ^ (n * 30103 / 100000 + 1) := by exact_mod_cast hlt
  have hmono {i j : ℤ} (h : i ≤ j) : (10 : ℚ) ^ i ≤ 10 ^ j := zpow_le_zpow_right₀ (by norm_num) h
  rcases Int.natAbs_eq t with ht | ht
  · rw [← hn] at ht
    subst ht
    rw [zpow_natCast]
    constructor
    · refine le_trans ?_ hle
      rw [← zpow_natCast]
      exact hmono (by omega)
    · refine hlt.le.trans ?_
      rw [← zpow_natCast]
      exact hmono (by omega)
  · rw [← hn] at ht
    subst ht
    rw [zpow_neg, zpow_natCast]
    constructor
    · refine le_trans ?_ (inv_anti₀ (by positivity) hlt.le)
      rw [← zpow_natCast, ← zpow_neg]
      exact hmono (by omega)
    · refine (inv_anti₀ (by positivity) hle).trans ?_
      rw [← zpow_natCast, ← zpow_neg]
      exact hmono (by omega)

namespace Binary64

/-- The number that a decimal denotes. -/
def Decimal.value (d : Decimal) : ℚ := d.digits * 10 ^ d.exponent

/-! ### The interval of a number -/

variable {m : ℕ} {e : ℤ}

theorem Decimal.le_value_iff (d : Decimal) (border : ℕ) {den : ℕ} (hd : 0 < den) :
    border * tenTo (-d.exponent).toNat ≤ d.digits * tenTo d.exponent.toNat * den ↔
      (border / den : ℚ) ≤ d.value := by
  have hden : (0 : ℚ) < den := by exact_mod_cast hd
  have hten : (0 : ℚ) < tenTo (-d.exponent).toNat := by exact_mod_cast tenTo_pos _
  rw [value, zpow_ten_eq_div, ← mul_div_assoc, div_le_div_iff₀ hden hten]
  exact_mod_cast Iff.rfl

theorem Decimal.value_le_iff (d : Decimal) (border : ℕ) {den : ℕ} (hd : 0 < den) :
    d.digits * tenTo d.exponent.toNat * den ≤ border * tenTo (-d.exponent).toNat ↔
      d.value ≤ (border / den : ℚ) := by
  have hden : (0 : ℚ) < den := by exact_mod_cast hd
  have hten : (0 : ℚ) < tenTo (-d.exponent).toNat := by exact_mod_cast tenTo_pos _
  rw [value, zpow_ten_eq_div, ← mul_div_assoc, div_le_div_iff₀ hten hden]
  exact_mod_cast Iff.rfl

theorem interval_den_pos : 0 < (interval m e).den := Nat.mul_pos (by decide) (twoTo_pos _)

theorem quarters_div (quarters : ℕ) (e : ℤ) :
    ((quarters * twoTo e.toNat : ℕ) / (4 * twoTo (-e).toNat : ℕ) : ℚ) = quarters / 4 * 2 ^ e := by
  rw [zpow_two_eq_div, div_mul_div_comm, Nat.cast_mul, Nat.cast_mul, Nat.cast_ofNat]

theorem interval_low (hm : 0 < m) :
    ((interval m e).low / (interval m e).den : ℚ) = (m - lowerGap m e) * 2 ^ e := by
  have hlow : (interval m e).low =
      (4 * m - if m = 2 ^ 52 ∧ -1074 < e then 1 else 2) * twoTo e.toNat := by
    simp [interval, twoTo]
  rw [hlow, interval, quarters_div, lowerGap]
  congr 1
  split
  · rw [Nat.cast_sub (by omega)]
    push_cast
    ring
  · rw [Nat.cast_sub (by omega)]
    push_cast
    ring

theorem interval_high :
    ((interval m e).high / (interval m e).den : ℚ) = (m + 1 / 2) * 2 ^ e := by
  show (((4 * m + 2) * twoTo e.toNat : ℕ) / (4 * twoTo (-e).toNat : ℕ) : ℚ) = _
  rw [quarters_div]
  push_cast
  ring

theorem interval_value : ((interval m e).value / (interval m e).den : ℚ) = m * 2 ^ e := by
  show ((4 * m * twoTo e.toNat : ℕ) / (4 * twoTo (-e).toNat : ℕ) : ℚ) = _
  rw [quarters_div]
  push_cast
  ring

/-- A decimal lies in the interval of a number exactly if the number is nearest to it. -/
theorem holds_iff (hm : 0 < m) {d : Decimal} :
    (interval m e).holds d = true ↔ Rounds m e d.value := by
  have hd : 0 < (interval m e).den := interval_den_pos
  have hclosed : (interval m e).closed = true ↔ m % 2 = 0 := beq_iff_eq
  have hl := d.le_value_iff (interval m e).low hd
  have hu := d.value_le_iff (interval m e).high hd
  have hl' := d.value_le_iff (interval m e).low hd
  have hu' := d.le_value_iff (interval m e).high hd
  rw [interval_low hm] at hl hl'
  rw [interval_high] at hu hu'
  unfold Interval.holds
  dsimp only
  split
  · next hc =>
      have he := hclosed.mp hc
      rw [Bool.and_eq_true, decide_eq_true_iff, decide_eq_true_iff, hl, hu]
      exact ⟨fun h => ⟨h.1, h.2, by omega⟩, fun h => ⟨h.lower, h.upper⟩⟩
  · next hc =>
      have ho : m % 2 = 1 := by
        rw [hclosed] at hc
        omega
      rw [Bool.and_eq_true, decide_eq_true_iff, decide_eq_true_iff, ← not_le, ← not_le, hl', hu',
        not_le, not_le]
      exact ⟨fun h => ⟨h.1.le, h.2.le, fun _ => ⟨h.1.ne, h.2.ne⟩⟩,
        fun h => ⟨lt_of_le_of_ne h.lower (h.inside ho).1, lt_of_le_of_ne h.upper (h.inside ho).2⟩⟩

/-! ### The search -/

namespace Interval

variable {i : Interval} {k : ℤ}

theorem holds_of_pick? {d : Decimal} (h : i.pick? k = some d) :
    i.holds d = true ∧ d.exponent = k := by
  unfold pick? at h
  dsimp only at h
  split at h
  · next hb ha =>
      rw [Bool.and_eq_true] at hb
      split at h
      · exact Option.some.inj h ▸ ⟨hb.1, rfl⟩
      · exact Option.some.inj h ▸ ⟨ha, rfl⟩
  · next hb ha =>
      rw [Bool.and_eq_true] at hb
      exact Option.some.inj h ▸ ⟨hb.1, rfl⟩
  · next ha => exact Option.some.inj h ▸ ⟨ha, rfl⟩
  · cases h

theorem isSome_pick? (h : i.holds ⟨i.value * tenTo (-k).toNat / (i.den * tenTo k.toNat) + 1, k⟩ = true) :
    (i.pick? k).isSome = true := by
  unfold pick?
  dsimp only
  rw [h]
  split
  · rfl
  · next hh => cases hh
  · rfl
  · next hh => cases hh

theorem le_exponent_search (i : Interval) (n : ℕ) : ∀ k : ℤ, k - n ≤ (i.search n k).exponent := by
  induction n with
  | zero => exact fun k => by simp [search]
  | succ n ih =>
      intro k
      rw [search]
      cases hp : i.pick? k with
      | none =>
          have := ih (k - 1)
          rw [Option.getD_none]
          omega
      | some d =>
          rw [Option.getD_some, (holds_of_pick? hp).2]
          omega

theorem holds_search (n : ℕ) : ∀ {k : ℤ}, (∃ j : ℕ, j < n ∧ (i.pick? (k - j)).isSome = true) →
    i.holds (i.search n k) = true := by
  induction n with
  | zero => exact fun ⟨j, hj, _⟩ => absurd hj (Nat.not_lt_zero j)
  | succ n ih =>
      rintro k ⟨j, hj, hs⟩
      rw [search]
      cases hp : i.pick? k with
      | some d => exact (holds_of_pick? hp).1
      | none =>
          cases j with
          | zero => simp [hp] at hs
          | succ j => exact ih ⟨j, by omega, by rwa [sub_sub, add_comm 1, ← Nat.cast_succ]⟩

end Interval

theorem Decimal.value_strip (n : ℕ) : ∀ d : Decimal, (d.strip n).value = d.value := by
  induction n with
  | zero => exact fun _ => rfl
  | succ n ih =>
      intro d
      rw [strip]
      split
      · next h =>
          rw [Bool.and_eq_true, beq_iff_eq] at h
          have hd : d.digits = d.digits / 10 * 10 := by omega
          rw [ih, value, value, hd, Nat.mul_div_cancel _ (by decide), zpow_add_one₀ (by norm_num)]
          push_cast
          ring
      · rfl

theorem Decimal.le_exponent_strip (n : ℕ) : ∀ d : Decimal, d.exponent ≤ (d.strip n).exponent := by
  induction n with
  | zero => exact fun _ => le_rfl
  | succ n ih =>
      intro d
      rw [strip]
      split
      · have := ih ⟨d.digits / 10, d.exponent + 1⟩
        simp only at this
        omega
      · rfl

/-! ### The shortest decimal -/

/-- At an exponent that is small against the last place, a decimal of the interval is next to the
number. -/
theorem isSome_pick?_of_small (hm : 0 < m) {k : ℤ} (hk : (10 : ℚ) ^ k < 1 / 2 * 2 ^ e) :
    ((interval m e).pick? k).isSome = true := by
  have hten : (0 : ℚ) < 10 ^ k := zpow_pos (by norm_num) k
  have hpow : (0 : ℚ) < 2 ^ e := zpow_pos two_pos e
  have hden : 0 < (interval m e).den * tenTo k.toNat := Nat.mul_pos interval_den_pos (tenTo_pos _)
  have hscaled : (((interval m e).value * tenTo (-k).toNat : ℕ) /
      ((interval m e).den * tenTo k.toNat : ℕ) : ℚ) = m * 2 ^ e / 10 ^ k := by
    rw [zpow_ten_eq_div, ← interval_value, div_div_div_eq, Nat.cast_mul, Nat.cast_mul]
  refine Interval.isSome_pick? ((holds_iff hm).mpr ?_)
  generalize (interval m e).value * tenTo (-k).toNat = a at hscaled ⊢
  generalize (interval m e).den * tenTo k.toNat = b at hscaled hden ⊢
  -- the decimal above the number is less than half a place away from it
  have hfloor : ((a / b : ℕ) : ℚ) * 10 ^ k ≤ m * 2 ^ e := by
    rw [← le_div_iff₀ hten, ← hscaled]
    exact Nat.cast_div_le
  have hceil : (m * 2 ^ e : ℚ) < ((a / b : ℕ) + 1) * 10 ^ k := by
    rw [← div_lt_iff₀ hten, ← hscaled, div_lt_iff₀ (by exact_mod_cast hden)]
    exact_mod_cast (Nat.lt_mul_div_succ a hden).trans_eq (Nat.mul_comm _ _)
  have hvalue : Decimal.value ⟨a / b + 1, k⟩ = ((a / b : ℕ) + 1) * 10 ^ k := by
    rw [Decimal.value, Nat.cast_succ]
  have hlow : (m - lowerGap m e) * 2 ^ e < ((a / b : ℕ) + 1) * 10 ^ k := by
    refine lt_of_le_of_lt (mul_le_mul_of_nonneg_right ?_ hpow.le) hceil
    exact sub_le_self _ (lowerGap_pos m e).le
  have hhigh : (((a / b : ℕ) + 1) * 10 ^ k : ℚ) < (m + 1 / 2) * 2 ^ e := by linarith
  rw [hvalue]
  exact ⟨hlow.le, hhigh.le, fun _ => ⟨hlow.ne, hhigh.ne⟩⟩

/-- **The shortest decimal of a number lies in its interval.** -/
theorem rounds_shortest (hf : InFormat m e) (hm : 0 < m) :
    Rounds m e (shortest m e).value ∧ -400 ≤ (shortest m e).exponent := by
  have hlog : m.log2 ≤ 52 := Nat.lt_succ_iff.mp ((Nat.log2_lt hm.ne').mpr hf.lt)
  have hleast := hf.least
  have hgreatest := hf.greatest
  obtain ⟨t, ht⟩ : ∃ t : ℤ, (m.log2 : ℤ) + e = t := ⟨_, rfl⟩
  have hsize := (ten_zpow_le_two_zpow (t := t) (by omega) (by omega)).1
  unfold shortest
  rw [if_neg hm.ne', ht]
  dsimp only
  constructor
  · rw [Decimal.value_strip, ← holds_iff hm]
    refine Interval.holds_search 22 ⟨21, by decide, isSome_pick?_of_small hm ?_⟩
    have hpow : (2 : ℚ) ^ t ≤ 2 ^ 52 * 2 ^ e := by
      rw [← ht, zpow_add₀ two_ne_zero, zpow_natCast]
      refine mul_le_mul_of_nonneg_right ?_ (zpow_pos two_pos e).le
      exact pow_le_pow_right₀ one_le_two hlog
    calc (10 : ℚ) ^ (t * 30103 / 100000 + 2 - (21 : ℕ))
        = 10 ^ (t * 30103 / 100000 - 1) * 10 ^ (-18 : ℤ) := by
          rw [← zpow_add₀ (by norm_num)]
          congr 1
          omega
      _ ≤ 2 ^ 52 * 2 ^ e * 10 ^ (-18 : ℤ) :=
          mul_le_mul_of_nonneg_right (hsize.trans hpow) (by norm_num)
      _ = 2 ^ 52 * 10 ^ (-18 : ℤ) * 2 ^ e := by ring
      _ < 1 / 2 * 2 ^ e := mul_lt_mul_of_pos_right (by norm_num) (zpow_pos two_pos e)
  · have h1 := Interval.le_exponent_search (interval m e) 22 (t * 30103 / 100000 + 2)
    have h2 := Decimal.le_exponent_strip 25
      ((interval m e).search 22 (t * 30103 / 100000 + 2))
    omega

/-! ### Reading a decimal -/

theorem Rounds.bounds {q : ℚ} (h : Rounds m e q) (hf : InFormat m e) (hm : 0 < m) :
    (10 : ℚ) ^ (-325 : ℤ) ≤ q ∧ q < 10 ^ (309 : ℤ) := by
  have hpow : (0 : ℚ) < 2 ^ e := zpow_pos two_pos e
  have hleast : (2 : ℚ) ^ (-1074 : ℤ) ≤ 2 ^ e := zpow_le_zpow_right₀ one_le_two hf.least
  have hgreatest : (2 : ℚ) ^ e ≤ 2 ^ (971 : ℤ) := zpow_le_zpow_right₀ one_le_two hf.greatest
  constructor
  · have hm1 : (1 : ℚ) ≤ m := by exact_mod_cast hm
    have hgap := lowerGap_le m e
    calc (10 : ℚ) ^ (-325 : ℤ) ≤ 2 ^ (-1075 : ℤ) :=
          (ten_zpow_le_two_zpow (t := -1075) (by decide) (by decide)).1
      _ = 1 / 2 * 2 ^ (-1074 : ℤ) := by
          rw [show (-1075 : ℤ) = -1 + -1074 by decide, zpow_add₀ two_ne_zero]
          norm_num
      _ ≤ (m - lowerGap m e) * 2 ^ e :=
          mul_le_mul (by linarith) hleast (zpow_pos two_pos _).le (by linarith)
      _ ≤ q := h.lower
  · have hm53 : (m : ℚ) + 1 ≤ 2 ^ 53 := by exact_mod_cast hf.lt
    calc q ≤ (m + 1 / 2) * 2 ^ e := h.upper
      _ < 2 ^ 53 * 2 ^ e := mul_lt_mul_of_pos_right (by linarith) hpow
      _ ≤ 2 ^ 53 * 2 ^ (971 : ℤ) := mul_le_mul_of_nonneg_left hgreatest (by positivity)
      _ = 2 ^ (1024 : ℤ) := by
          rw [← zpow_natCast, ← zpow_add₀ two_ne_zero]
          rfl
      _ ≤ 10 ^ (309 : ℤ) := (ten_zpow_le_two_zpow (t := 1024) (by decide) (by decide)).2

/-- **A decimal in the interval of a number is read as this number.** -/
theorem ofDecimal_of_rounds (hf : InFormat m e) (hm : 0 < m) {d : Decimal}
    (h : Rounds m e d.value) (hd : -400 ≤ d.exponent) (negative : Bool) :
    ofDecimal negative d.digits d.exponent = .finite negative m e := by
  obtain ⟨hlow, hhigh⟩ := h.bounds hf hm
  have hten : (0 : ℚ) < 10 ^ d.exponent := zpow_pos (by norm_num) _
  have hpos : 0 < d.digits := by
    refine Nat.pos_of_ne_zero fun h0 => (h.pos hm).ne' ?_
    rw [Decimal.value, h0, Nat.cast_zero, zero_mul]
  have hmono {i j : ℤ} (h : (10 : ℚ) ^ i < 10 ^ j) : i < j :=
    (zpow_lt_zpow_iff_right₀ (by norm_num)).mp h
  obtain ⟨n, hn⟩ : ∃ n, d.digits.log2 = n := ⟨_, rfl⟩
  have hlog : (2 : ℚ) ^ (n : ℤ) ≤ d.digits := by exact_mod_cast hn ▸ Nat.log2_self_le hpos.ne'
  have hlog' : (d.digits : ℚ) < 2 ^ (n : ℤ) * 10 := by
    have : (d.digits : ℚ) < 2 ^ (n + 1) := by exact_mod_cast hn ▸ Nat.lt_log2_self
    rw [pow_succ, ← zpow_natCast] at this
    linarith [zpow_pos (two_pos (α := ℚ)) (n : ℤ)]
  have hn2399 : (n : ℤ) < 2399 := by
    by_contra hge
    have hdigits : (d.digits : ℚ) = d.value * 10 ^ (-d.exponent) := by
      rw [Decimal.value, mul_assoc, ← zpow_add₀ (by norm_num), add_neg_cancel, zpow_zero, mul_one]
    have := calc (10 : ℚ) ^ (721 : ℤ) ≤ 2 ^ (2399 : ℤ) :=
          (ten_zpow_le_two_zpow (t := 2399) (by decide) (by decide)).1
      _ ≤ 2 ^ (n : ℤ) := zpow_le_zpow_right₀ one_le_two (by omega)
      _ ≤ d.digits := hlog
      _ < 10 ^ (309 : ℤ) * 10 ^ (-d.exponent) :=
          hdigits ▸ mul_lt_mul_of_pos_right hhigh (zpow_pos (by norm_num) _)
      _ = 10 ^ (309 - d.exponent) := (zpow_add₀ (by norm_num) _ _).symm
    have := hmono this
    omega
  -- the size that is compared with the range is that of the decimal up to one digit
  obtain ⟨hsize, hsize'⟩ := ten_zpow_le_two_zpow (t := n) (by omega) (by omega)
  have hupper : (n : ℤ) * 30103 / 100000 + d.exponent < 310 := by
    have := calc (10 : ℚ) ^ ((n : ℤ) * 30103 / 100000 - 1 + d.exponent)
        = 10 ^ ((n : ℤ) * 30103 / 100000 - 1) * 10 ^ d.exponent := zpow_add₀ (by norm_num) _ _
      _ ≤ d.value := mul_le_mul_of_nonneg_right (hsize.trans hlog) hten.le
      _ < 10 ^ (309 : ℤ) := hhigh
    have := hmono this
    omega
  have hlower : -328 < (n : ℤ) * 30103 / 100000 + d.exponent := by
    have := calc (10 : ℚ) ^ (-325 : ℤ) ≤ d.value := hlow
      _ < 2 ^ (n : ℤ) * 10 * 10 ^ d.exponent := mul_lt_mul_of_pos_right hlog' hten
      _ ≤ 10 ^ ((n : ℤ) * 30103 / 100000 + 1) * 10 * 10 ^ d.exponent :=
          mul_le_mul_of_nonneg_right (mul_le_mul_of_nonneg_right hsize' (by norm_num)) hten.le
      _ = 10 ^ ((n : ℤ) * 30103 / 100000 + 1 + 1 + d.exponent) := by
          rw [← zpow_add_one₀ (by norm_num), ← zpow_add₀ (by norm_num)]
    have := hmono this
    omega
  unfold ofDecimal
  dsimp only
  rw [if_neg hpos.ne', hn, if_neg (by omega), if_neg (by omega)]
  refine ofRatio_of_rounds (tenTo_pos _) hf hm ?_ negative
  rwa [Nat.cast_mul, mul_div_assoc, ← zpow_ten_eq_div]

end Binary64
end CommandMenu
