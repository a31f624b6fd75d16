import CommandMenu.Text.Digits
import Mathlib.Tactic.IntervalCases
import Mathlib.Tactic.Ring

/-! # Digits of a number

* `Text.numberOf_toDigits` says that the digits of a number denote it. -/

namespace CommandMenu.Text

theorem digit?_digitChar {d : Nat} (h : d < 10) : digit? d.digitChar = some d := by
  interval_cases d <;> rfl

/-- **The digits of a number denote it.** -/
theorem numberOf_toDigits (n : Nat) : numberOf 10 (Nat.toDigits 10 n) = n := by
  induction n using Nat.strongRecOn with
  | ind n ih =>
    by_cases hn : n < 10
    · rw [Nat.toDigits_of_lt_base hn]
      show pushDigit 10 0 n.digitChar = n
      simp [pushDigit, digit?_digitChar hn]
    · have hlast : n % 10 < 10 := Nat.mod_lt n (by omega)
      rw [Nat.toDigits_of_base_le (by omega) (by omega), numberOf_append_singleton,
        ih (n / 10) (by omega), pushDigit, digit?_digitChar hlast]
      show 10 * (n / 10) + n % 10 = n
      omega

theorem numberOf_zeros_append (k : Nat) (cs : List Char) :
    numberOf 10 (List.replicate k '0' ++ cs) = numberOf 10 cs := by
  induction k with
  | zero => rfl
  | succ k ih => exact ih

theorem numberOf_append_zeros (k : Nat) (cs : List Char) :
    numberOf 10 (cs ++ List.replicate k '0') = numberOf 10 cs * 10 ^ k := by
  induction k with
  | zero => simp
  | succ k ih =>
      rw [List.replicate_succ', ← List.append_assoc, numberOf_append_singleton, ih, pushDigit]
      show 10 * (numberOf 10 cs * 10 ^ k) + 0 = _
      ring

theorem isDigitOf_of_isDigit {c : Char} (h : c.isDigit = true) : isDigitOf 10 c = true := by
  have hc : c.toNat ≤ 57 := by
    simp only [Char.isDigit, Bool.and_eq_true, decide_eq_true_eq] at h
    exact h.2
  rw [isDigitOf, digit?, if_pos h, Option.any_some, decide_eq_true_iff]
  omega

theorem numberOf?_toDigits (n : Nat) : numberOf? 10 (Nat.toDigits 10 n) = some n := by
  rw [numberOf?, if_pos, numberOf_toDigits]
  exact List.all_eq_true.mpr fun c hc =>
    isDigitOf_of_isDigit (Nat.isDigit_of_mem_toDigits (by decide) (by decide) hc)

theorem exists_toDigits_eq_cons (n : Nat) :
    ∃ c rest, Nat.toDigits 10 n = c :: rest ∧ c.isDigit = true := by
  cases h : Nat.toDigits 10 n with
  | nil => exact absurd h Nat.toDigits_ne_nil
  | cons c rest =>
      exact ⟨c, rest, rfl, Nat.isDigit_of_mem_toDigits (by decide) (by decide)
        (h ▸ List.mem_cons_self)⟩

end CommandMenu.Text
