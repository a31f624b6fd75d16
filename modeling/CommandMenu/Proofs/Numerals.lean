import CommandMenu.Number.Basic
import CommandMenu.Proofs.Digits
import CommandMenu.Proofs.Shortest

/-! # Texts of numbers

The text of a number can be read again, so that different numbers have different texts.

* `NumberLayout.readDecimal_render` says that the text of a finite number is read as the number.
* `Number.render_injective` says that numbers with the same text are the same. -/

namespace CommandMenu
namespace Binary64

open Text (numberOf)

/-! ### Reading a numeral -/

theorem takeWhile_digits_append {ds rest : List Char} (hd : ∀ c ∈ ds, c.isDigit = true)
    (hr : ∀ c, rest.head? = some c → c.isDigit = false) :
    (ds ++ rest).takeWhile Char.isDigit = ds ∧ (ds ++ rest).dropWhile Char.isDigit = rest := by
  rw [List.takeWhile_append_of_pos hd, List.dropWhile_append_of_pos hd]
  cases rest with
  | nil => simp
  | cons c rest => simp [hr c rfl]

theorem readExponent_toDigits (n : ℕ) : readExponent (Nat.toDigits 10 n) = some (n : ℤ) := by
  have hnumber := Text.numberOf?_toDigits n
  obtain ⟨c, rest, hc, hdigit⟩ := Text.exists_toDigits_eq_cons n
  rw [hc] at hnumber ⊢
  unfold readExponent
  split
  · next heq =>
      cases heq
      cases hdigit
  · next heq =>
      cases heq
      cases hdigit
  · simp [hnumber]

theorem readExponent_toString (k : ℤ) : readExponent (toString k).toList = some k := by
  rw [Int.toString_eq_repr, Int.repr_eq_if]
  split
  · rw [Nat.toList_repr, readExponent_toDigits, Int.toNat_of_nonneg ‹_›]
  · have hcons : ("-" ++ (-k).toNat.repr).toList = '-' :: Nat.toDigits 10 (-k).toNat := by
      rw [String.toList_append, Nat.toList_repr]
      rfl
    have hnumber := Text.numberOf?_toDigits (-k).toNat
    have hne : Nat.toDigits 10 (-k).toNat ≠ [] := Nat.toDigits_ne_nil
    simp only [hcons, readExponent, hnumber, List.isEmpty_iff, hne]
    simp
    omega

/-- The text of an exponent, if there is one. -/
def exponentText : Option ℤ → List Char
  | none => []
  | some k => 'e' :: (toString k).toList

/-- Digits with a point in them or without one, and an exponent or none. -/
def numeral (whole fraction : List Char) (k : Option ℤ) : List Char :=
  whole ++ ((if fraction = [] then [] else '.' :: fraction) ++ exponentText k)

theorem head?_exponentText (k : Option ℤ) :
    ∀ c, (exponentText k).head? = some c → c.isDigit = false := by
  intro c hc
  cases k with
  | none => cases hc
  | some k =>
      obtain rfl : 'e' = c := Option.some.inj hc
      rfl

/-- A numeral is read as its digits and its exponent, less the places behind the point. -/
theorem readUnsigned_numeral {whole fraction : List Char} (hw : ∀ c ∈ whole, c.isDigit = true)
    (hf : ∀ c ∈ fraction, c.isDigit = true) (hne : whole ≠ []) (k : Option ℤ) (negative : Bool) :
    readUnsigned negative (numeral whole fraction k) =
      some (ofDecimal negative (numberOf 10 (whole ++ fraction)) (k.getD 0 - fraction.length)) := by
  have hwhole : whole.isEmpty = false := by
    cases whole with
    | nil => exact absurd rfl hne
    | cons c whole => rfl
  have hend := head?_exponentText k
  unfold numeral
  split
  · next hnil =>
      obtain ⟨htake, hdrop⟩ := takeWhile_digits_append hw hend
      subst hnil
      simp only [readUnsigned, List.nil_append, htake, hdrop, hwhole, Bool.false_and,
        Bool.false_eq_true, if_false]
      cases k with
      | none => rfl
      | some k =>
          show (readExponent (toString k).toList).map _ = _
          rw [readExponent_toString]
          rfl
  · have hpoint : ∀ c, ('.' :: (fraction ++ exponentText k)).head? = some c → c.isDigit = false :=
      fun c hc => by cases hc; rfl
    obtain ⟨htake, hdrop⟩ := takeWhile_digits_append hw hpoint
    obtain ⟨htake', hdrop'⟩ := takeWhile_digits_append hf hend
    simp only [readUnsigned, List.cons_append, htake, hdrop, htake', hdrop', hwhole, Bool.false_and,
      Bool.false_eq_true, if_false]
    cases k with
    | none => rfl
    | some k =>
        show (readExponent (toString k).toList).map _ = _
        rw [readExponent_toString]
        rfl

/-- A text that starts with a digit is read as a decimal. -/
structure Spells (cs : List Char) (d : Decimal) : Prop where
  reads : ∀ negative, readUnsigned negative cs = some (ofDecimal negative d.digits d.exponent)
  starts : ∃ c rest, cs = c :: rest ∧ c.isDigit = true

theorem spells_numeral (whole fraction : List Char) (k : Option ℤ)
    (hw : ∀ c ∈ whole, c.isDigit = true) (hf : ∀ c ∈ fraction, c.isDigit = true)
    (hne : whole ≠ []) :
    Spells (numeral whole fraction k)
      ⟨numberOf 10 (whole ++ fraction), k.getD 0 - fraction.length⟩ := by
  refine ⟨readUnsigned_numeral hw hf hne k, ?_⟩
  cases whole with
  | nil => exact absurd rfl hne
  | cons c whole => exact ⟨c, _, rfl, hw c List.mem_cons_self⟩

end Binary64

namespace NumberLayout

open Binary64

theorem isDigit_of_mem_digits (n : ℕ) : ∀ c ∈ Nat.toDigits 10 n, c.isDigit = true :=
  fun _ h => Nat.isDigit_of_mem_toDigits (by decide) (by decide) h

theorem isDigit_of_mem_zeros (n : ℕ) : ∀ c ∈ List.replicate n '0', c.isDigit = true :=
  fun _ h => List.eq_of_mem_replicate h ▸ rfl

theorem length_toString (n : ℕ) : (toString n).length = (Nat.toDigits 10 n).length := by
  rw [← String.length_toList, Nat.toString_eq_repr, Nat.toList_repr]

theorem spells_zeros_behind (n k : ℕ) :
    Spells (toString n ++ zeros k ++ ".0").toList ⟨n * 10 ^ (k + 1), -1⟩ := by
  have htext : (toString n ++ zeros k ++ ".0").toList =
      numeral (Nat.toDigits 10 n ++ List.replicate k '0') ['0'] none := by
    simp [zeros, numeral, exponentText]
  have hspells := spells_numeral (Nat.toDigits 10 n ++ List.replicate k '0') ['0'] none
    (fun c hc => (List.mem_append.mp hc).elim (isDigit_of_mem_digits n c) (isDigit_of_mem_zeros k c))
    (by simp) (by simp [Nat.toDigits_ne_nil])
  rw [List.append_assoc, ← List.replicate_succ', Text.numberOf_append_zeros,
    Text.numberOf_toDigits] at hspells
  rw [htext]
  exact hspells

theorem spells_point_within {n p : ℕ} (hp : 0 < p) (hlt : p < (Nat.toDigits 10 n).length) :
    Spells (String.ofList ((toString n).toList.take p) ++ "." ++
      String.ofList ((toString n).toList.drop p)).toList
      ⟨n, p - (Nat.toDigits 10 n).length⟩ := by
  have htext : (String.ofList ((toString n).toList.take p) ++ "." ++
      String.ofList ((toString n).toList.drop p)).toList =
      numeral ((Nat.toDigits 10 n).take p) ((Nat.toDigits 10 n).drop p) none := by
    simp [numeral, exponentText, hlt]
  have hspells := spells_numeral ((Nat.toDigits 10 n).take p) ((Nat.toDigits 10 n).drop p) none
    (fun c hc => isDigit_of_mem_digits n c (List.mem_of_mem_take hc))
    (fun c hc => isDigit_of_mem_digits n c (List.mem_of_mem_drop hc))
    (by simp [Nat.toDigits_ne_nil, hp.ne'])
  rw [List.take_append_drop, Text.numberOf_toDigits, List.length_drop, Nat.cast_sub hlt.le,
    Option.getD_none, zero_sub, neg_sub] at hspells
  rw [htext]
  exact hspells

theorem spells_zeros_in_front (n k : ℕ) : Spells ("0." ++ zeros k ++ toString n).toList
    ⟨n, -(k + (Nat.toDigits 10 n).length)⟩ := by
  have htext : ("0." ++ zeros k ++ toString n).toList =
      numeral ['0'] (List.replicate k '0' ++ Nat.toDigits 10 n) none := by
    simp [numeral, exponentText, zeros, Nat.toDigits_ne_nil]
  have hspells := spells_numeral ['0'] (List.replicate k '0' ++ Nat.toDigits 10 n) none (by simp)
    (fun c hc => (List.mem_append.mp hc).elim (isDigit_of_mem_zeros k c) (isDigit_of_mem_digits n c))
    (by simp)
  rw [List.singleton_append, ← List.cons_append, ← List.replicate_succ,
    Text.numberOf_zeros_append, Text.numberOf_toDigits, List.length_append, List.length_replicate,
    Nat.cast_add, Option.getD_none, zero_sub] at hspells
  rw [htext]
  exact hspells

/-- A text without an exponent is read as a decimal of the same value. -/
theorem spells_positional (n : ℕ) (k : ℤ) : ∃ d : Decimal,
    d.value = Decimal.value ⟨n, k⟩ ∧ min (-1) k ≤ d.exponent ∧
      Spells (positional (toString n) k).toList d := by
  unfold positional
  simp only [length_toString]
  split
  · next hk =>
      refine ⟨_, ?_, min_le_left _ _, spells_zeros_behind n k.toNat⟩
      obtain ⟨j, rfl⟩ := Int.eq_ofNat_of_zero_le hk
      simp only [Decimal.value, Int.toNat_natCast, zpow_natCast, zpow_neg_one, pow_succ]
      push_cast
      field_simp
  · next hk =>
      refine ⟨⟨n, k⟩, rfl, min_le_right _ _, ?_⟩
      split
      · next hp =>
          have hspells := spells_point_within (n := n)
            (p := ((Nat.toDigits 10 n).length + k).toNat) (by omega) (by omega)
          rwa [Int.toNat_of_nonneg hp.le, add_sub_cancel_left] at hspells
      · next hp =>
          have hspells := spells_zeros_in_front n (-((Nat.toDigits 10 n).length + k)).toNat
          rwa [Int.toNat_of_nonneg (by omega), show
            -(-(((Nat.toDigits 10 n).length : ℤ) + k) + (Nat.toDigits 10 n).length) = k by omega]
            at hspells

theorem spells_scientific (n : ℕ) (k : ℤ) :
    Spells (scientific (toString n) k).toList ⟨n, k⟩ := by
  have hlength : 0 < (Nat.toDigits 10 n).length := List.length_pos_iff.mpr Nat.toDigits_ne_nil
  have htext : (scientific (toString n) k).toList =
      numeral ((Nat.toDigits 10 n).take 1) ((Nat.toDigits 10 n).drop 1)
        (some ((Nat.toDigits 10 n).length + k - 1)) := by
    unfold scientific numeral exponentText
    simp only [length_toString]
    by_cases htail : (Nat.toDigits 10 n).tail = []
    · simp [htail]
    · simp [htail]
  have hspells := spells_numeral ((Nat.toDigits 10 n).take 1) ((Nat.toDigits 10 n).drop 1)
    (some ((Nat.toDigits 10 n).length + k - 1))
    (fun c hc => isDigit_of_mem_digits n c (List.mem_of_mem_take hc))
    (fun c hc => isDigit_of_mem_digits n c (List.mem_of_mem_drop hc))
    (by simp [Nat.toDigits_ne_nil])
  rw [List.take_append_drop, Text.numberOf_toDigits, List.length_drop, Nat.cast_sub hlength,
    Nat.cast_one, Option.getD_some, show ((Nat.toDigits 10 n).length + k - 1 -
      ((Nat.toDigits 10 n).length - 1) : ℤ) = k by omega] at hspells
  rwa [htext]

/-- The text of a number without its sign is read as the number. -/
theorem readUnsigned_render (l : NumberLayout) {m : ℕ} {e : ℤ} (h : InFormat m e)
    (negative : Bool) :
    readUnsigned negative (l.render (.finite false m e)).toList = some (.finite negative m e) ∧
      ∃ c rest, (l.render (.finite false m e)).toList = c :: rest ∧ c.isDigit = true := by
  rcases Nat.eq_zero_or_pos m with rfl | hm
  · obtain rfl : e = -1074 := h.full.resolve_left (by norm_num)
    have htext : (l.render (.finite false 0 (-1074))).toList = ['0', '.', '0'] := by simp [render]
    rw [htext]
    exact ⟨rfl, '0', ['.', '0'], rfl, rfl⟩
  · obtain ⟨hrounds, hexponent⟩ := rounds_shortest h hm
    obtain ⟨d, hvalue, hd, hspells⟩ : ∃ d : Decimal, d.value = (shortest m e).value ∧
        min (-1) (shortest m e).exponent ≤ d.exponent ∧
        Spells (l.render (.finite false m e)).toList d := by
      simp only [render, hm.ne', if_false, Bool.false_eq_true, String.empty_append]
      split
      · exact spells_positional _ _
      · exact ⟨_, rfl, min_le_right _ _, spells_scientific _ _⟩
    refine ⟨?_, hspells.starts⟩
    rw [hspells.reads, ofDecimal_of_rounds h hm (hvalue ▸ hrounds) (by omega)]

/-- **The text of a finite number is read as the number**, whatever the layout is. -/
theorem readDecimal_render (l : NumberLayout) {x : Binary64} (hx : x.IsFormat)
    (hf : x.isFinite = true) : readDecimal (l.render x).toList = some x := by
  cases x with
  | infinite _ => cases hf
  | notANumber => cases hf
  | finite negative m e =>
      obtain ⟨hread, c, rest, hc, hdigit⟩ := l.readUnsigned_render hx negative
      cases negative with
      | true =>
          have htext : (l.render (.finite true m e)).toList =
              '-' :: (l.render (.finite false m e)).toList := by
            simp [render]
          rw [htext]
          exact hread
      | false =>
          rw [hc] at hread ⊢
          unfold readDecimal
          split
          · next heq =>
              cases heq
              cases hdigit
          · next heq =>
              cases heq
              cases hdigit
          · exact hread

end NumberLayout

/-! ### Numbers with the same text -/

namespace Number

open NumberLayout Binary64

/-- A number of the format, if it is no integer. -/
def IsFormat : Number → Prop
  | .integer _ => True
  | .real x => x.IsFormat

theorem readDecimal_render_of_not_finite {x : Binary64} (h : x.isFinite = false) :
    readDecimal (document.render x).toList = none := by
  cases x with
  | finite _ _ _ => cases h
  | infinite negative => cases negative <;> rfl
  | notANumber => rfl

theorem document_render_injective_of_not_finite {x y : Binary64} (hx : x.isFinite = false)
    (hy : y.isFinite = false) (h : document.render x = document.render y) : x = y := by
  cases x with
  | finite _ _ _ => cases hx
  | notANumber =>
      cases y with
      | finite _ _ _ => cases hy
      | notANumber => rfl
      | infinite t => cases t <;> exact absurd h (by decide)
  | infinite s =>
      cases y with
      | finite _ _ _ => cases hy
      | notANumber => cases s <;> exact absurd h (by decide)
      | infinite t =>
          cases s <;> cases t
          · rfl
          · exact absurd h (by decide)
          · exact absurd h (by decide)
          · rfl

theorem document_render_injective {x y : Binary64} (hx : x.IsFormat) (hy : y.IsFormat)
    (h : document.render x = document.render y) : x = y := by
  have hread : readDecimal (document.render x).toList = readDecimal (document.render y).toList := by
    rw [h]
  cases hfx : x.isFinite with
  | true =>
      rw [readDecimal_render document hx hfx] at hread
      cases hfy : y.isFinite with
      | true =>
          rw [readDecimal_render document hy hfy] at hread
          exact Option.some.inj hread
      | false =>
          rw [readDecimal_render_of_not_finite hfy] at hread
          cases hread
  | false =>
      rw [readDecimal_render_of_not_finite hfx] at hread
      cases hfy : y.isFinite with
      | true =>
          rw [readDecimal_render document hy hfy] at hread
          cases hread
      | false =>
          exact document_render_injective_of_not_finite hfx hfy h

theorem mem_positional (digits : String) (k : ℤ) : '.' ∈ (positional digits k).toList := by
  unfold positional
  dsimp only
  split
  · simp
  · split <;> simp

theorem mem_scientific (digits : String) (k : ℤ) : 'e' ∈ (scientific digits k).toList := by
  simp [scientific]

theorem exists_mem_render_real (x : Binary64) :
    '.' ∈ (document.render x).toList ∨ 'e' ∈ (document.render x).toList := by
  cases x with
  | notANumber => exact .inl (by decide)
  | infinite negative => cases negative <;> exact .inl (by decide)
  | finite negative m e =>
      unfold NumberLayout.render
      rw [String.toList_append, List.mem_append, List.mem_append]
      generalize (if negative then "-" else "") = sign
      split
      · exact .inl (.inr (by decide))
      · split
        · exact .inl (.inr (mem_positional _ _))
        · exact .inr (.inr (mem_scientific _ _))

theorem mem_toString_integer (i : ℤ) :
    ∀ c ∈ (toString i).toList, c = '-' ∨ c.isDigit = true := by
  intro c hc
  rw [Int.toString_eq_repr, Int.repr_eq_if] at hc
  split at hc
  · exact .inr (isDigit_of_mem_digits _ c (by simpa using hc))
  · rw [String.toList_append, List.mem_append, Nat.toList_repr] at hc
    exact hc.imp (by simp) (isDigit_of_mem_digits _ c)

/-- **Numbers with the same text are the same.** -/
theorem render_injective {a b : Number} (ha : a.IsFormat) (hb : b.IsFormat)
    (h : a.render = b.render) : a = b := by
  have hmixed (i : ℤ) (x : Binary64) : toString i ≠ document.render x := by
    intro he
    have hall := mem_toString_integer i
    rw [he] at hall
    rcases exists_mem_render_real x with hc | hc
    · exact absurd (hall _ hc) (by decide)
    · exact absurd (hall _ hc) (by decide)
  match a, b with
  | .integer i, .integer j =>
      have hread := readExponent_toString i
      rw [show toString i = toString j from h, readExponent_toString] at hread
      rw [Option.some.inj hread]
  | .integer i, .real y => exact absurd h (hmixed i y)
  | .real x, .integer j => exact absurd h.symm (hmixed j x)
  | .real x, .real y => exact congrArg _ (document_render_injective ha hb h)

theorem same_self (n : Number) : n.same n = true := by
  cases n with
  | integer i => simp [same]
  | real x => cases x <;> simp [same, Binary64.same]

/-- No number is written like a truth value. -/
theorem render_ne_bool {n : Number} (hn : n.IsFormat) (b : Bool) :
    n.render ≠ if b then "true" else "false" := by
  intro h
  cases n with
  | integer i =>
      have hall := mem_toString_integer i
      rw [show toString i = _ from h] at hall
      cases b
      · exact absurd (hall 'f' (by decide)) (by decide)
      · exact absurd (hall 't' (by decide)) (by decide)
  | real x =>
      cases hf : x.isFinite with
      | true =>
          have hread := readDecimal_render document hn hf
          rw [show document.render x = _ from h] at hread
          cases b <;> cases hread
      | false =>
          cases x with
          | finite _ _ _ => cases hf
          | notANumber => cases b <;> exact absurd h (by decide)
          | infinite s => cases s <;> cases b <;> exact absurd h (by decide)

end Number
end CommandMenu
