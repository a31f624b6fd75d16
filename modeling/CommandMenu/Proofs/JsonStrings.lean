import CommandMenu.Json.Reader

/-! # Blanks and strings in JSON texts

What a reader takes from a text depends on the rest of the text only, not on its line and column.

* `Cursor.rest_skip` and `Cursor.rest_skipBlanks` say what is left behind a character and behind
  white space.
* `readString_escaped` says that a string is read back from its escaped characters. -/

namespace CommandMenu.Json

/-! ### Moving over characters -/

/-- White space of JSON. -/
def isBlank (x : Char) : Bool := x == ' ' || x == '\n' || x == '\t' || x == '\r'

namespace Cursor

theorem rest_skip {c : Cursor} {x : Char} {rest : List Char} (h : c.rest = x :: rest) :
    c.skip.rest = rest := by
  obtain ⟨cs, line, column⟩ := c
  subst h
  unfold skip
  split
  · next heq => exact absurd heq (by simp)
  · next heq => exact (List.cons.inj heq).2.symm
  · next heq => exact (List.cons.inj heq).2.symm

theorem rest_go {n : Nat} : ∀ {c : Cursor}, c.rest.length ≤ n →
    (skipBlanks.go c n).rest = c.rest.dropWhile isBlank := by
  -- each step leaves one character less, so the bound is not met before the text ends
  induction n with
  | zero =>
    intro c h
    have hnil : c.rest = [] := List.length_eq_zero_iff.1 (by omega)
    simp [skipBlanks.go, hnil]
  | succ n ih =>
    intro c h
    unfold skipBlanks.go
    split
    · next x cs heq =>
      have hskip := rest_skip heq
      rw [heq, List.length_cons] at h
      show (if isBlank x = true then skipBlanks.go c.skip n else c).rest = _
      by_cases hx : isBlank x = true
      · rw [if_pos hx, ih (by rw [hskip]; omega), hskip, heq, List.dropWhile_cons_of_pos hx]
      · rw [if_neg hx, heq, List.dropWhile_cons_of_neg hx]
    · next heq => simp [heq]

theorem rest_skipBlanks_eq (c : Cursor) : c.skipBlanks.rest = c.rest.dropWhile isBlank :=
  rest_go (Nat.le_refl _)

/-- Behind white space stands the first character that is none. -/
theorem rest_skipBlanks {c : Cursor} {blanks : List Char} {x : Char} {rest : List Char}
    (h : c.rest = blanks ++ x :: rest) (hb : ∀ y ∈ blanks, isBlank y = true)
    (hx : isBlank x = false) : c.skipBlanks.rest = x :: rest := by
  rw [rest_skipBlanks_eq, h, List.dropWhile_append_of_pos hb,
    List.dropWhile_cons_of_neg (by simp [hx])]

theorem rest_skipBlanks_of_visible {c : Cursor} {x : Char} {rest : List Char}
    (h : c.rest = x :: rest) (hx : isBlank x = false) : c.skipBlanks.rest = x :: rest := by
  rw [rest_skipBlanks_eq, h, List.dropWhile_cons_of_neg (by simp [hx])]

end Cursor

/-! ### Escapes -/

/-- What stands for a character is a letter behind a backslash, the four digits of a control
character, or the character itself. -/
theorem escapeChar_cases (x : Char) :
    (∃ letter, letterEscape? letter = some x ∧ escapeChar x = ['\\', letter]) ∨
    (x.toNat < 32 ∧ escapeChar x =
      ['\\', 'u', '0', '0', Nat.digitChar (x.toNat / 16), Nat.digitChar (x.toNat % 16)]) ∨
    (¬ x.toNat < 32 ∧ x ≠ '"' ∧ x ≠ '\\' ∧ escapeChar x = [x]) := by
  unfold escapeChar
  by_cases hquote : x = '"'
  · exact .inl ⟨'"', by rw [hquote]; rfl, if_pos hquote⟩
  rw [if_neg hquote]
  by_cases hslash : x = '\\'
  · exact .inl ⟨'\\', by rw [hslash]; rfl, if_pos hslash⟩
  rw [if_neg hslash]
  by_cases hn : x = '\n'
  · exact .inl ⟨'n', by rw [hn]; rfl, if_pos hn⟩
  rw [if_neg hn]
  by_cases hr : x = '\r'
  · exact .inl ⟨'r', by rw [hr]; rfl, if_pos hr⟩
  rw [if_neg hr]
  by_cases ht : x = '\t'
  · exact .inl ⟨'t', by rw [ht]; rfl, if_pos ht⟩
  rw [if_neg ht]
  by_cases hb : x = '\x08'
  · exact .inl ⟨'b', by rw [hb]; rfl, if_pos hb⟩
  rw [if_neg hb]
  by_cases hf : x = '\x0C'
  · exact .inl ⟨'f', by rw [hf]; rfl, if_pos hf⟩
  rw [if_neg hf]
  by_cases hcontrol : x.toNat < 32
  · exact .inr (.inl ⟨hcontrol, if_pos hcontrol⟩)
  · exact .inr (.inr ⟨hcontrol, hquote, hslash, if_neg hcontrol⟩)

theorem hasFourOctets_cons (a b c d : Char) (rest : List Char) :
    hasFourOctets (a :: b :: c :: d :: rest) = true := by
  have ha := a.utf8Size_pos
  have hb := b.utf8Size_pos
  have hc := c.utf8Size_pos
  have hd := d.utf8Size_pos
  simp only [hasFourOctets, List.take_succ_cons, List.take_zero, Text.octets, ge_iff_le,
    decide_eq_true_eq]
  omega

theorem numberOf?_control : ∀ n < 32,
    Text.numberOf? 16 ['0', '0', Nat.digitChar (n / 16), Nat.digitChar (n % 16)] = some n := by
  decide

theorem readHex_control {n : Nat} (hn : n < 32) {c : Cursor} {rest : List Char}
    (h : c.rest = '0' :: '0' :: Nat.digitChar (n / 16) :: Nat.digitChar (n % 16) :: rest) :
    readHex c = .ok (n, c.skip.skip.skip.skip) := by
  have hdigits := numberOf?_control n hn
  simp [readHex, h, hasFourOctets_cons, hdigits]

theorem readEscape_control {x : Char} (hx : x.toNat < 32) {c : Cursor} {rest : List Char}
    (h : c.rest = 'u' :: '0' :: '0' :: Nat.digitChar (x.toNat / 16) ::
      Nat.digitChar (x.toNat % 16) :: rest) (strict : Bool) :
    ∃ next, readEscape strict c = .ok (some x, next) ∧ next.rest = rest := by
  have hskip := Cursor.rest_skip h
  have hlow : (decide (0xDC00 ≤ x.toNat) && decide (x.toNat ≤ 0xDFFF)) = false := by
    rw [decide_eq_false (by omega), Bool.false_and]
  have hhigh : (decide (0xD800 ≤ x.toNat) && decide (x.toNat ≤ 0xDBFF)) = false := by
    rw [decide_eq_false (by omega), Bool.false_and]
  refine ⟨c.skip.skip.skip.skip.skip, ?_, ?_⟩
  · simp only [readEscape, h, readHex_control hx hskip, bind, Except.bind, hlow, hhigh,
      Bool.false_eq_true, if_false, Char.ofNat_toNat]
    rfl
  · exact Cursor.rest_skip (Cursor.rest_skip (Cursor.rest_skip (Cursor.rest_skip hskip)))

theorem readEscape_letter {letter x : Char} (hx : letterEscape? letter = some x) {c : Cursor}
    {rest : List Char} (h : c.rest = letter :: rest) (strict : Bool) :
    ∃ next, readEscape strict c = .ok (some x, next) ∧ next.rest = rest := by
  refine ⟨c.skip, ?_, Cursor.rest_skip h⟩
  unfold readEscape
  rw [h]
  split
  · next heq => exact absurd heq (by simp)
  · next heq =>
    have hu : letter = 'u' := (List.cons.inj heq).1
    rw [hu] at hx
    exact absurd hx (by simp [letterEscape?])
  · next heq =>
    rw [← (List.cons.inj heq).1, hx]

/-! ### Strings -/

theorem readString_escape (strict : Bool) (n : Nat) (out : List Char) {c : Cursor} {x : Char}
    {cs rest : List Char} (h : c.rest = '\\' :: cs)
    (hx : ∀ d : Cursor, d.rest = cs →
      ∃ next, readEscape strict d = .ok (some x, next) ∧ next.rest = rest) :
    ∃ next, readString strict (n + 1) c (some out) = readString strict n next (some (x :: out)) ∧
      next.rest = rest := by
  obtain ⟨next, hread, hrest⟩ := hx c.skip (Cursor.rest_skip h)
  refine ⟨next, ?_, hrest⟩
  simp only [readString, h, hread, bind, Except.bind]
  rfl

theorem readString_plain (strict : Bool) (n : Nat) (out : List Char) {c : Cursor} {x : Char}
    {rest : List Char} (h : c.rest = x :: rest) (hcontrol : ¬ x.toNat < 32) (hquote : x ≠ '"')
    (hslash : x ≠ '\\') :
    readString strict (n + 1) c (some out) = readString strict n c.skip (some (x :: out)) := by
  rw [readString, h]
  split
  · next heq => exact absurd heq (by simp)
  · next heq => exact absurd (List.cons.inj heq).1 hquote
  · next heq => exact absurd (List.cons.inj heq).1 hslash
  · next heq =>
    rw [← (List.cons.inj heq).1, if_neg hcontrol]
    rfl

theorem readString_escapeChar (strict : Bool) (n : Nat) (out : List Char) (x : Char) {c : Cursor}
    {rest : List Char} (h : c.rest = escapeChar x ++ rest) :
    ∃ next, readString strict (n + 1) c (some out) = readString strict n next (some (x :: out)) ∧
      next.rest = rest := by
  rcases escapeChar_cases x with ⟨letter, hletter, htext⟩ | ⟨hcontrol, htext⟩ |
    ⟨hcontrol, hquote, hslash, htext⟩
  · rw [htext] at h
    exact readString_escape strict n out h fun d hd => readEscape_letter hletter hd strict
  · rw [htext] at h
    exact readString_escape strict n out h fun d hd => readEscape_control hcontrol hd strict
  · rw [htext] at h
    exact ⟨c.skip, readString_plain strict n out h hcontrol hquote hslash,
      Cursor.rest_skip h⟩

/-- **A string is read back from its escaped characters**, up to the quote behind them. -/
theorem readString_escaped (strict : Bool) {rest : List Char} : ∀ (s : List Char) (n : Nat)
    (out : List Char) {c : Cursor}, s.length < n → c.rest = s.flatMap escapeChar ++ '"' :: rest →
    ∃ next, readString strict n c (some out) = .ok (some (String.ofList (out.reverse ++ s)), next) ∧
      next.rest = rest := by
  intro s
  -- one step of the reader takes all that stands for one character
  induction s with
  | nil =>
    intro n out c hn h
    obtain ⟨m, rfl⟩ : ∃ m, n = m + 1 := ⟨n - 1, by simp at hn; omega⟩
    have h : c.rest = '"' :: rest := h
    refine ⟨c.skip, ?_, Cursor.rest_skip h⟩
    simp [readString, h]
  | cons x s ih =>
    intro n out c hn h
    obtain ⟨m, rfl⟩ : ∃ m, n = m + 1 := ⟨n - 1, by simp at hn; omega⟩
    rw [List.flatMap_cons, List.append_assoc] at h
    obtain ⟨next, hstep, hrest⟩ := readString_escapeChar strict m out x h
    obtain ⟨last, hread, hlast⟩ := ih m (x :: out) (by simpa using hn) hrest
    refine ⟨last, ?_, hlast⟩
    rw [hstep, hread]
    simp

theorem toList_stringText (s : String) :
    (stringText s).toList = '"' :: (s.toList.flatMap escapeChar ++ ['"']) := by
  simp [stringText]

theorem length_le_length_flatMap_escapeChar (s : List Char) :
    s.length ≤ (s.flatMap escapeChar).length := by
  induction s with
  | nil => simp
  | cons x s ih =>
    have hx : 1 ≤ (escapeChar x).length := by
      rcases escapeChar_cases x with ⟨letter, -, htext⟩ | ⟨-, htext⟩ | ⟨-, -, -, htext⟩ <;>
        simp [htext]
    rw [List.flatMap_cons, List.length_append, List.length_cons]
    omega

/-- A string in a text is read as its content. -/
theorem readString_stringText (strict : Bool) (s : String) {c : Cursor} {rest : List Char}
    (h : c.rest = (stringText s).toList ++ rest) :
    ∃ next, readString strict (c.rest.length + 1) c.skip (some []) = .ok (some s, next) ∧
      next.rest = rest := by
  have htext : c.rest = '"' :: (s.toList.flatMap escapeChar ++ '"' :: rest) := by
    rw [h, toList_stringText]
    simp
  have hlength : s.toList.length < c.rest.length + 1 := by
    have hle := length_le_length_flatMap_escapeChar s.toList
    rw [htext, List.length_cons, List.length_append]
    omega
  obtain ⟨next, hread, hrest⟩ :=
    readString_escaped strict s.toList _ [] hlength (Cursor.rest_skip htext)
  refine ⟨next, ?_, hrest⟩
  rw [hread]
  simp

end CommandMenu.Json
