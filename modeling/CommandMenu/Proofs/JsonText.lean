import CommandMenu.Json.Value
import CommandMenu.Proofs.JsonStrings
import Mathlib.Data.List.Forall2

/-! # JSON texts and the values they are read as

The text of a value, compact or on lines of its own, is read as a tree that holds the value.
Numbers are left aside; a reader may take the text of one for that of its neighbour.

* `Value.depth` counts the levels of lists and objects, `Tree.Holds` says that a tree has a value.
* `Denotes` says what a text is read as, behind white space and in front of other text.
* `ReadsParts` is what the reader of items and the reader of members have in common, and
  `ReadsParts.read_parts` says that such a reader comes to the end of its parts.
* `Value.Wordy.read_compact` and `Value.Wordy.read_pretty` are the results. -/

namespace CommandMenu.Json

/-! ### Trees and the values they hold -/

namespace Value

mutual

/-- The levels of lists and objects that are nested in a value. -/
def depth : Value → Nat
  | .array items => depthOfItems items + 1
  | .object members => depthOfMembers members + 1
  | _ => 0

/-- The most levels in one of some items. -/
def depthOfItems : List Value → Nat
  | [] => 0
  | v :: rest => max v.depth (depthOfItems rest)

/-- The most levels in one of some members. -/
def depthOfMembers : List (String × Value) → Nat
  | [] => 0
  | (_, v) :: rest => max v.depth (depthOfMembers rest)

end

end Value

namespace Tree

/-- A tree has a value as soon as enough levels are allowed. -/
def Holds (t : Tree) (v : Value) : Prop := ∀ levels, v.depth ≤ levels → t.value? levels = some v

theorem holds_null : Tree.null.Holds .null := fun _ _ => by simp [value?]

theorem holds_bool (b : Bool) : (Tree.bool b).Holds (.bool b) := fun _ _ => by simp [value?]

theorem holds_string (s : String) : (Tree.string (some s)).Holds (.string s) :=
  fun _ _ => by simp [value?]

theorem items?_of_holds {levels : Nat} {ts : List Tree} {vs : List Value}
    (h : List.Forall₂ Holds ts vs) (hl : Value.depthOfItems vs ≤ levels) :
    items? levels ts = some vs := by
  induction h with
  | nil => simp [items?]
  | cons hv _ ih =>
    rw [Value.depthOfItems] at hl
    simp [items?, hv levels (by omega), ih (by omega)]

theorem holds_array {ts : List Tree} {vs : List Value} (h : List.Forall₂ Holds ts vs) :
    (Tree.array ts).Holds (.array vs) := by
  intro levels hl
  rw [Value.depth] at hl
  obtain ⟨below, rfl⟩ : ∃ below, levels = below + 1 := ⟨levels - 1, by omega⟩
  simp [value?, items?_of_holds h (Nat.le_of_succ_le_succ hl)]

/-- A member has a key that can be told, and a value. -/
def HoldsMember (m : Option String × Tree) (n : String × Value) : Prop :=
  m.1 = some n.1 ∧ m.2.Holds n.2

theorem members?_of_holds {levels : Nat} {ms : List (Option String × Tree)}
    {ns : List (String × Value)} (h : List.Forall₂ HoldsMember ms ns)
    (hl : Value.depthOfMembers ns ≤ levels) : members? levels ms = some ns := by
  induction h with
  | nil => simp [members?]
  | @cons m n ms ns hm _ ih =>
    obtain ⟨key, t⟩ := m
    obtain ⟨name, v⟩ := n
    obtain ⟨rfl, hv⟩ : key = some name ∧ t.Holds v := hm
    rw [Value.depthOfMembers] at hl
    simp [members?, hv levels (by omega), ih (by omega)]

theorem holds_object {ms : List (Option String × Tree)} {ns : List (String × Value)}
    (h : List.Forall₂ HoldsMember ms ns) : (Tree.object ms).Holds (.object ns) := by
  intro levels hl
  rw [Value.depth] at hl
  obtain ⟨below, rfl⟩ : ∃ below, levels = below + 1 := ⟨levels - 1, by omega⟩
  simp [value?, members?_of_holds h (Nat.le_of_succ_le_succ hl)]

end Tree

/-! ### Texts that denote a value -/

/-- Characters that are white space. -/
def AreBlanks (cs : List Char) : Prop := ∀ y ∈ cs, isBlank y = true

theorem areBlanks_nil : AreBlanks [] := by simp [AreBlanks]

/-- A text that starts with a visible character which does not end a list, and is read as a value
wherever it stands.  As many steps as the text has characters are enough. -/
structure Denotes (cs : List Char) (v : Value) : Prop where
  starts : ∃ x tail, cs = x :: tail ∧ isBlank x = false ∧ x ≠ ']'
  read : ∀ (n levels : Nat) {blanks rest : List Char} {c : Cursor}, AreBlanks blanks →
    c.rest = blanks ++ (cs ++ rest) → cs.length < n →
    ∃ t next, readValue false n levels c = .ok (t, next) ∧ t.Holds v ∧ next.rest = rest

/-! ### Words and strings -/

theorem readWord_append (t : Tree) {rest : List Char} : ∀ (word : List Char) {c : Cursor},
    c.rest = word ++ rest → ∃ next, readWord t word c = .ok (t, next) ∧ next.rest = rest := by
  intro word
  induction word with
  | nil =>
    intro c h
    exact ⟨c, rfl, h⟩
  | cons x word ih =>
    intro c h
    obtain ⟨next, hread, hrest⟩ := ih (Cursor.rest_skip h)
    refine ⟨next, ?_, hrest⟩
    simp [readWord, h, hread]

theorem denotes_word (x : Char) (word : List Char) {t : Tree} {v : Value}
    (hblank : isBlank x = false) (hx : x ≠ ']') (ht : t.Holds v)
    (hword : ∀ {n levels : Nat} {c : Cursor} {rest : List Char}, c.skipBlanks.rest = x :: rest →
      readValue false (n + 1) levels c = readWord t word c.skipBlanks.skip) :
    Denotes (x :: word) v where
  starts := ⟨x, word, rfl, hblank, hx⟩
  read n levels blanks rest c hb h hn := by
    obtain ⟨m, rfl⟩ : ∃ m, n = m + 1 := ⟨n - 1, by omega⟩
    have hstart : c.skipBlanks.rest = x :: (word ++ rest) := Cursor.rest_skipBlanks h hb hblank
    obtain ⟨next, hread, hrest⟩ := readWord_append t word (Cursor.rest_skip hstart)
    exact ⟨t, next, by rw [hword hstart, hread], ht, hrest⟩

theorem denotes_null : Denotes "null".toList .null :=
  denotes_word 'n' "ull".toList rfl (by decide) Tree.holds_null fun h => by
    simp only [readValue, h]

theorem denotes_bool : ∀ b : Bool, Denotes (if b then "true" else "false").toList (.bool b)
  | true =>
    denotes_word 't' "rue".toList rfl (by decide) (Tree.holds_bool true) fun h => by
      simp only [readValue, h]
  | false =>
    denotes_word 'f' "alse".toList rfl (by decide) (Tree.holds_bool false) fun h => by
      simp only [readValue, h]

theorem denotes_string (s : String) : Denotes (stringText s).toList (.string s) where
  starts := ⟨'"', _, toList_stringText s, rfl, by decide⟩
  read n levels blanks rest c hb h hn := by
    obtain ⟨m, rfl⟩ : ∃ m, n = m + 1 := ⟨n - 1, by omega⟩
    have hstart : c.skipBlanks.rest = (stringText s).toList ++ rest := by
      rw [toList_stringText, List.cons_append] at h ⊢
      exact Cursor.rest_skipBlanks h hb rfl
    obtain ⟨next, hread, hrest⟩ := readString_stringText false s hstart
    refine ⟨.string (some s), next, ?_, Tree.holds_string s, hrest⟩
    rw [toList_stringText, List.cons_append] at hstart
    simp only [readValue, hstart]
    rw [hstart] at hread
    simp only [hread]
    rfl

/-! ### Parts with commas between them -/

/-- The text of further parts: each has a comma and white space in front of it. -/
def furtherText {α : Type} (gap : List Char) (text : α → List Char) (as : List α) : List Char :=
  as.flatMap fun a => ',' :: (gap ++ text a)

theorem furtherText_cons {α : Type} (gap : List Char) (text : α → List Char) (a : α)
    (as : List α) :
    furtherText gap text (a :: as) = ',' :: (gap ++ (text a ++ furtherText gap text as)) := by
  simp [furtherText]

/-- The text of some parts: the first one has white space in front of it. -/
def partsText {α : Type} (gap : List Char) (text : α → List Char) : List α → List Char
  | [] => []
  | a :: as => gap ++ (text a ++ furtherText gap text as)

/-- A reader of parts, given its steps, whether it stands at the first part, the rest of the text,
and the parts that it has read, in reverse order. -/
abbrev PartsReader (β : Type) : Type :=
  Nat → (first : Bool) → Cursor → List β → Except Failure (Tree × Cursor)

section Parts

variable {α β : Type}

/-- At the start of a part a reader takes it and goes on behind it, whether the part is the first one
or stands behind a comma. -/
structure Takes (reader : PartsReader β) (n : Nat) (c : Cursor) (b : β) (next : Cursor) :
    Prop where
  first : ∀ {d : Cursor} {out : List β}, d.skipBlanks = c →
    reader (n + 1) true d out = reader n false next (b :: out)
  comma : ∀ {d : Cursor} {out : List β} {cs : List Char}, d.skipBlanks.rest = ',' :: cs →
    d.skipBlanks.skip.skipBlanks = c → reader (n + 1) false d out = reader n false next (b :: out)

/-- A reader takes each of some parts from its text, and makes a tree of them at the ending. -/
structure ReadsParts (reader : PartsReader β) (make : List β → Tree) (ending : Char)
    (text : α → List Char) (holds : β → α → Prop) (as : List α) : Prop where
  visible : isBlank ending = false
  close : ∀ {n : Nat} {first : Bool} {d : Cursor} {out : List β} {cs : List Char},
    d.skipBlanks.rest = ending :: cs →
    reader (n + 1) first d out = .ok (make out.reverse, d.skipBlanks.skip)
  starts : ∀ a ∈ as, ∃ x cs, text a = x :: cs ∧ isBlank x = false
  part : ∀ a ∈ as, ∀ {n : Nat} {c : Cursor} {cs : List Char}, (text a).length < n →
    c.rest = text a ++ cs → ∃ b next, Takes reader n c b next ∧ holds b a ∧ next.rest = cs

namespace ReadsParts

variable {reader : PartsReader β} {make : List β → Tree} {ending : Char} {text : α → List Char}
  {holds : β → α → Prop} {as : List α} {gap close rest : List Char}

theorem tail {a : α} (h : ReadsParts reader make ending text holds (a :: as)) :
    ReadsParts reader make ending text holds as where
  visible := h.visible
  close := h.close
  starts b hb := h.starts b (List.mem_cons_of_mem a hb)
  part b hb := h.part b (List.mem_cons_of_mem a hb)

theorem read_close (h : ReadsParts reader make ending text holds as) (hclose : AreBlanks close)
    (n : Nat) (first : Bool) (out : List β) {c : Cursor} (hn : 0 < n)
    (hc : c.rest = close ++ ending :: rest) :
    ∃ next, reader n first c out = .ok (make out.reverse, next) ∧ next.rest = rest := by
  obtain ⟨m, rfl⟩ : ∃ m, n = m + 1 := ⟨n - 1, by omega⟩
  have hstart := Cursor.rest_skipBlanks hc hclose h.visible
  exact ⟨c.skipBlanks.skip, h.close hstart, Cursor.rest_skip hstart⟩

theorem take {a : α} (h : ReadsParts reader make ending text holds (a :: as))
    (hgap : AreBlanks gap) {n : Nat} {c : Cursor} {cs : List Char} (hn : (text a).length < n)
    (hc : c.rest = gap ++ (text a ++ cs)) :
    ∃ b next, Takes reader n c.skipBlanks b next ∧ holds b a ∧ next.rest = cs := by
  obtain ⟨x, tail, htext, hblank⟩ := h.starts a List.mem_cons_self
  have hstart : c.skipBlanks.rest = text a ++ cs := by
    rw [htext] at hc ⊢
    exact Cursor.rest_skipBlanks hc hgap hblank
  exact h.part a List.mem_cons_self hn hstart

/-- What follows a part is read up to the ending.  Each part is shorter than what is left, so that
the steps suffice for it. -/
theorem read_further (h : ReadsParts reader make ending text holds as) (hgap : AreBlanks gap)
    (hclose : AreBlanks close) : ∀ (n : Nat) (out : List β) {c : Cursor},
      (furtherText gap text as).length < n →
      c.rest = furtherText gap text as ++ (close ++ ending :: rest) →
      ∃ bs next, reader n false c out = .ok (make (out.reverse ++ bs), next) ∧
        List.Forall₂ holds bs as ∧ next.rest = rest := by
  induction as with
  | nil =>
    intro n out c hn hc
    obtain ⟨next, hread, hrest⟩ := h.read_close hclose n false out (Nat.zero_lt_of_lt hn) hc
    exact ⟨[], next, by rw [hread, List.append_nil], .nil, hrest⟩
  | cons a as ih =>
    intro n out c hn hc
    obtain ⟨m, rfl⟩ : ∃ m, n = m + 1 := ⟨n - 1, by omega⟩
    rw [furtherText_cons] at hn hc
    simp only [List.cons_append, List.append_assoc] at hc
    simp only [List.length_cons, List.length_append] at hn
    have hcomma := Cursor.rest_skipBlanks_of_visible hc rfl
    -- The comma pays for the step, so that the part and what follows fit into the others.
    obtain ⟨b, d, htake, hb, hd⟩ := h.take hgap (n := m) (by omega) (Cursor.rest_skip hcomma)
    obtain ⟨bs, next, hmore, hbs, hrest⟩ := ih h.tail m (b :: out) (by omega) hd
    refine ⟨b :: bs, next, ?_, .cons hb hbs, hrest⟩
    rw [htake.comma hcomma rfl, hmore, List.reverse_cons, List.append_assoc, List.singleton_append]

/-- **Parts are read from their text up to the ending.** -/
theorem read_parts (h : ReadsParts reader make ending text holds as) (hgap : AreBlanks gap)
    (hclose : AreBlanks close) {n : Nat} {c : Cursor} (hn : (partsText gap text as).length + 1 < n)
    (hc : c.rest = partsText gap text as ++ (close ++ ending :: rest)) :
    ∃ bs next, reader n true c [] = .ok (make bs, next) ∧ List.Forall₂ holds bs as ∧
      next.rest = rest := by
  cases as with
  | nil =>
    obtain ⟨next, hread, hrest⟩ := h.read_close hclose n true [] (Nat.zero_lt_of_lt hn) hc
    exact ⟨[], next, hread, .nil, hrest⟩
  | cons a as =>
    obtain ⟨m, rfl⟩ : ∃ m, n = m + 1 := ⟨n - 1, by omega⟩
    simp only [partsText, List.append_assoc] at hc
    simp only [partsText, List.length_append] at hn
    obtain ⟨b, d, htake, hb, hd⟩ := h.take hgap (n := m) (by omega) hc
    obtain ⟨bs, next, hmore, hbs, hrest⟩ :=
      h.tail.read_further hgap hclose m [b] (by omega) hd
    exact ⟨b :: bs, next, by rw [htake.first rfl, hmore]; rfl, .cons hb hbs, hrest⟩

end ReadsParts

end Parts

/-! ### Lists -/

theorem readItems_first {n levels : Nat} {c next : Cursor} {t : Tree} {out : List Tree} {x : Char}
    {cs : List Char} (h : c.skipBlanks.rest = x :: cs) (hx : x ≠ ']')
    (hread : readValue false n levels c.skipBlanks = .ok (t, next)) :
    readItems false (n + 1) levels true c out =
      readItems false n levels false next (t :: out) := by
  rw [readItems]
  simp only [h, if_true, pure, Except.pure, bind, Except.bind, hread]

theorem readItems_comma {n levels : Nat} {c next : Cursor} {t : Tree} {out : List Tree} {x : Char}
    {cs tail : List Char} (hcomma : c.skipBlanks.rest = ',' :: tail)
    (h : c.skipBlanks.skip.skipBlanks.rest = x :: cs) (hx : x ≠ ']')
    (hread : readValue false n levels c.skipBlanks.skip.skipBlanks = .ok (t, next)) :
    readItems false (n + 1) levels false c out =
      readItems false n levels false next (t :: out) := by
  rw [readItems]
  simp only [hcomma, Bool.false_eq_true, if_false]
  split
  · next heq => exact absurd heq (by simp)
  · next heq => exact absurd (List.cons.inj heq).1 (by decide)
  · next heq =>
    rw [← (List.cons.inj heq).1, if_pos (by decide)]
    simp only [h]
    split
    · next heq => exact absurd heq (by simp)
    · next heq => exact absurd (List.cons.inj heq).1 hx
    · simp only [pure, Except.pure, bind, Except.bind, hread]

theorem readsParts_items {text : Value → List Char} {vs : List Value} (levels : Nat)
    (h : ∀ v ∈ vs, Denotes (text v) v) :
    ReadsParts (fun n first c out => readItems false n levels first c out) .array ']' text
      Tree.Holds vs where
  visible := rfl
  close hd := by
    simp only [readItems, hd]
    rfl
  starts v hv := by
    obtain ⟨x, cs, htext, hblank, -⟩ := (h v hv).starts
    exact ⟨x, cs, htext, hblank⟩
  part v hv n c cs hn hc := by
    obtain ⟨x, tail, htext, -, hx⟩ := (h v hv).starts
    obtain ⟨t, next, hread, ht, hrest⟩ := (h v hv).read n levels areBlanks_nil hc hn
    rw [htext, List.cons_append] at hc
    refine ⟨t, next, ⟨?_, ?_⟩, ht, hrest⟩
    · rintro d out rfl
      exact readItems_first hc hx hread
    · rintro d out tail hcomma rfl
      exact readItems_comma hcomma hc hx hread

/-- **The text of a list is read as the list**, if its items are. -/
theorem denotes_array {text : Value → List Char} {gap close : List Char} (hgap : AreBlanks gap)
    (hclose : AreBlanks close) {vs : List Value} (hv : ∀ v ∈ vs, Denotes (text v) v) :
    Denotes ('[' :: (partsText gap text vs ++ (close ++ [']']))) (.array vs) where
  starts := ⟨'[', _, rfl, rfl, by decide⟩
  read n levels blanks rest c hb h hn := by
    obtain ⟨m, rfl⟩ : ∃ m, n = m + 1 := ⟨n - 1, by omega⟩
    have hstart : c.skipBlanks.rest =
        '[' :: (partsText gap text vs ++ (close ++ ']' :: rest)) := by
      rw [List.cons_append] at h
      rw [Cursor.rest_skipBlanks h hb rfl]
      simp
    simp only [List.length_cons, List.length_append] at hn
    obtain ⟨ts, next, hread, hts, hrest⟩ := (readsParts_items (levels - 1) hv).read_parts
      (n := m) hgap hclose (by omega) (Cursor.rest_skip hstart)
    refine ⟨.array ts, next, ?_, Tree.holds_array hts, hrest⟩
    simp only [readValue, hstart, Bool.false_and, Bool.false_eq_true, if_false, hread]

/-! ### Objects -/

/-- The text of a member: its key, a colon, and white space in front of its value. -/
def memberText (gap : List Char) (text : Value → List Char) (m : String × Value) : List Char :=
  (stringText m.1).toList ++ ':' :: (gap ++ text m.2)

/-- What the reader finds at the quote of a key: the key, a colon behind it, and a value. -/
structure Member (n levels : Nat) (c next : Cursor) (m : Option String × Tree) : Prop where
  quote : c.rest.head? = some '"'
  key : ∃ d cs, readString false (c.rest.length + 1) c.skip (some []) = .ok (m.1, d) ∧
    d.skipBlanks.rest = ':' :: cs ∧ readValue false n levels d.skipBlanks.skip = .ok (m.2, next)

theorem exists_member {gap : List Char} (hgap : AreBlanks gap) {text : Value → List Char}
    {m : String × Value} (hm : Denotes (text m.2) m.2) (n levels : Nat) {c : Cursor}
    {rest : List Char} (hn : (text m.2).length < n) (h : c.rest = memberText gap text m ++ rest) :
    ∃ found next, Member n levels c next found ∧ Tree.HoldsMember found m ∧ next.rest = rest := by
  have hkey : c.rest = (stringText m.1).toList ++ (':' :: (gap ++ (text m.2 ++ rest))) := by
    rw [h, memberText]
    simp
  obtain ⟨d, hread, hd⟩ := readString_stringText false m.1 hkey
  have hcolon : d.skipBlanks.rest = ':' :: (gap ++ (text m.2 ++ rest)) :=
    Cursor.rest_skipBlanks_of_visible hd rfl
  obtain ⟨t, next, hvalue, ht, hrest⟩ := hm.read n levels hgap (Cursor.rest_skip hcolon) hn
  have hquote : c.rest.head? = some '"' := by
    rw [hkey, toList_stringText]
    rfl
  exact ⟨(some m.1, t), next, ⟨hquote, d, _, hread, hcolon, hvalue⟩, ⟨rfl, ht⟩, hrest⟩

theorem Member.rest_eq {n levels : Nat} {c next : Cursor} {m : Option String × Tree}
    (h : Member n levels c next m) : ∃ rest, c.rest = '"' :: rest := by
  have hquote := h.quote
  cases hc : c.rest with
  | nil => simp [hc] at hquote
  | cons x rest => exact ⟨rest, by simpa [hc] using hquote⟩

theorem readMembers_first {n levels : Nat} {c next : Cursor} {m : Option String × Tree}
    {out : List (Option String × Tree)} (h : Member n levels c.skipBlanks next m) :
    readMembers false (n + 1) levels true c out =
      readMembers false n levels false next (m :: out) := by
  obtain ⟨rest, hrest⟩ := h.rest_eq
  obtain ⟨hquote, d, cs, hkey, hcolon, hvalue⟩ := h
  rw [readMembers]
  simp only [hrest]
  split
  · next heq => exact absurd heq (by simp)
  · next heq => exact absurd (List.cons.inj heq).1 (by decide)
  · simp only [if_true, pure, Except.pure, bind, Except.bind, hquote, beq_self_eq_true,
      Bool.not_true, Bool.false_eq_true, if_false, hkey, hcolon, hvalue]

theorem readMembers_comma {n levels : Nat} {c next : Cursor} {m : Option String × Tree}
    {cs : List Char} {out : List (Option String × Tree)} (hcomma : c.skipBlanks.rest = ',' :: cs)
    (h : Member n levels c.skipBlanks.skip.skipBlanks next m) :
    readMembers false (n + 1) levels false c out =
      readMembers false n levels false next (m :: out) := by
  obtain ⟨rest, hrest⟩ := h.rest_eq
  obtain ⟨hquote, d, cs, hkey, hcolon, hvalue⟩ := h
  rw [readMembers]
  simp only [hcomma, Bool.false_eq_true, if_false]
  split
  · next heq => exact absurd heq (by simp)
  · next heq => exact absurd (List.cons.inj heq).1 (by decide)
  · next heq =>
    rw [← (List.cons.inj heq).1, if_pos (by decide)]
    simp only [hrest]
    split
    · next heq => exact absurd heq (by simp)
    · next heq => exact absurd (List.cons.inj heq).1 (by decide)
    · simp only [pure, Except.pure, bind, Except.bind, hquote, beq_self_eq_true, Bool.not_true,
        Bool.false_eq_true, if_false, hkey, hcolon, hvalue]

theorem readsParts_members {text : Value → List Char} {space : List Char}
    (hspace : AreBlanks space) {ms : List (String × Value)} (levels : Nat)
    (h : ∀ m ∈ ms, Denotes (text m.2) m.2) :
    ReadsParts (fun n first c out => readMembers false n levels first c out) .object '\x7d'
      (memberText space text) Tree.HoldsMember ms where
  visible := rfl
  close hd := by
    simp only [readMembers, hd]
    rfl
  starts m hm := by
    rw [memberText, toList_stringText]
    exact ⟨'"', _, rfl, rfl⟩
  part m hm n c cs hn hc := by
    have hvalue : (text m.2).length < n := by
      simp only [memberText, List.length_append, List.length_cons] at hn
      omega
    obtain ⟨found, next, hfound, hholds, hrest⟩ := exists_member hspace (h m hm) n levels hvalue hc
    refine ⟨found, next, ⟨?_, ?_⟩, hholds, hrest⟩
    · rintro d out rfl
      exact readMembers_first hfound
    · rintro d out tail hcomma rfl
      exact readMembers_comma hcomma hfound

/-- **The text of an object is read as the object**, if the values of its members are. -/
theorem denotes_object {text : Value → List Char} {gap space close : List Char}
    (hgap : AreBlanks gap) (hspace : AreBlanks space) (hclose : AreBlanks close)
    {ms : List (String × Value)} (hm : ∀ m ∈ ms, Denotes (text m.2) m.2) :
    Denotes ('\x7b' :: (partsText gap (memberText space text) ms ++ (close ++ ['\x7d'])))
      (.object ms) where
  starts := ⟨'\x7b', _, rfl, rfl, by decide⟩
  read n levels blanks rest c hb h hn := by
    obtain ⟨k, rfl⟩ : ∃ k, n = k + 1 := ⟨n - 1, by omega⟩
    have hstart : c.skipBlanks.rest = '\x7b' ::
        (partsText gap (memberText space text) ms ++ (close ++ '\x7d' :: rest)) := by
      rw [List.cons_append] at h
      rw [Cursor.rest_skipBlanks h hb rfl]
      simp
    simp only [List.length_cons, List.length_append] at hn
    obtain ⟨found, next, hread, hfound, hrest⟩ :=
      (readsParts_members hspace (levels - 1) hm).read_parts (n := k) hgap hclose (by omega)
        (Cursor.rest_skip hstart)
    refine ⟨.object found, next, ?_, Tree.holds_object hfound, hrest⟩
    simp only [readValue, hstart, Bool.false_and, Bool.false_eq_true, if_false, hread]

/-! ### The texts of values -/

namespace Value

theorem toList_compactItems (v : Value) (vs : List Value) :
    (compactItems (v :: vs)).toList = partsText [] (fun w => w.compact.toList) (v :: vs) := by
  induction vs generalizing v with
  | nil => simp [compactItems, partsText, furtherText]
  | cons w vs ih =>
    simp only [compactItems, String.toList_append, ih]
    simp [partsText, furtherText_cons]

theorem toList_compactMembers (m : String × Value) (ms : List (String × Value)) :
    (compactMembers (m :: ms)).toList =
      partsText [] (memberText [] fun w => w.compact.toList) (m :: ms) := by
  induction ms generalizing m with
  | nil => simp [compactMembers, partsText, furtherText, memberText]
  | cons w ms ih =>
    simp only [compactMembers, String.toList_append, ih]
    simp [partsText, furtherText_cons, memberText]

theorem toList_prettyItems (level : Nat) (v : Value) (vs : List Value) :
    (prettyItems level (v :: vs)).toList =
      partsText (newLine level).toList (fun w => (w.prettyAt level).toList) (v :: vs) := by
  induction vs generalizing v with
  | nil => simp [prettyItems, partsText, furtherText]
  | cons w vs ih =>
    simp only [prettyItems, String.toList_append, ih]
    simp [partsText, furtherText_cons]

theorem toList_prettyMembers (level : Nat) (m : String × Value) (ms : List (String × Value)) :
    (prettyMembers level (m :: ms)).toList = partsText (newLine level).toList
      (memberText [' '] fun w => (w.prettyAt level).toList) (m :: ms) := by
  induction ms generalizing m with
  | nil => simp [prettyMembers, partsText, furtherText, memberText]
  | cons w ms ih =>
    simp only [prettyMembers, String.toList_append, ih]
    simp [partsText, furtherText_cons, memberText]

theorem areBlanks_newLine (level : Nat) : AreBlanks (newLine level).toList := by
  intro x hx
  simp only [newLine, String.toList_append, String.toList_ofList, List.mem_append] at hx
  rcases hx with hx | hx
  · rw [List.mem_singleton.1 hx]
    rfl
  · rw [List.eq_of_mem_replicate hx]
    rfl

/-- A value in which no numbers occur. -/
inductive Wordy : Value → Prop
  | null : Wordy .null
  | bool (b : Bool) : Wordy (.bool b)
  | string (s : String) : Wordy (.string s)
  | array {vs : List Value} (h : ∀ v ∈ vs, Wordy v) : Wordy (.array vs)
  | object {ms : List (String × Value)} (h : ∀ m ∈ ms, Wordy m.2) : Wordy (.object ms)

/-- A value without numbers is read back from its compact text. -/
theorem Wordy.denotes_compact {v : Value} (h : v.Wordy) : Denotes v.compact.toList v := by
  induction h with
  | null => exact denotes_null
  | bool b => exact denotes_bool b
  | string s => exact denotes_string s
  | @array vs _ ih =>
    have htext : (compact (.array vs)).toList =
        '[' :: (partsText [] (fun w => w.compact.toList) vs ++ ([] ++ [']'])) := by
      cases vs with
      | nil => rfl
      | cons v vs => simp [compact, toList_compactItems]
    rw [htext]
    exact denotes_array areBlanks_nil areBlanks_nil ih
  | @object ms _ ih =>
    have htext : (compact (.object ms)).toList = '\x7b' ::
        (partsText [] (memberText [] fun w => w.compact.toList) ms ++ ([] ++ ['\x7d'])) := by
      cases ms with
      | nil => rfl
      | cons m ms => simp [compact, toList_compactMembers]
    rw [htext]
    exact denotes_object areBlanks_nil areBlanks_nil areBlanks_nil ih

theorem Wordy.denotes_prettyAt {v : Value} (h : v.Wordy) (level : Nat) :
    Denotes (v.prettyAt level).toList v := by
  induction h generalizing level with
  | null => exact denotes_null
  | bool b => exact denotes_bool b
  | string s => exact denotes_string s
  | @array vs hw ih =>
    cases vs with
    -- A list or an object without parts has no line of its own.
    | nil => exact Wordy.denotes_compact (.array hw)
    | cons v vs =>
      have htext : (prettyAt level (.array (v :: vs))).toList =
          '[' :: (partsText (newLine (level + 1)).toList
            (fun w => (w.prettyAt (level + 1)).toList) (v :: vs) ++
              ((newLine level).toList ++ [']'])) := by
        simp [prettyAt, toList_prettyItems]
      rw [htext]
      exact denotes_array (areBlanks_newLine _) (areBlanks_newLine _) fun w hm => ih w hm _
  | @object ms hw ih =>
    cases ms with
    | nil => exact Wordy.denotes_compact (.object hw)
    | cons m ms =>
      have htext : (prettyAt level (.object (m :: ms))).toList =
          '\x7b' :: (partsText (newLine (level + 1)).toList
            (memberText [' '] fun w => (w.prettyAt (level + 1)).toList) (m :: ms) ++
              ((newLine level).toList ++ ['\x7d'])) := by
        simp [prettyAt, toList_prettyMembers]
      rw [htext]
      exact denotes_object (areBlanks_newLine _) (by simp [AreBlanks, isBlank])
        (areBlanks_newLine _) fun w hm => ih w hm _

/-- A text that denotes a value and nothing else is read as a tree that holds the value. -/
theorem exists_tree_of_denotes {text : String} {v : Value} (h : Denotes text.toList v) :
    ∃ t, Tree.read false text = .ok t ∧ t.Holds v := by
  have hstart : (⟨text.toList, 1, 0⟩ : Cursor).rest = text.toList ++ [] := (List.append_nil _).symm
  obtain ⟨t, next, hread, ht, hrest⟩ := h.read (2 * text.toList.length + 2) maxDepth
    areBlanks_nil hstart (by omega)
  have hend : next.skipBlanks.rest = [] := by
    rw [Cursor.rest_skipBlanks_eq, hrest]
    rfl
  refine ⟨t, ?_, ht⟩
  simp only [Tree.read, hread, bind, Except.bind, hend]
  rfl

/-- **The compact text of a value without numbers is read as a tree that holds the value.** -/
theorem Wordy.read_compact {v : Value} (h : v.Wordy) :
    ∃ t, Tree.read false v.compact = .ok t ∧ t.Holds v :=
  exists_tree_of_denotes h.denotes_compact

/-- **So is its text on lines of its own.** -/
theorem Wordy.read_pretty {v : Value} (h : v.Wordy) :
    ∃ t, Tree.read false v.pretty = .ok t ∧ t.Holds v :=
  exists_tree_of_denotes (h.denotes_prettyAt 0)

end Value

end CommandMenu.Json
