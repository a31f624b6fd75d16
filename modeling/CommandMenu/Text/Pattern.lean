/-! # Patterns

A pattern takes the start of a text, often in several ways.  They are tried in a fixed order, and the
first one behind which the rest of the pattern fits counts.

* `Pattern` is the type; `Pattern.several`, `Pattern.literal`, `Pattern.anyOf` and `Pattern.optional`
  are made of its constructors.
* `Pattern.ways` lists the ways to take the start of a text in the order in which they are tried, each
  with what the named parts of the pattern take in it.
* The lemmas `Pattern.mem_ways_…` tell for each kind of pattern what its ways are.
-/

namespace CommandMenu.Text

/-- A pattern for the start of a text. -/
inductive Pattern where
  /-- Takes nothing. -/
  | empty
  /-- Takes nothing, and only at the end of the text. -/
  | stop
  /-- Takes one character of a kind. -/
  | one (kind : Char → Bool)
  /-- Takes any number of characters of a kind, more rather than less. -/
  | many (kind : Char → Bool)
  | both (first second : Pattern)
  /-- Takes what one of two patterns takes, the first one rather than the second one. -/
  | either (first second : Pattern)
  | named (name : String) (inner : Pattern)

namespace Pattern

/-- A way to take the start of a text: what is taken and what is left, and what the named parts of
the pattern take. -/
structure Way where
  taken : List Char
  left : List Char
  parts : List (String × List Char) := []
deriving DecidableEq, Repr

/-- What the part of a pattern with a name takes, if it takes part at all. -/
def Way.part? (w : Way) (name : String) : Option (List Char) := w.parts.lookup name

/-- The ways to take characters of a kind. -/
def waysOfMany (kind : Char → Bool) : List Char → List Way
  | [] => [⟨[], [], []⟩]
  | c :: cs =>
    if kind c then
      (waysOfMany kind cs).map (fun w => { w with taken := c :: w.taken }) ++ [⟨[], c :: cs, []⟩]
    else [⟨[], c :: cs, []⟩]

/-- The ways to take the start of a text, in the order in which they are tried. -/
def ways : Pattern → List Char → List Way
  | empty, cs => [⟨[], cs, []⟩]
  | stop, cs => if cs.isEmpty then [⟨[], cs, []⟩] else []
  | one _, [] => []
  | one kind, c :: cs => if kind c then [⟨[c], cs, []⟩] else []
  | many kind, cs => waysOfMany kind cs
  | both first second, cs => (first.ways cs).flatMap fun u =>
    (second.ways u.left).map fun v => ⟨u.taken ++ v.taken, v.left, u.parts ++ v.parts⟩
  | either first second, cs => first.ways cs ++ second.ways cs
  | named name inner, cs =>
    (inner.ways cs).map fun w => { w with parts := (name, w.taken) :: w.parts }

/-- Takes one or more characters of a kind, more rather than less. -/
def several (kind : Char → Bool) : Pattern := both (one kind) (many kind)

/-- Takes one text. -/
def literal (cs : List Char) : Pattern :=
  cs.foldr (fun c rest => both (one fun d => d == c) rest) empty

/-- Takes what one of some patterns takes, an earlier one rather than a later one. -/
def anyOf (patterns : List Pattern) : Pattern := patterns.foldr either (one fun _ => false)

/-- Takes what a pattern takes rather than nothing. -/
def optional (inner : Pattern) : Pattern := either inner empty

/-! ### What the ways are -/

section Ways

variable {w : Way} {cs : List Char} {kind : Char → Bool} {a b : Pattern}

attribute [local simp] ways

theorem mem_ways_empty : w ∈ empty.ways cs ↔ w = ⟨[], cs, []⟩ := List.mem_singleton

theorem mem_ways_stop : w ∈ stop.ways cs ↔ cs = [] ∧ w = ⟨[], [], []⟩ := by
  cases cs <;> simp

theorem mem_ways_one : w ∈ (one kind).ways cs ↔
    ∃ c rest, cs = c :: rest ∧ kind c = true ∧ w = ⟨[c], rest, []⟩ := by
  cases cs with
  | nil => simp
  | cons c rest =>
      rw [ways]
      constructor
      · intro h
        split at h
        · next hc => exact ⟨c, rest, rfl, hc, List.mem_singleton.mp h⟩
        · cases h
      · rintro ⟨d, left, h, hd, rfl⟩
        obtain ⟨rfl, rfl⟩ := List.cons.inj h
        rw [if_pos hd]
        exact List.mem_singleton_self _

/-- As many characters of the kind are taken as one likes. -/
theorem mem_ways_many : w ∈ (many kind).ways cs ↔
    ∃ taken left, cs = taken ++ left ∧ (∀ c ∈ taken, kind c = true) ∧ w = ⟨taken, left, []⟩ := by
  rw [ways]
  induction cs generalizing w with
  | nil =>
      simp only [waysOfMany, List.mem_singleton]
      constructor
      · rintro rfl
        exact ⟨[], [], rfl, by simp, rfl⟩
      · rintro ⟨taken, left, h, -, rfl⟩
        obtain ⟨rfl, rfl⟩ := List.append_eq_nil_iff.mp h.symm
        rfl
  | cons c cs ih =>
      constructor
      · intro h
        rw [waysOfMany] at h
        split at h
        · next hc =>
            rcases List.mem_append.mp h with h | h
            · obtain ⟨u, hu, rfl⟩ := List.mem_map.mp h
              obtain ⟨taken, left, rfl, ht, rfl⟩ := ih.mp hu
              exact ⟨c :: taken, left, rfl, List.forall_mem_cons.mpr ⟨hc, ht⟩, rfl⟩
            · exact ⟨[], c :: cs, rfl, by simp, List.mem_singleton.mp h⟩
        · exact ⟨[], c :: cs, rfl, by simp, List.mem_singleton.mp h⟩
      · rintro ⟨taken, left, h, ht, rfl⟩
        rw [waysOfMany]
        cases taken with
        | nil =>
            rw [List.nil_append] at h
            subst h
            split <;> simp
        | cons d taken =>
            obtain ⟨rfl, rfl⟩ := List.cons.inj h
            obtain ⟨hc, ht⟩ := List.forall_mem_cons.mp ht
            rw [if_pos hc]
            refine List.mem_append_left _ (List.mem_map.mpr ⟨⟨taken, left, []⟩, ?_, rfl⟩)
            exact ih.mpr ⟨taken, left, rfl, ht, rfl⟩

theorem mem_ways_both : w ∈ (both a b).ways cs ↔ ∃ u ∈ a.ways cs, ∃ v ∈ b.ways u.left,
    w = ⟨u.taken ++ v.taken, v.left, u.parts ++ v.parts⟩ := by
  simp only [ways, List.mem_flatMap, List.mem_map, eq_comm]

theorem mem_ways_either : w ∈ (either a b).ways cs ↔ w ∈ a.ways cs ∨ w ∈ b.ways cs :=
  List.mem_append

theorem mem_ways_named {name : String} : w ∈ (named name a).ways cs ↔
    ∃ u ∈ a.ways cs, w = ⟨u.taken, u.left, (name, u.taken) :: u.parts⟩ := by
  simp only [ways, List.mem_map, eq_comm]

theorem mem_ways_several : w ∈ (several kind).ways cs ↔ ∃ taken left, cs = taken ++ left ∧
    taken ≠ [] ∧ (∀ c ∈ taken, kind c = true) ∧ w = ⟨taken, left, []⟩ := by
  refine mem_ways_both.trans ?_
  constructor
  · rintro ⟨u, hu, v, hv, rfl⟩
    obtain ⟨c, rest, rfl, hc, rfl⟩ := mem_ways_one.mp hu
    obtain ⟨taken, left, rfl, ht, rfl⟩ := mem_ways_many.mp hv
    exact ⟨c :: taken, left, rfl, by simp, List.forall_mem_cons.mpr ⟨hc, ht⟩, rfl⟩
  · rintro ⟨taken, left, rfl, hn, ht, rfl⟩
    obtain ⟨c, taken, rfl⟩ := List.exists_cons_of_ne_nil hn
    obtain ⟨hc, ht⟩ := List.forall_mem_cons.mp ht
    exact ⟨⟨[c], taken ++ left, []⟩, mem_ways_one.mpr ⟨c, _, rfl, hc, rfl⟩,
      ⟨taken, left, []⟩, mem_ways_many.mpr ⟨taken, left, rfl, ht, rfl⟩, rfl⟩

theorem mem_ways_literal {text : List Char} : w ∈ (literal text).ways cs ↔
    ∃ left, cs = text ++ left ∧ w = ⟨text, left, []⟩ := by
  induction text generalizing w cs with
  | nil => exact mem_ways_empty.trans (by simp)
  | cons c text ih =>
      refine mem_ways_both.trans ?_
      constructor
      · rintro ⟨u, hu, v, hv, rfl⟩
        obtain ⟨d, rest, rfl, hd, rfl⟩ := mem_ways_one.mp hu
        obtain ⟨left, rfl, rfl⟩ := ih.mp hv
        exact ⟨left, by rw [beq_iff_eq.mp hd, List.cons_append], by rw [beq_iff_eq.mp hd]; rfl⟩
      · rintro ⟨left, rfl, rfl⟩
        exact ⟨⟨[c], text ++ left, []⟩, mem_ways_one.mpr ⟨c, _, rfl, by simp, rfl⟩,
          ⟨text, left, []⟩, ih.mpr ⟨left, rfl, rfl⟩, rfl⟩

theorem mem_ways_anyOf {patterns : List Pattern} :
    w ∈ (anyOf patterns).ways cs ↔ ∃ p ∈ patterns, w ∈ p.ways cs := by
  induction patterns with
  | nil => cases cs <;> simp [anyOf]
  | cons p rest ih => exact mem_ways_either.trans ((or_congr_right ih).trans (by simp))

theorem mem_ways_optional : w ∈ (optional a).ways cs ↔ w ∈ a.ways cs ∨ w = ⟨[], cs, []⟩ :=
  mem_ways_either.trans (or_congr_right mem_ways_empty)

end Ways
end Pattern
end CommandMenu.Text
