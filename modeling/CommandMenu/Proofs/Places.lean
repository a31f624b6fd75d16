import CommandMenu.Proofs.Build
import CommandMenu.Proofs.Canonical
import CommandMenu.Proofs.Rules

/-! # Places in a document

A position leads from a value to a part of it, with canonical field names all the way.

* `Value.at?` follows the steps of a position.
* `Value.Route` says that some keys lead from one value to another; `Rule.Gives.route` and
  `Document.route` say that the items of a group stand where their position says.
* `Position.display_eq_render` says that a position within a list has a text, and
  `Position.eq_of_isPrefix_index` reads the number of an element back from a text. -/

namespace CommandMenu

/-! ### Following a position -/

namespace Value

/-- The part of a value that one step leads to. -/
def child? : Value → Step → Option Value
  | .map m, .key name => m.get? name
  | .list vs, .index i => vs[i]?
  | _, _ => none

/-- The part of a value that some steps lead to. -/
def at? (v : Value) : List Step → Option Value
  | [] => some v
  | s :: rest => (v.child? s).bind fun w => w.at? rest

/-- A number leads into a list. -/
theorem at?_element (before after : List Value) (v : Value) (rest : List Step) :
    (list (before ++ v :: after)).canonical.at? (.index before.length :: rest) =
      v.canonical.at? rest := by
  have h : (before ++ v :: after)[before.length]? = some v := by simp
  rw [canonical_list, at?, child?, List.getElem?_map, h]
  rfl

/-- Some keys lead from one value to another, however the way goes on from there. -/
def Route (v : Value) (keys : List String) (w : Value) : Prop :=
  ∀ rest, v.canonical.at? (keys.map .key ++ rest) = w.canonical.at? rest

variable {m : Fields Value} {k : String} {v w : Value} {keys : List String}

theorem Route.refl : Route v [] v := fun _ => rfl

/-- A key leads into a map with canonical field names. -/
theorem Route.cons (h : m.canonical.get? k = some v) (hr : v.Route keys w) :
    (map m).Route (k :: keys) w := by
  intro rest
  rw [canonical_map, List.map_cons, List.cons_append, at?, child?, Fields.get?_map, h]
  exact hr rest

theorem Route.at? (h : v.Route keys w) : v.canonical.at? (keys.map .key) = some w.canonical := by
  have hr := h []
  rwa [List.append_nil] at hr

end Value

/-! ### The items of a group -/

theorem Fields.get?_of_entries {α : Type} {m : Fields α} {k : String} {v : α}
    (h : m.entries = [(k, v)]) : m.get? k = some v := by
  unfold Fields.get?
  rw [h, Fields.lookup, if_pos rfl]

/-- **The items of a group stand where their position says.** -/
theorem Rule.Gives.route {r : Rule} {v items : Value} {head : GroupOf Value} {keys : List String}
    (h : Rule.Gives r v (.group head keys items)) : v.Route keys items := by
  cases h with
  | namedList hm hk => exact .cons (Fields.get?_of_entries hm) .refl
  | keyedGroup hm hi hn => exact .cons (Fields.get?_of_entries hm) (.cons hi .refl)
  | group hm hi hn => exact .cons hi .refl

theorem Document.route {v items : Value} {head : GroupOf Value} {keys : List String}
    (h : Document v head keys items) : v.Route keys items := by
  cases h with
  | list vs => exact .refl
  | map hi => exact .cons hi .refl

/-! ### Texts of positions -/

namespace Position

/-- The key that a value is found under.  An element of a list has none, nor has the whole
document. -/
def outerKey? (p : Position) : Option String :=
  match p.steps.getLast? with
  | some (.key name) => some name
  | _ => none

variable (p : Position)

@[simp] theorem outerKey?_key (name : String) : (p.key name).outerKey? = some name := by
  simp [outerKey?, key]

@[simp] theorem outerKey?_index (number : Nat) : (p.index number).outerKey? = none := by
  simp [outerKey?, index]

theorem extend_ne_empty {path : String} (h : path ≠ "") (s : Step) : s.extend path ≠ "" := by
  cases s with
  | key name => simp [Step.extend, h]
  | index number => simp [Step.extend]

/-- A text that is not empty stays the start of what is written behind it. -/
theorem isPrefix_foldl_extend {path : String} (steps : List Step) (h : path ≠ "") :
    path.toList <+: (steps.foldl Step.extend path).toList := by
  induction steps generalizing path with
  | nil => exact List.prefix_rfl
  | cons s rest ih =>
      refine List.IsPrefix.trans ?_ (ih (extend_ne_empty h s))
      cases s with
      | key name => simp [Step.extend, h]
      | index number => simp [Step.extend]

theorem foldl_extend_ne_empty {path : String} (steps : List Step) (h : path ≠ "") :
    steps.foldl Step.extend path ≠ "" := by
  intro he
  have hp := isPrefix_foldl_extend steps h
  rw [he] at hp
  exact h (by simpa using hp)

theorem render_ne_empty_of_index {i : Nat} (h : .index i ∈ p.steps) : p.render ≠ "" := by
  obtain ⟨before, after, hs⟩ := List.append_of_mem h
  unfold render
  rw [hs, List.foldl_append, List.foldl_cons]
  exact foldl_extend_ne_empty after (by simp [Step.extend])

/-- A position within a list is displayed by its text. -/
theorem display_eq_render {i : Nat} (h : .index i ∈ p.steps) : p.display = p.render := by
  unfold display
  rw [if_neg]
  simpa using p.render_ne_empty_of_index h

theorem render_index (n : Nat) :
    (p.index n).render = p.render ++ "[" ++ toString n ++ "]" := by
  simp [render, index, Step.extend]

variable {p}

theorem isPrefix_render (h : p.render ≠ "") (steps : List Step) :
    p.render.toList <+: (render ⟨p.steps ++ steps⟩).toList := by
  have hr : render ⟨p.steps ++ steps⟩ = steps.foldl Step.extend p.render := List.foldl_append
  rw [hr]
  exact isPrefix_foldl_extend steps h

theorem takeWhile_digits (n : Nat) (rest : List Char) :
    ((toString n).toList ++ ']' :: rest).takeWhile (· != ']') = Nat.toDigits 10 n := by
  have hd : ∀ c ∈ Nat.toDigits 10 n, (c != ']') = true := by
    intro c hc
    have := Nat.isDigit_of_mem_toDigits (by decide) (by decide) hc
    rw [bne_iff_ne]
    rintro rfl
    simp at this
  rw [Nat.toString_eq_repr, Nat.toList_repr, List.takeWhile_append_of_pos hd]
  simp

/-- The number of an element can be read off every text that starts with its position. -/
theorem eq_of_isPrefix_index {m n : Nat} {text : List Char}
    (hm : (p.index m).render.toList <+: text) (hn : (p.index n).render.toList <+: text) :
    m = n := by
  obtain ⟨s, rfl⟩ := hm
  obtain ⟨t, ht⟩ := hn
  simp only [render_index, String.toList_append, List.append_assoc,
    List.append_cancel_left_eq] at ht
  have hd := congrArg (List.takeWhile (· != ']')) ht
  simp only [String.reduceToList, List.singleton_append, takeWhile_digits] at hd
  rw [← Nat.ofDigitChars_ten_toDigits (n := m), ← hd, Nat.ofDigitChars_ten_toDigits]

end Position
end CommandMenu
