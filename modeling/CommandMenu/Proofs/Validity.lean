import CommandMenu.Menu.Document
import CommandMenu.Proofs.Meaning

/-! # Built menus are valid

A menu shows nothing blank: every group has a name and every action an id that is more than white
space, and so is every attribute that is set.

* `Action.Valid`, `GroupOf.Labelled`, `Item.Valid` and `Group.Valid` say so at every depth.
* `Rule.Gives.valid_action` and `Rule.Gives.labelled` say it of every rule, `Item.Means.valid` of
  every meaning.
* `Group.built_valid` says it of every item, document and file that is built. -/

namespace CommandMenu

/-- A text of which trimming leaves something. -/
def Text.Filled (s : String) : Prop := Text.trim s ≠ ""

/-- An action without any blank text. -/
structure Action.Valid (a : Action) : Prop where
  id : Text.Filled a.id
  name : ∀ s ∈ a.name, Text.Filled s
  color : ∀ s ∈ a.color, Text.Filled s
  icon : ∀ s ∈ a.icon, Text.Filled s
  keycode : ∀ s ∈ a.keycode, Text.Filled s

/-- A group whose own texts are not blank. -/
structure GroupOf.Labelled {ι : Type} (g : GroupOf ι) : Prop where
  name : Text.Filled g.name
  keycode : ∀ s ∈ g.keycode, Text.Filled s
  icon : ∀ s ∈ g.icon, Text.Filled s
  color : ∀ s ∈ g.color, Text.Filled s

/-- An item without any blank text at any depth. -/
inductive Item.Valid : Item → Prop
  | action {a : Action} (h : a.Valid) : Valid (.action a)
  | group {g : GroupOf Item} (h : g.Labelled) (hi : ∀ item ∈ g.items, Valid item) :
      Valid (.group g)

/-- A group without any blank text at any depth. -/
def Group.Valid (g : Group) : Prop := g.Labelled ∧ ∀ item ∈ g.items, item.Valid

/-! ### Texts that are taken over -/

theorem Text.filled_of_hasText {s : String} (h : Text.hasText s = true) : Text.Filled s :=
  Text.hasText_iff.mp h

theorem Text.filled_of_nonBlank {s : String} : ∀ t ∈ Text.nonBlank s, Text.Filled t := by
  intro t ht
  obtain ⟨hs, rfl⟩ := Text.nonBlank_eq_some_iff.mp ht
  exact Text.filled_of_hasText hs

theorem Option.forall_mem_or {α : Type} {P : α → Prop} {x y : Option α} (hx : ∀ a ∈ x, P a)
    (hy : ∀ a ∈ y, P a) : ∀ a ∈ x.or y, P a := by
  cases x with
  | none => simpa using hy
  | some b => simpa using hx

namespace CommandText

variable {s : String} {c : CommandText}

theorem filled_id (h : ofText? s = some c) : Text.Filled c.id :=
  Text.filled_of_hasText (hasText_id h)

theorem filled_name (h : ofText? s = some c) : ∀ t ∈ c.name, Text.Filled t :=
  fun _ ht => Text.filled_of_hasText (hasText_name h ht)

end CommandText

namespace Fields

variable (m : Fields Value)

theorem filled_text? (key : String) : ∀ t ∈ m.text? key, Text.Filled t := by
  intro t ht
  obtain ⟨v, -, hv⟩ := Option.bind_eq_some_iff.mp ht
  obtain ⟨s, -, hs⟩ := Option.bind_eq_some_iff.mp hv
  exact Text.filled_of_nonBlank t hs

theorem filled_nameUnder (outer : Option String) : ∀ t ∈ m.nameUnder outer, Text.Filled t := by
  intro t ht
  cases outer with
  | none => exact m.filled_text? "name" t ht
  | some key =>
      unfold nameUnder at ht
      split_ifs at ht
      · exact m.filled_text? "name" t ht
      · exact Text.filled_of_nonBlank t ht

theorem filled_keycodeUnder (outer : Option String) :
    ∀ t ∈ m.keycodeUnder outer, Text.Filled t := by
  intro t ht
  cases outer with
  | none => exact m.filled_text? "keycode" t ht
  | some key =>
      unfold keycodeUnder at ht
      split_ifs at ht
      · exact Text.filled_of_nonBlank t ht
      · exact m.filled_text? "keycode" t ht

end Fields

/-! ### Every rule is valid -/

theorem Rule.Gives.valid_action {r : Rule} {v : Value} {a : Action}
    (h : Rule.Gives r v (.action a)) : a.Valid := by
  have none_filled : ∀ t ∈ (none : Option String), Text.Filled t := by simp
  cases h with
  | command hc =>
      exact ⟨CommandText.filled_id hc, CommandText.filled_name hc, none_filled, none_filled,
        none_filled⟩
  | keyedCommand hm hc =>
      exact ⟨CommandText.filled_id hc, CommandText.filled_name hc, none_filled, none_filled,
        Text.filled_of_nonBlank⟩
  | bareCommand hm hc =>
      exact ⟨CommandText.filled_id hc, CommandText.filled_name hc, none_filled, none_filled,
        none_filled⟩
  | qualifiedKey hm hi hq hc =>
      exact ⟨CommandText.filled_id hc,
        Option.forall_mem_or (Fields.filled_text? _ _) (CommandText.filled_name hc),
        Fields.filled_text? _ _, Fields.filled_text? _ _, Fields.filled_text? _ _⟩
  | @keyedAction m b k id hm hi hq hid =>
      exact ⟨Fields.filled_text? _ _ _ hid, b.canonical.filled_nameUnder (some k),
        Fields.filled_text? _ _, Fields.filled_text? _ _,
        b.canonical.filled_keycodeUnder (some k)⟩
  | action hm hi hid =>
      exact ⟨Fields.filled_text? _ _ _ hid, Fields.filled_text? _ _, Fields.filled_text? _ _,
        Fields.filled_text? _ _, Fields.filled_text? _ _⟩

theorem Rule.Gives.labelled {r : Rule} {v items : Value} {head : GroupOf Value}
    {route : List String} (h : Rule.Gives r v (.group head route items)) : head.Labelled := by
  cases h with
  | namedList hm hk =>
      exact ⟨Text.filled_of_hasText hk, by simp, by simp, by simp⟩
  | @keyedGroup m b k name items hm hi hn =>
      exact ⟨Fields.filled_nameUnder _ _ _ hn, b.canonical.filled_keycodeUnder (some k),
        Fields.filled_text? _ _, Fields.filled_text? _ _⟩
  | group hm hi hn =>
      exact ⟨Fields.filled_text? _ _ _ hn, Fields.filled_text? _ _, Fields.filled_text? _ _,
        Fields.filled_text? _ _⟩

theorem GroupOf.Labelled.with_items {ι κ : Type} {g : GroupOf ι} (h : g.Labelled)
    (items : List κ) : ({ g with items := items } : GroupOf κ).Labelled :=
  ⟨h.name, h.keycode, h.icon, h.color⟩

/-! ### Every meaning is valid -/

theorem Item.Means.valid (v : Value) : ∀ item, Item.Means v item → item.Valid := by
  induction v using Value.induction with
  | step v ih =>
      intro item h
      cases h with
      | action h => exact .action h.valid_action
      | group h hi =>
          refine .group (h.labelled.with_items _) fun item hitem => ?_
          obtain ⟨w, hw, hm⟩ := exists_mem_of_forall₂ hi hitem
          exact ih _ _ _ _ (Shape.ofValue_of_gives h Position.root) w hw item hm
      | empty h ho => exact .group (h.labelled.with_items _) (by simp)

/-! ### Documents and files -/

theorem Group.filled_rootName : Text.Filled Group.rootName := Text.filled_of_hasText (by decide)

theorem Document.labelled {v items : Value} {head : GroupOf Value} {route : List String}
    (h : Document v head route items) : head.Labelled := by
  cases h with
  | list vs => exact ⟨Group.filled_rootName, by simp, by simp, by simp⟩
  | @map m items hi =>
      refine ⟨?_, Fields.filled_text? _ _, Fields.filled_text? _ _, Fields.filled_text? _ _⟩
      cases hn : m.canonical.text? "name" with
      | none => exact Group.filled_rootName
      | some name => exact m.canonical.filled_text? "name" name hn

theorem Item.buildItems_valid {place : Position} {items : Value} {built : List Item}
    (h : (Item.buildItems place (some items)).result = .ok built) : ∀ item ∈ built, item.Valid := by
  rw [Item.buildItems_eq_ok_iff fun vs _ v _ => Item.build_eq_ok_iff v] at h
  intro item hitem
  rcases h with ⟨vs, rfl, hi⟩ | ⟨-, rfl⟩
  · obtain ⟨v, hv, hm⟩ := exists_mem_of_forall₂ hi hitem
    exact hm.valid
  · cases hitem

theorem Group.valid_of_build {v : Value} {g : Group} (h : (Group.build v).result = .ok g) :
    g.Valid := by
  rcases Group.document_or_refuse v with ⟨head, route, items, hd⟩ | ⟨found, hf⟩
  · rw [Group.build_of_document hd, Except.map_eq_ok_iff] at h
    obtain ⟨built, hb, rfl⟩ := h
    exact ⟨hd.labelled.with_items _, Item.buildItems_valid hb⟩
  · rw [hf] at h
    cases h

theorem Group.valid_of_ofYamlText {text : String} {g : Group}
    (h : (Group.ofYamlText text).result = .ok g) : g.Valid := by
  unfold Group.ofYamlText at h
  cases hv : Value.read text with
  | error f =>
      rw [Outcome.bind_of_error (x := Outcome.ofExcept (Value.read text)) hv] at h
      cases h
  | ok v =>
      rw [Outcome.bind_of_ok (x := Outcome.ofExcept (Value.read text)) hv] at h
      exact Group.valid_of_build h

theorem Group.valid_root_nil : (Group.root []).Valid :=
  ⟨(Document.list []).labelled.with_items _, by simp [Group.root]⟩

theorem Reading.valid_of_build {format : Format} {contents : String} {g : Group} {found : Bool}
    (h : (Reading.build format contents).result = .ok (g, found)) : g.Valid := by
  unfold Reading.build at h
  cases format with
  | yaml =>
      dsimp only at h
      rw [Outcome.bind_pure_comp, Except.map_eq_ok_iff] at h
      obtain ⟨t, ht, he⟩ := h
      cases he
      exact Group.valid_of_ofYamlText ht
  | markdown =>
      dsimp only at h
      split at h
      · rw [Outcome.bind_pure_comp, Except.map_eq_ok_iff] at h
        obtain ⟨t, ht, he⟩ := h
        cases he
        exact Group.valid_of_ofYamlText ht
      · cases h
        exact Group.valid_root_nil

/-- **Built menus are valid**: an item or a document that a builder builds, and the menu of every
file that can be read. -/
theorem Group.built_valid :
    (∀ (b : Builder) (v : Value) (item : Item), (b.item v).1 = .ok item → item.Valid) ∧
      (∀ (b : Builder) (v : Value) (g : Group), (b.document v).1 = .ok g → g.Valid) ∧
      ∀ (file contents : String) (now : Instant) (r : Reading),
        Reading.ofContents file contents now = .ok r → r.configuration.actions.Valid := by
  refine ⟨fun b v item h => ?_, fun b v g h => ?_, fun file contents now r h => ?_⟩
  · rw [Builder.item_result, Item.build_eq_ok_iff] at h
    exact h.valid
  · exact Group.valid_of_build h
  · unfold Reading.ofContents at h
    dsimp only at h
    rw [Except.map_eq_ok_iff] at h
    obtain ⟨⟨g, found⟩, hg, rfl⟩ := h
    exact Reading.valid_of_build hg

/-- A group that takes its key as a keycode and drops a blank icon, a document without items, and a
file without a menu. -/
theorem Group.built_valid_tabs :
    (Item.group { name := "Tabs", keycode := some "t" }).Valid ∧ (Group.root []).Valid ∧
      (⟨⟨Group.root [], .markdown, default⟩, [], false⟩ : Reading).configuration.actions.Valid := by
  have hg := @Rule.Gives.keyedGroup
    ⟨[("t", .map ⟨[("name", .string "Tabs"), ("icon", .string " "), ("items", .null)]⟩)]⟩
    _ "t" "Tabs" _ rfl rfl (by decide)
  have hi : (({} : Builder).item _).1 = _ :=
    (Item.build_eq_ok_iff _ Position.root _).mpr (.empty hg (by simp))
  have hd : (({} : Builder).document (.list [])).1 = .ok (Group.root []) := by
    show (Group.build _).result = _
    rw [Group.build_of_document (.list []), Item.buildItems_of_flaw .noItems]
    rfl
  refine ⟨Group.built_valid.1 {} _ _ hi, Group.built_valid.2.1 {} _ _ hd, ?_⟩
  exact Group.built_valid.2.2 "menu.md" "no menu" default _ (by rfl)

end CommandMenu
