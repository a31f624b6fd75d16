import CommandMenu.Proofs.Build
import CommandMenu.Proofs.Rules
import Mathlib.Data.List.Forall2

/-! # What an item means

The rules of a menu document, carried on into the items of groups, give values their meaning: an
action, or a group of what the elements of a list mean.  A group whose `items` are not a list is
empty.

* `Item.Means` is the relation between values and items.
* `Item.build_eq_ok_iff` says that exactly the values with a meaning are built, into what they mean
  and wherever they stand.
* `Builder.item_eq_ok_iff_means` is the same for a builder, with the fact that a value has at most
  one meaning by at most one rule. -/

namespace CommandMenu

/-- A value means an item. -/
inductive Item.Means : Value → Item → Prop
  | action {r : Rule} {v : Value} {a : Action} (h : Rule.Gives r v (.action a)) :
      Means v (.action a)
  | group {r : Rule} {v : Value} {head : GroupOf Value} {route : List String} {vs : List Value}
      {items : List Item} (h : Rule.Gives r v (.group head route (.list vs)))
      (hi : List.Forall₂ Means vs items) : Means v (.group { head with items := items })
  | empty {r : Rule} {v : Value} {head : GroupOf Value} {route : List String} {other : Value}
      (h : Rule.Gives r v (.group head route other)) (ho : ∀ vs, other ≠ .list vs) :
      Means v (.group { head with items := [] })

namespace Item

/-- What the items of a group mean. -/
def ItemsMean (items : Value) (built : List Item) : Prop :=
  (∃ vs, items = .list vs ∧ List.Forall₂ Means vs built) ∨ (∀ vs, items ≠ .list vs) ∧ built = []

/-! ### The meaning below a rule -/

theorem exists_gives_of_means {v : Value} {item : Item} (h : Means v item) :
    ∃ r o, Rule.Gives r v o := by
  cases h with
  | action h => exact ⟨_, _, h⟩
  | group h _ => exact ⟨_, _, h⟩
  | empty h _ => exact ⟨_, _, h⟩

theorem means_iff_of_action {r : Rule} {v : Value} {a : Action} {item : Item}
    (hg : Rule.Gives r v (.action a)) : Means v item ↔ item = .action a := by
  constructor
  · intro h
    cases h with
    | action h => cases (hg.unique h).2; rfl
    | group h _ => cases (hg.unique h).2
    | empty h _ => cases (hg.unique h).2
  · rintro rfl
    exact .action hg

theorem means_iff_of_group {r : Rule} {v items : Value} {head : GroupOf Value}
    {route : List String} {item : Item} (hg : Rule.Gives r v (.group head route items)) :
    Means v item ↔ ∃ built, ItemsMean items built ∧ item = .group { head with items := built } := by
  constructor
  · intro h
    cases h with
    | action h => cases (hg.unique h).2
    | group h hi => cases (hg.unique h).2; exact ⟨_, .inl ⟨_, rfl, hi⟩, rfl⟩
    | empty h ho => cases (hg.unique h).2; exact ⟨_, .inr ⟨ho, rfl⟩, rfl⟩
  · rintro ⟨built, ⟨vs, rfl, hi⟩ | ⟨ho, rfl⟩, rfl⟩
    · exact .group hg hi
    · exact .empty hg ho

/-! ### Lists, groups and items -/

theorem buildList_eq_ok_iff {vs : List Value}
    (ih : ∀ v ∈ vs, ∀ p item, (build p v).result = .ok item ↔ Means v item) :
    ∀ (place : Position) (n : Nat) (built : List Item),
      (buildList place n vs).result = .ok built ↔ List.Forall₂ Means vs built := by
  induction vs with
  | nil =>
      intro place n built
      rw [buildList_nil, List.forall₂_nil_left_iff]
      simp [Outcome.ok, eq_comm]
  | cons v rest ihr =>
      intro place n built
      have ihr := ihr fun w hw => ih w (List.mem_cons_of_mem _ hw)
      have hv := ih v List.mem_cons_self
      constructor
      · intro h
        obtain ⟨item, items, h1, h2, rfl⟩ := buildList_cons_eq_ok h
        exact .cons ((hv _ _).mp h1) ((ihr _ _ _).mp h2)
      · rintro (_ | ⟨h1, h2⟩)
        rw [buildList_cons_of_ok ((hv _ _).mpr h1), (ihr _ _ _).mpr h2]
        rfl

theorem itemsMean_list {vs : List Value} {built : List Item} :
    ItemsMean (.list vs) built ↔ List.Forall₂ Means vs built := by
  constructor
  · rintro (⟨ws, hw, h⟩ | ⟨h, -⟩)
    · cases hw
      exact h
    · exact absurd rfl (h vs)
  · exact fun h => .inl ⟨vs, rfl, h⟩

theorem itemsMean_of_flaw {items : Value} {f : Warning.Flaw} {built : List Item}
    (h : f.Of items) : ItemsMean items built ↔ built = [] := by
  cases h with
  | noItems => rw [itemsMean_list, List.forall₂_nil_left_iff]
  | notAList ho =>
      constructor
      · rintro (⟨vs, rfl, -⟩ | ⟨-, hb⟩)
        · exact absurd rfl (ho vs)
        · exact hb
      · exact fun hb => .inr ⟨ho, hb⟩

theorem buildItems_eq_ok_iff {items : Value} (ih : ∀ vs, items = .list vs → ∀ v ∈ vs,
    ∀ p item, (build p v).result = .ok item ↔ Means v item) (place : Position)
    (built : List Item) :
    (buildItems place (some items)).result = .ok built ↔ ItemsMean items built := by
  rcases items.flaw_or_elements with ⟨f, hf⟩ | ⟨v, rest, rfl⟩
  · rw [buildItems_of_flaw hf, itemsMean_of_flaw hf]
    simp [eq_comm]
  · rw [buildItems_cons, buildList_eq_ok_iff (ih _ rfl), itemsMean_list]

/-- **Exactly the values with a meaning are built**, into what they mean. -/
theorem build_eq_ok_iff (v : Value) (p : Position) (item : Item) :
    (build p v).result = .ok item ↔ Means v item := by
  induction p, v using Item.induction generalizing item with
  | refused p v f hs =>
      rw [build_of_error hs]
      refine iff_of_false (by simp [Outcome.refuse]) fun h => ?_
      obtain ⟨r, o, hg⟩ := exists_gives_of_means h
      rw [Shape.ofValue_of_gives hg p] at hs
      cases hs
  | action p v r a hg =>
      rw [hg.build_action, means_iff_of_action hg]
      simp [Outcome.ok, eq_comm]
  | group p v r head keys items hg ih =>
      rw [hg.build_group, means_iff_of_group hg, Except.map_eq_ok_iff]
      simp only [buildItems_eq_ok_iff ih, eq_comm]

end Item

/-! ### Builders -/

theorem Builder.item_result (b : Builder) (v : Value) :
    (b.item v).1 = (Item.build Position.root v).result := rfl

/-- **The decision table of items.**  A builder builds a value into an item if and only if the value
means that item; a value has at most one meaning, and at most one rule speaks of it. -/
theorem Builder.item_eq_ok_iff_means (b : Builder) (v : Value) :
    (∀ item, (b.item v).1 = .ok item ↔ Item.Means v item) ∧
      (∀ item item', Item.Means v item → Item.Means v item' → item = item') ∧
      ∀ r r' o o', Rule.Gives r v o → Rule.Gives r' v o' → r = r' ∧ o = o' := by
  have hb : ∀ item, (b.item v).1 = .ok item ↔ Item.Means v item := by
    intro item
    rw [Builder.item_result]
    exact Item.build_eq_ok_iff v Position.root item
  refine ⟨hb, ?_, fun r r' o o' h h' => h.unique h'⟩
  intro item item' h h'
  have he : (.ok item : Except Fault Item) = .ok item' :=
    ((hb item).mpr h).symm.trans ((hb item').mpr h')
  cases he
  rfl

/-- A group under its keycode that is named by an older field. -/
theorem Builder.item_eq_ok_iff_means_tabs :
    (({} : Builder).item (.map ⟨[("t", .map ⟨[("description", .string "Tabs"),
      ("items", .list [.string "tab:next Next"])]⟩)]⟩)).1 =
      .ok (.group { name := "Tabs", keycode := some "t",
                    items := [.action { id := "tab:next", name := some "Next" }] }) := by
  have hi : Item.Means (.string "tab:next Next") _ :=
    .action (.command (c := ⟨"tab:next", some "Next"⟩) (by decide))
  have hg := @Rule.Gives.keyedGroup
    ⟨[("t", .map ⟨[("description", .string "Tabs"), ("items", .list [.string "tab:next Next"])]⟩)]⟩
    _ "t" "Tabs" _ rfl rfl (by decide)
  exact ((Builder.item_eq_ok_iff_means {} _).1 _).mpr (.group hg (.cons hi .nil))

end CommandMenu
