import CommandMenu.Menu.Tree
import Mathlib.Data.List.Nodup

/-! # Items, groups and their addresses

The address of an item in a menu are the numbers of the items that lead to it, from the outermost
group on.

* `Item.tree_induction` is induction over the items of groups, and `Group.mem_actions_iff` says which
  actions a group has.
* `Item.at?` is the item at an address, `Item.nodes` lists all items with their addresses.
* `Item.mem_nodes_iff` and `Item.pairwise_nodes` say that every item is listed, depth first in order.
* `Group.at?` and `Group.groups` are the same for groups; `Group.mem_groups_iff` and
  `Group.nodup_addresses` say that every group is listed once.
* `Group.emptyAddresses` are the addresses of the groups without items. -/

namespace CommandMenu

/-! ### Items of items -/

mutual

/-- What holds of actions, and of groups if it holds of their items, holds of all items. -/
theorem Item.tree_induction {P : Item → Prop} (action : ∀ a, P (.action a))
    (group : ∀ g : Group, (∀ item ∈ g.items, P item) → P (.group g)) : ∀ item, P item
  | .action a => action a
  | .group g => group g (Group.items_induction action group g)

theorem Group.items_induction {P : Item → Prop} (action : ∀ a, P (.action a))
    (group : ∀ g : Group, (∀ item ∈ g.items, P item) → P (.group g)) :
    ∀ g : Group, ∀ item ∈ g.items, P item
  | ⟨_, items, _, _, _⟩ => Item.list_induction action group items

theorem Item.list_induction {P : Item → Prop} (action : ∀ a, P (.action a))
    (group : ∀ g : Group, (∀ item ∈ g.items, P item) → P (.group g)) :
    ∀ items : List Item, ∀ item ∈ items, P item
  | [] => fun _ h => nomatch h
  | item :: rest => List.forall_mem_cons.mpr
      ⟨Item.tree_induction action group item, Item.list_induction action group rest⟩

end

theorem Item.mem_listActions {a : Action} : ∀ {items : List Item},
    a ∈ Item.listActions items ↔ ∃ item ∈ items, a ∈ item.actions
  | [] => by simp [Item.listActions]
  | item :: rest => by
      rw [Item.listActions, List.mem_append, Item.mem_listActions, List.exists_mem_cons_iff]

/-- The actions of a group are the actions of its items. -/
theorem Group.mem_actions_iff {g : Group} {a : Action} :
    a ∈ Group.actions g ↔ ∃ item ∈ g.items, a ∈ item.actions := by
  obtain ⟨name, items, keycode, icon, color⟩ := g
  rw [Group.actions, Item.mem_listActions]

/-! ### Items and their addresses -/

/-- The items directly in an item; an action has none. -/
def Item.items : Item → List Item
  | .action _ => []
  | .group g => g.items

/-- The item at an address; the empty address is that of the item itself. -/
def Item.at? (item : Item) : List Nat → Option Item
  | [] => some item
  | n :: rest => item.items[n]?.bind fun inner => inner.at? rest

mutual

/-- An item and the items in it with their addresses, depth first in order. -/
def Item.nodes : Item → List (List Nat × Item)
  | .action a => [([], .action a)]
  | .group g => ([], .group g) :: Group.nodes g

/-- The items of a group and the items in them with their addresses, depth first in order. -/
def Group.nodes : Group → List (List Nat × Item)
  | ⟨_, items, _, _, _⟩ => Item.listNodes 0 items

/-- The items of a list and the items in them with their addresses, in order.  The first item has
the given number. -/
def Item.listNodes (n : Nat) : List Item → List (List Nat × Item)
  | [] => []
  | item :: rest => (item.nodes.map fun e => (n :: e.1, e.2)) ++ Item.listNodes (n + 1) rest

end

theorem Group.nodes_eq (g : Group) : Group.nodes g = Item.listNodes 0 g.items := by
  obtain ⟨name, items, keycode, icon, color⟩ := g
  rw [Group.nodes]

theorem Item.nodes_eq (item : Item) : item.nodes = ([], item) :: Item.listNodes 0 item.items := by
  cases item with
  | action a => rfl
  | group g => rw [Item.nodes, Group.nodes_eq, Item.items]

theorem Item.mem_listNodes {n : Nat} {items : List Item} {a : List Nat} {item : Item} :
    (a, item) ∈ Item.listNodes n items ↔
      ∃ i first rest, items[i]? = some first ∧ a = (n + i) :: rest ∧ (rest, item) ∈ first.nodes := by
  induction items generalizing n with
  | nil => simp [Item.listNodes]
  | cons first items ih =>
      rw [Item.listNodes, List.mem_append, List.mem_map, ih]
      constructor
      · rintro (⟨e, he, hg⟩ | ⟨i, next, rest, hi, rfl, hg⟩)
        · cases hg
          exact ⟨0, first, e.1, rfl, rfl, he⟩
        · exact ⟨i + 1, next, rest, hi, by rw [Nat.add_assoc, Nat.add_comm 1], hg⟩
      · rintro ⟨i, next, rest, hi, rfl, hg⟩
        cases i with
        | zero =>
            cases hi
            exact .inl ⟨_, hg, rfl⟩
        | succ i => exact .inr ⟨i, next, rest, hi, by rw [Nat.add_assoc, Nat.add_comm 1], hg⟩

/-- **The list of items is complete**: it has exactly the items with an address. -/
theorem Item.mem_nodes_iff {t item : Item} {a : List Nat} :
    (a, item) ∈ t.nodes ↔ t.at? a = some item := by
  induction a generalizing t with
  | nil =>
      rw [Item.nodes_eq, List.mem_cons, Item.mem_listNodes]
      simp [Item.at?, eq_comm]
  | cons n rest ih =>
      rw [Item.nodes_eq, List.mem_cons, Item.mem_listNodes, Item.at?, Option.bind_eq_some_iff]
      constructor
      · rintro (h | ⟨i, next, rest', hi, ha, hm⟩)
        · cases h
        · rw [Nat.zero_add] at ha
          cases ha
          exact ⟨next, hi, ih.mp hm⟩
      · rintro ⟨next, hi, hm⟩
        exact .inr ⟨n, next, rest, hi, by rw [Nat.zero_add], ih.mpr hm⟩

/-- What is listed below a group are the items at all addresses but the empty one. -/
theorem Group.mem_nodes_iff {g : Group} {a : List Nat} {item : Item} :
    (a, item) ∈ Group.nodes g ↔ a ≠ [] ∧ (Item.group g).at? a = some item := by
  rw [← Item.mem_nodes_iff, Item.nodes, List.mem_cons]
  constructor
  · intro h
    refine ⟨?_, .inr h⟩
    rw [Group.nodes_eq] at h
    obtain ⟨i, first, rest, -, rfl, -⟩ := Item.mem_listNodes.mp h
    exact List.cons_ne_nil _ _
  · rintro ⟨ha, h | h⟩
    · cases h
      exact absurd rfl ha
    · exact h

/-! ### The order of the items -/

theorem Item.pairwise_listNodes {items : List Item}
    (h : ∀ item ∈ items, (item.nodes.map Prod.fst).Pairwise (List.Lex (· < ·))) (n : Nat) :
    ((Item.listNodes n items).map Prod.fst).Pairwise (List.Lex (· < ·)) := by
  induction items generalizing n with
  | nil => exact .nil
  | cons item rest ih =>
      have hi : (item.nodes.map fun e => (n :: e.1, e.2)).map Prod.fst =
          (item.nodes.map Prod.fst).map (n :: ·) := by simp
      rw [Item.listNodes, List.map_append, hi, List.pairwise_append, List.pairwise_map]
      refine ⟨(h item List.mem_cons_self).imp fun hlt => List.Lex.cons hlt,
        ih (fun next hm => h next (List.mem_cons_of_mem _ hm)) (n + 1), ?_⟩
      -- behind the first item all addresses begin with a greater number
      rintro a ha b hb
      obtain ⟨a, -, rfl⟩ := List.mem_map.mp ha
      obtain ⟨⟨b, next⟩, hm, rfl⟩ := List.mem_map.mp hb
      obtain ⟨i, first, rest, -, rfl, -⟩ := Item.mem_listNodes.mp hm
      exact List.Lex.rel (by omega)

/-- **The items are listed in the order of their addresses**, a group in front of its items. -/
theorem Item.pairwise_nodes (item : Item) :
    (item.nodes.map Prod.fst).Pairwise (List.Lex (· < ·)) := by
  induction item using Item.tree_induction with
  | action a => exact List.pairwise_singleton _ _
  | group g ih =>
      rw [Item.nodes, List.map_cons, List.pairwise_cons]
      constructor
      · rintro a ha
        obtain ⟨⟨a, item⟩, hm, rfl⟩ := List.mem_map.mp ha
        obtain ⟨n, rest, rfl⟩ := List.exists_cons_of_ne_nil (Group.mem_nodes_iff.mp hm).1
        exact List.Lex.nil
      · rw [Group.nodes_eq]
        exact Item.pairwise_listNodes ih 0

theorem Group.pairwise_nodes (g : Group) :
    ((Group.nodes g).map Prod.fst).Pairwise (List.Lex (· < ·)) := by
  have h := Item.pairwise_nodes (.group g)
  rw [Item.nodes, List.map_cons] at h
  exact h.of_cons

/-! ### Groups and their addresses -/

/-- The group at an address. -/
def Group.at? (g : Group) : List Nat → Option Group
  | [] => some g
  | n :: rest => (g.items[n]?.bind Item.group?).bind fun inner => Group.at? inner rest

mutual

/-- The groups of an item with their addresses, depth first in order. -/
def Item.groups : Item → List (List Nat × Group)
  | .action _ => []
  | .group g => Group.groups g

/-- A group and the groups in it with their addresses, depth first in order. -/
def Group.groups : Group → List (List Nat × Group)
  | ⟨name, items, keycode, icon, color⟩ =>
    ([], ⟨name, items, keycode, icon, color⟩) :: Item.listGroups 0 items

/-- The groups of a list of items with their addresses, in order.  The first item has the given
number. -/
def Item.listGroups (n : Nat) : List Item → List (List Nat × Group)
  | [] => []
  | item :: rest => (item.groups.map fun e => (n :: e.1, e.2)) ++ Item.listGroups (n + 1) rest

end

theorem Group.groups_eq (g : Group) : Group.groups g = ([], g) :: Item.listGroups 0 g.items := by
  obtain ⟨name, items, keycode, icon, color⟩ := g
  rw [Group.groups]

/-- The group at the address of an item, if the item is one. -/
def Item.groupNode? (e : List Nat × Item) : Option (List Nat × Group) :=
  e.2.group?.map fun g => (e.1, g)

theorem Item.groupNode?_eq_some_iff {e : List Nat × Item} {a : List Nat} {g : Group} :
    Item.groupNode? e = some (a, g) ↔ e = (a, .group g) := by
  obtain ⟨b, item⟩ := e
  cases item <;> simp [Item.groupNode?, Item.group?]

theorem Item.listGroups_eq {items : List Item}
    (h : ∀ item ∈ items, item.groups = item.nodes.filterMap Item.groupNode?) (n : Nat) :
    Item.listGroups n items = (Item.listNodes n items).filterMap Item.groupNode? := by
  induction items generalizing n with
  | nil => rfl
  | cons item rest ih =>
      have hmap : (item.nodes.map fun e => (n :: e.1, e.2)).filterMap Item.groupNode? =
          (item.nodes.filterMap Item.groupNode?).map fun e => (n :: e.1, e.2) := by
        rw [List.filterMap_map, List.map_filterMap]
        simp [Function.comp_def, Item.groupNode?]
      rw [Item.listGroups, Item.listNodes, List.filterMap_append, hmap, h item List.mem_cons_self,
        ih fun next hm => h next (List.mem_cons_of_mem _ hm)]

/-- The groups of an item are those of its nodes that are groups. -/
theorem Item.groups_eq (item : Item) : item.groups = item.nodes.filterMap Item.groupNode? := by
  induction item using Item.tree_induction with
  | action a => rfl
  | group g ih =>
      rw [Item.groups, Group.groups_eq, Item.listGroups_eq ih, Item.nodes, Group.nodes_eq]
      rfl

theorem Group.groups_eq_nodes (g : Group) :
    Group.groups g = ([], g) :: (Group.nodes g).filterMap Item.groupNode? :=
  Item.groups_eq (.group g)

theorem Group.at?_eq_some_iff {t g : Group} {a : List Nat} :
    (Item.group t).at? a = some (.group g) ↔ Group.at? t a = some g := by
  induction a generalizing t with
  | nil => simp [Item.at?, Group.at?]
  | cons n rest ih =>
      rw [Item.at?, Group.at?, Item.items]
      cases t.items[n]? with
      | none => simp
      | some item =>
          cases item with
          | action a => cases rest <;> simp [Item.at?, Item.items, Item.group?]
          | group inner => exact ih

/-- **The list of groups is complete**: it has exactly the groups with an address. -/
theorem Group.mem_groups_iff {t g : Group} {a : List Nat} :
    (a, g) ∈ Group.groups t ↔ Group.at? t a = some g := by
  rw [← Item.groups, Item.groups_eq, List.mem_filterMap, ← Group.at?_eq_some_iff,
    ← Item.mem_nodes_iff]
  simp only [Item.groupNode?_eq_some_iff, exists_eq_right]

/-- **The list of groups has no group twice.** -/
theorem Group.nodup_addresses (g : Group) : ((Group.groups g).map Prod.fst).Nodup := by
  have hp := List.pairwise_map.mp (Item.pairwise_nodes (.group g))
  rw [← Item.groups, Item.groups_eq, List.Nodup, List.pairwise_map]
  refine hp.filterMap _ fun e e' hlt b hb b' hb' => ?_
  rw [Item.groupNode?_eq_some_iff.mp hb, Item.groupNode?_eq_some_iff.mp hb'] at hlt
  exact fun he => List.lt_irrefl _ (he ▸ hlt)

/-! ### Groups without items -/

namespace Group

/-- The addresses of the groups without items. -/
def emptyAddresses (gs : List (List Nat × Group)) : List (List Nat) :=
  (gs.filter fun e => e.2.items.isEmpty).map Prod.fst

theorem emptyAddresses_append (gs hs : List (List Nat × Group)) :
    emptyAddresses (gs ++ hs) = emptyAddresses gs ++ emptyAddresses hs := by
  simp [emptyAddresses]

theorem emptyAddresses_map_cons (n : Nat) (gs : List (List Nat × Group)) :
    emptyAddresses (gs.map fun e => (n :: e.1, e.2)) =
      (emptyAddresses gs).map (n :: ·) := by
  simp [emptyAddresses, List.filter_map, Function.comp_def]

/-- These are the addresses at which there is a group without items. -/
theorem mem_emptyAddresses {t : Group} {a : List Nat} :
    a ∈ emptyAddresses t.groups ↔ ∃ g, t.at? a = some g ∧ g.items = [] := by
  unfold emptyAddresses
  rw [List.mem_map]
  constructor
  · rintro ⟨⟨a, g⟩, he, rfl⟩
    obtain ⟨hm, hi⟩ := List.mem_filter.mp he
    exact ⟨g, mem_groups_iff.mp hm, List.isEmpty_iff.mp hi⟩
  · rintro ⟨g, ha, hi⟩
    exact ⟨(a, g), List.mem_filter.mpr ⟨mem_groups_iff.mpr ha, List.isEmpty_iff.mpr hi⟩, rfl⟩

theorem nodup_emptyAddresses (t : Group) : (emptyAddresses t.groups).Nodup :=
  (List.filter_sublist.map Prod.fst).nodup (nodup_addresses t)

end Group
end CommandMenu
