import CommandMenu.Display.Layout
import CommandMenu.Proofs.Addresses
import Mathlib.Data.List.Forall2

/-! # The lines of a menu

A menu is shown with one line for each item, in the order of the addresses of the items.

* `Item.flatMap_nodes` says that what goes through the items level by level goes through the listed
  items.  `Item.lines_eq` and `Item.actions_eq` are cases of it.
* `Item.front` and `Item.text` are the two parts of a line without colours, `Item.line_plain` puts
  them together.
* `Item.length_lt_depth` and `Item.exists_length_eq_depth` say how deep groups lie.
* `Group.lines_item_by_item` is what is shown of a menu. -/

namespace CommandMenu

variable {β : Type}

/-! ### Level by level -/

theorem Item.flatMap_listNodes {f : Nat → Item → List β} {F : Item → List β} {level : Nat}
    {items : List Item}
    (h : ∀ item ∈ items, F item = item.nodes.flatMap fun e => f (level + 1 + e.1.length) e.2)
    (n : Nat) :
    items.flatMap F = (Item.listNodes n items).flatMap fun e => f (level + e.1.length) e.2 := by
  induction items generalizing n with
  | nil => rfl
  | cons item rest ih =>
      rw [List.flatMap_cons, Item.listNodes, List.flatMap_append, h item List.mem_cons_self,
        ih (fun next hm => h next (List.mem_cons_of_mem _ hm)) (n + 1), List.flatMap_map]
      simp only [List.length_cons, Nat.add_assoc, Nat.add_comm 1]

/-- **What goes through the items level by level goes through the listed items.**  The level of an
item is the length of its address. -/
theorem Item.flatMap_nodes {F f : Nat → Item → List β}
    (h : ∀ level item, F level item = f level item ++ item.items.flatMap (F (level + 1)))
    (item : Item) (level : Nat) :
    F level item = item.nodes.flatMap fun e => f (level + e.1.length) e.2 := by
  induction item using Item.tree_induction generalizing level with
  | action a =>
      rw [h, Item.nodes]
      rfl
  | group g ih =>
      rw [h, Item.nodes_eq, List.flatMap_cons]
      exact congrArg _ (Item.flatMap_listNodes (fun item hm => ih item hm (level + 1)) 0)

theorem Group.flatMap_nodes {F f : Nat → Item → List β}
    (h : ∀ level item, F level item = f level item ++ item.items.flatMap (F (level + 1)))
    (g : Group) (level : Nat) :
    g.items.flatMap (F (level + 1)) =
      (Group.nodes g).flatMap fun e => f (level + e.1.length) e.2 := by
  rw [Group.nodes_eq]
  exact Item.flatMap_listNodes (fun item _ => Item.flatMap_nodes h item (level + 1)) 0

/-! ### One line for each item -/

/-- The line of an item at a level, without the items in it. -/
def Item.line (colours : Bool) (level : Nat) : Item → String
  | .action a => a.line colours level
  | .group g =>
    Layout.indent level ++ Layout.keyText colours g.keycode ++ Style.bold.apply colours (g.name ++ "/")

theorem Item.listLines_eq (colours : Bool) (level : Nat) (items : List Item) :
    Item.listLines colours level items = items.flatMap (Item.lines colours level) := by
  induction items with
  | nil => rfl
  | cons item rest ih => rw [Item.listLines, ih, List.flatMap_cons]

theorem Item.lines_eq (colours : Bool) (level : Nat) (item : Item) :
    item.lines colours level =
      [item.line colours level] ++ item.items.flatMap (Item.lines colours (level + 1)) := by
  cases item with
  | action a => rfl
  | group g =>
      obtain ⟨name, items, keycode, icon, color⟩ := g
      rw [Item.lines, Group.linesBelow, Item.listLines_eq]
      rfl

/-- **A menu has one line for each item**, behind the line of the outermost group. -/
theorem Group.lines_eq (colours : Bool) (g : Group) :
    Group.lines colours g =
      (Style.bold.apply colours g.name ++ " (" ++ Layout.countText g.items.length ++ ")") ::
        (Group.nodes g).map fun e => e.2.line colours e.1.length := by
  rw [Group.lines, Item.listLines_eq, Group.flatMap_nodes (Item.lines_eq colours) g 0,
    List.map_eq_flatMap]
  simp only [Nat.zero_add]

/-! ### Lines without colours -/

/-- What stands in front of an item: two blanks for each level, and its key in brackets. -/
def Item.front (level : Nat) (item : Item) : String :=
  String.join (List.replicate level "  ") ++
    match item.keycode with
    | some key => "[" ++ key ++ "] "
    | none => ""

/-- What is shown of an item: its label, with the id of an action that has a name, and with a slash
behind a group. -/
def Item.text : Item → String
  | .action a => a.label ++ if a.name.isSome then " (" ++ a.id ++ ")" else ""
  | .group g => g.name ++ "/"

theorem Layout.indent_eq (level : Nat) :
    indent level = String.join (List.replicate level "  ") := by
  induction level with
  | zero => rfl
  | succ n ih =>
      rw [List.replicate_succ, String.join_cons, ← ih, indent, Nat.mul_succ, Nat.add_comm,
        ← List.replicate_append_replicate, String.ofList_append]
      rfl

theorem Layout.countText_append (n : Nat) :
    countText n ++ ")" = toString n ++ if n = 1 then " item)" else " items)" := by
  unfold countText
  split
  · next h =>
      subst h
      rfl
  · rw [String.append_assoc]
    rfl

theorem Layout.keyText_plain (keycode : Option String) :
    keyText false keycode = match keycode with
      | some key => "[" ++ key ++ "] "
      | none => "" := by
  cases keycode with
  | none => rfl
  | some key =>
      show "[" ++ key ++ "]" ++ " " = "[" ++ key ++ "] "
      rw [String.append_assoc, String.append_assoc, String.append_assoc]
      rfl

/-- Without colours a line consists of what stands in front and of what is shown. -/
theorem Item.line_plain (level : Nat) (item : Item) :
    item.line false level = item.front level ++ item.text := by
  rw [Item.front, ← Layout.indent_eq, ← Layout.keyText_plain]
  cases item with
  | group g => rfl
  | action a =>
      obtain ⟨id, name, color, icon, keycode⟩ := a
      cases name with
      | none => simp [Item.line, Action.line, Item.text, Action.label, Item.keycode]
      | some name =>
          have hid : " " ++ ("(" ++ id ++ ")") = " (" ++ id ++ ")" := by
            rw [← String.append_assoc, ← String.append_assoc]
            rfl
          simp [Item.line, Action.line, Item.text, Action.label, Item.keycode, Style.apply,
            String.append_assoc, ← hid]

/-! ### The actions -/

theorem Item.listActions_eq (items : List Item) :
    Item.listActions items = items.flatMap Item.actions := by
  induction items with
  | nil => rfl
  | cons item rest ih => rw [Item.listActions, ih, List.flatMap_cons]

theorem Item.actions_eq (item : Item) :
    item.actions = item.action?.toList ++ item.items.flatMap Item.actions := by
  cases item with
  | action a => rfl
  | group g =>
      obtain ⟨name, items, keycode, icon, color⟩ := g
      rw [Item.actions, Group.actions, Item.listActions_eq]
      rfl

theorem Group.actions_eq (g : Group) :
    Group.actions g = (Group.nodes g).filterMap fun e => e.2.action? := by
  have h := Group.flatMap_nodes (fun _ => Item.actions_eq) g 0
  rw [List.filterMap_eq_flatMap_toList, ← h]
  obtain ⟨name, items, keycode, icon, color⟩ := g
  rw [Group.actions, Item.listActions_eq]

/-! ### The depth -/

theorem Item.depth_eq_of_group (g : Group) : Item.depth (.group g) = Item.listDepth g.items + 1 := by
  obtain ⟨name, items, keycode, icon, color⟩ := g
  rw [Item.depth, Group.depth]

theorem Item.depth_le_listDepth {item : Item} : ∀ {items : List Item}, item ∈ items →
    item.depth ≤ Item.listDepth items
  | first :: rest, h => by
      rw [Item.listDepth]
      rcases List.mem_cons.mp h with rfl | h
      · exact Nat.le_max_left _ _
      · exact Nat.le_trans (Item.depth_le_listDepth h) (Nat.le_max_right _ _)

theorem Item.exists_depth_eq_listDepth : ∀ {items : List Item}, Item.listDepth items ≠ 0 →
    ∃ item ∈ items, item.depth = Item.listDepth items
  | [], h => absurd rfl h
  | first :: rest, h => by
      rw [Item.listDepth] at h ⊢
      rcases Nat.le_total first.depth (Item.listDepth rest) with hle | hle
      · rw [Nat.max_eq_right hle] at h ⊢
        obtain ⟨item, hm, hd⟩ := Item.exists_depth_eq_listDepth h
        exact ⟨item, List.mem_cons_of_mem _ hm, hd⟩
      · rw [Nat.max_eq_left hle]
        exact ⟨first, List.mem_cons_self, rfl⟩

theorem Item.length_lt_depth {item : Item} {a : List Nat} {inner : Group}
    (h : item.at? a = some (.group inner)) : a.length < item.depth := by
  induction a generalizing item with
  | nil =>
      cases h
      rw [Item.depth_eq_of_group]
      exact Nat.succ_pos _
  | cons n rest ih =>
      obtain ⟨next, hn, hr⟩ := Option.bind_eq_some_iff.mp h
      cases item with
      | action a => cases hn
      | group g =>
          have hle := Item.depth_le_listDepth (List.mem_of_getElem? hn)
          have hlt := ih hr
          rw [Item.depth_eq_of_group, List.length_cons]
          simp only [Item.items] at hle
          omega

/-- Some group lies as deep as the depth, unless there is none. -/
theorem Item.exists_length_eq_depth (item : Item) :
    item.depth = 0 ∨ ∃ a inner, item.at? a = some (.group inner) ∧ a.length + 1 = item.depth := by
  induction item using Item.tree_induction with
  | action a => exact .inl rfl
  | group g ih =>
      rw [Item.depth_eq_of_group]
      refine .inr ?_
      by_cases hd : Item.listDepth g.items = 0
      · exact ⟨[], g, rfl, by rw [hd]; rfl⟩
      · obtain ⟨item, hm, hitem⟩ := Item.exists_depth_eq_listDepth hd
        obtain ⟨a, inner, ha, hlen⟩ := (ih item hm).resolve_left (hitem ▸ hd)
        obtain ⟨n, hn⟩ := List.mem_iff_getElem?.mp hm
        exact ⟨n :: a, inner, by rw [Item.at?, Item.items, hn]; exact ha,
          by rw [List.length_cons, hlen, hitem]⟩

/-! ### What is shown of a menu -/

theorem Group.forall₂_actions (g : Group) :
    List.Forall₂ (fun e a => e.2 = .action a)
      ((Group.nodes g).filter fun e => e.2.group?.isNone) (Group.actions g) := by
  rw [Group.actions_eq]
  induction Group.nodes g with
  | nil => exact .nil
  | cons e rest ih =>
      obtain ⟨a, item⟩ := e
      cases item with
      | action a => exact .cons rfl ih
      | group inner => exact ih

theorem Group.length_nodes (g : Group) :
    (Group.nodes g).length = (Group.actions g).length + (Group.groups g).tail.length := by
  rw [Group.actions_eq, Group.groups_eq_nodes, List.tail_cons]
  induction Group.nodes g with
  | nil => rfl
  | cons e rest ih =>
      obtain ⟨a, item⟩ := e
      cases item with
      | action b =>
          show _ = (b :: rest.filterMap fun e => e.2.action?).length +
            (rest.filterMap Item.groupNode?).length
          rw [List.length_cons, List.length_cons, ih]
          omega
      | group inner =>
          show _ = (rest.filterMap fun e => e.2.action?).length +
            ((a, inner) :: rest.filterMap Item.groupNode?).length
          rw [List.length_cons, List.length_cons, ih]
          omega

/-- **A menu is shown item by item.**  Behind the line of the outermost group there is one line for
each item, in the order of their addresses, which begins with two blanks for each level and the key
of the item.

* The lines of items that are no groups are those of the actions of the menu, in their order; each
  shows the label of its action, and the id if the action has a name.
* There are as many lines as actions and groups, the outermost one included.
* The depth of the menu is the level of the deepest group. -/
theorem Group.lines_item_by_item (g : Group) :
    (∀ a item, (a, item) ∈ Group.nodes g ↔ a ≠ [] ∧ (Item.group g).at? a = some item) ∧
    ((Group.nodes g).map Prod.fst).Pairwise (List.Lex (· < ·)) ∧
    Layout.lines false [.menu g] =
      (g.name ++ " (" ++ toString g.items.length ++
        if g.items.length = 1 then " item)" else " items)") ::
          (Group.nodes g).map (fun e => e.2.front e.1.length ++ e.2.text) ∧
    List.Forall₂ (fun line a => ∃ level, line = Item.front level (.action a) ++ a.label ++
        if a.name.isSome then " (" ++ a.id ++ ")" else "")
      (((Group.nodes g).filter fun e => e.2.group?.isNone).map
        fun e => e.2.front e.1.length ++ e.2.text) (Group.actions g) ∧
    (Layout.lines false [.menu g]).length =
      1 + (Group.actions g).length + (Group.groups g).tail.length ∧
    (∀ a inner, (a, .group inner) ∈ Group.nodes g → a.length ≤ Group.depth g) ∧
    (Group.depth g = 0 ∨
      ∃ a inner, (a, .group inner) ∈ Group.nodes g ∧ a.length = Group.depth g) := by
  have hlines : Layout.lines false [.menu g] =
      (g.name ++ " (" ++ toString g.items.length ++
        if g.items.length = 1 then " item)" else " items)") ::
          (Group.nodes g).map (fun e => e.2.front e.1.length ++ e.2.text) := by
    show Group.lines false g ++ [] = _
    rw [List.append_nil, Group.lines_eq, String.append_assoc, Layout.countText_append,
      ← String.append_assoc]
    simp only [Item.line_plain]
    rfl
  refine ⟨fun a item => Group.mem_nodes_iff, Group.pairwise_nodes g, hlines, ?_, ?_, ?_, ?_⟩
  · rw [List.forall₂_map_left_iff]
    refine (Group.forall₂_actions g).imp fun e a he => ⟨e.1.length, ?_⟩
    rw [he, Item.text]
    exact String.append_assoc.symm
  · rw [hlines, List.length_cons, List.length_map, Group.length_nodes]
    omega
  · intro a inner hm
    have hlt := Item.length_lt_depth (Group.mem_nodes_iff.mp hm).2
    rw [Item.depth] at hlt
    omega
  · obtain ⟨a, inner, ha, hlen⟩ := (Item.exists_length_eq_depth (.group g)).resolve_left
      (by rw [Item.depth]; exact Nat.succ_ne_zero _)
    rw [Item.depth, Nat.add_right_cancel_iff] at hlen
    by_cases hroot : a = []
    · exact .inl (by rw [← hlen, hroot]; rfl)
    · exact .inr ⟨a, inner, Group.mem_nodes_iff.mpr ⟨hroot, ha⟩, hlen⟩

example : Group.text (Group.root [.action { id := "editor:focus" },
    .action { id := "app:go-back", name := some "Back", keycode := some "b" },
    .group { name := "Close", keycode := some "c", items := [.action { id := "workspace:close" }] }]) =
      "Radial Menu (3 items)\n  editor:focus\n  [b] Back (app:go-back)\n  [c] Close/\n" ++
        "    workspace:close" := by
  decide

end CommandMenu
