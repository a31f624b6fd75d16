import CommandMenu.Menu.Encoding
import CommandMenu.Proofs.Canonical
import CommandMenu.Proofs.EmptyGroups
import CommandMenu.Proofs.Validity

/-! # The explicit form of a menu

A menu has a JSON form, and JSON can be read as a menu document.  The document that the JSON form of
a menu spells is the explicit form of the menu: all fields by their own names, and no shorthand.

* `Value.ofJson` is the value that JSON spells, `Item.explicit` and `Group.explicit` are the explicit
  forms.
* `Action.HasAttribute` says that an action has more than its id.  An action without attributes is
  written as a map with one entry, and such a map is read as a command below a keycode.
* `Item.means_explicit_iff` says that an explicit form means the item it was made of exactly if all
  actions in it have an attribute.
* `Group.explicit_round_trip` says the same of menus and of the documents they are built from. -/

namespace CommandMenu

/-! ### Maps of members that may be unset -/

namespace Fields

variable {α : Type}

/-- The map of the members that are set. -/
def ofMembers (ms : List (String × Option α)) : Fields α :=
  ⟨ms.filterMap fun m => m.2.map fun v => (m.1, v)⟩

theorem keys_ofMembers_sublist : ∀ ms : List (String × Option α),
    (ofMembers ms).keys.Sublist (ms.map Prod.fst)
  | [] => List.Sublist.refl _
  | (k, none) :: rest => (keys_ofMembers_sublist rest).cons k
  | (k, some _) :: rest => (keys_ofMembers_sublist rest).cons_cons k

theorem get?_ofMembers {ms : List (String × Option α)} (h : (ms.map Prod.fst).Nodup)
    (key : String) : (ofMembers ms).get? key = (lookup key ms).join := by
  induction ms with
  | nil => rfl
  | cons m rest ih =>
      obtain ⟨k, v⟩ := m
      obtain ⟨hk, hr⟩ := List.nodup_cons.mp h
      have ih : lookup key (ofMembers rest).entries = (lookup key rest).join := ih hr
      by_cases hkey : k = key
      · subst hkey
        have hn : lookup k (ofMembers rest).entries = none :=
          lookup_eq_none fun hm => hk ((keys_ofMembers_sublist rest).subset hm)
        cases v with
        | none => simpa [get?, ofMembers, lookup] using hn
        | some w => simp [get?, ofMembers, lookup]
      · cases v with
        | none => simpa [get?, ofMembers, lookup, hkey] using ih
        | some w => simpa [get?, ofMembers, lookup, hkey] using ih

end Fields

/-! ### What JSON spells -/

mutual

/-- The value of a menu document that a JSON value spells. -/
def Value.ofJson : Json.Value → Value
  | .null => .null
  | .bool b => .bool b
  | .number n => .number n
  | .string s => .string s
  | .array items => .list (Value.ofJsonItems items)
  | .object members => .map (Fields.ofEntries (Value.ofJsonMembers members))

/-- The values that the items of an array spell. -/
def Value.ofJsonItems : List Json.Value → List Value
  | [] => []
  | v :: rest => Value.ofJson v :: Value.ofJsonItems rest

/-- The entries that the members of an object spell. -/
def Value.ofJsonMembers : List (String × Json.Value) → List (String × Value)
  | [] => []
  | (k, v) :: rest => (k, Value.ofJson v) :: Value.ofJsonMembers rest

end

/-- The explicit form of an item: the value that its JSON form spells. -/
def Item.explicit (item : Item) : Value := .ofJson item.json

/-- The explicit form of a group: the value that its JSON form spells. -/
def Group.explicit (g : Group) : Value := .ofJson (Group.json g)

namespace Value

theorem ofJsonMembers_eq : ∀ ms : List (String × Json.Value),
    ofJsonMembers ms = ms.map fun m => (m.1, ofJson m.2)
  | [] => rfl
  | (k, v) :: rest => by rw [ofJsonMembers, ofJsonMembers_eq rest, List.map_cons]

theorem ofJsonItems_listJson (items : List Item) :
    ofJsonItems (Item.listJson items) = items.map Item.explicit := by
  induction items with
  | nil => rfl
  | cons item rest ih =>
      rw [Item.listJson, ofJsonItems, ih, List.map_cons, Item.explicit]

/-- An object spells the map of those of its members that are set. -/
theorem ofJson_ofMembers {ms : List (String × Option Json.Value)}
    (h : (ms.map Prod.fst).Nodup) :
    ofJson (.ofMembers ms) = .map (.ofMembers (ms.map fun m => (m.1, m.2.map ofJson))) := by
  have he : ofJsonMembers (ms.filterMap fun m => m.2.map fun v => (m.1, v)) =
      (Fields.ofMembers (ms.map fun m => (m.1, m.2.map ofJson))).entries := by
    rw [ofJsonMembers_eq, Fields.ofMembers, List.map_filterMap, List.filterMap_map]
    simp [Function.comp_def]
  have hk : (Fields.ofMembers (ms.map fun m => (m.1, m.2.map ofJson))).keys.Nodup := by
    refine (Fields.keys_ofMembers_sublist _).nodup ?_
    rwa [List.map_map]
  rw [Json.Value.ofMembers, ofJson, he, Fields.ofEntries_of_nodup hk]

end Value

/-! ### The fields of explicit forms -/

/-- A text that may be unset. -/
def Value.textMember (name : String) (s : Option String) : String × Option Value :=
  (name, s.map .string)

/-- The members of the explicit form of an action. -/
def Action.members (a : Action) : List (String × Option Value) :=
  [("id", some (.string a.id)), Value.textMember "name" a.name, Value.textMember "color" a.color,
    Value.textMember "icon" a.icon, Value.textMember "keycode" a.keycode]

/-- The members of the explicit form of a group. -/
def Group.members (g : Group) : List (String × Option Value) :=
  [("name", some (.string g.name)), ("items", some (.list (g.items.map Item.explicit))),
    Value.textMember "keycode" g.keycode, Value.textMember "icon" g.icon,
    Value.textMember "color" g.color]

theorem Value.map_ofJson_textMember (name : String) (s : Option String) :
    ((Json.textMember name s).1, (Json.textMember name s).2.map ofJson) = textMember name s := by
  cases s <;> rfl

theorem Item.explicit_action (a : Action) :
    Item.explicit (.action a) = .map (.ofMembers a.members) := by
  rw [Item.explicit, Item.json, Action.json, Value.ofJson_ofMembers (by simp [Json.textMember])]
  simp only [List.map_cons, Value.map_ofJson_textMember]
  rfl

theorem Group.explicit_eq (g : Group) : g.explicit = .map (.ofMembers g.members) := by
  obtain ⟨name, items, keycode, icon, color⟩ := g
  rw [Group.explicit, Group.json, Value.ofJson_ofMembers (by simp [Json.textMember])]
  simp only [List.map_cons, Value.map_ofJson_textMember, Option.map_some, Value.ofJson,
    Value.ofJsonItems_listJson]
  rfl

theorem Item.explicit_group (g : Group) : Item.explicit (.group g) = g.explicit := by
  rw [Item.explicit, Item.json, Group.explicit]

theorem Action.nodup_members (a : Action) : (a.members.map Prod.fst).Nodup := by
  simp [members, Value.textMember]

theorem Group.nodup_members (g : Group) : (g.members.map Prod.fst).Nodup := by
  simp [members, Value.textMember]

theorem Action.canonical_members (a : Action) :
    (Fields.ofMembers a.members).canonical = .ofMembers a.members := by
  apply Fields.canonical_of_get?_eq_none <;> rw [Fields.get?_ofMembers a.nodup_members] <;> rfl

theorem Group.canonical_members (g : Group) :
    (Fields.ofMembers g.members).canonical = .ofMembers g.members := by
  apply Fields.canonical_of_get?_eq_none <;> rw [Fields.get?_ofMembers g.nodup_members] <;> rfl

theorem Fields.text?_ofMembers {ms : List (String × Option Value)}
    (hn : (ms.map Prod.fst).Nodup) (key : String) {s : Option String}
    (hk : lookup key ms = some (s.map .string)) (hs : ∀ t ∈ s, Text.Filled t) :
    (ofMembers ms).text? key = s := by
  rw [text?, get?_ofMembers hn, hk]
  cases s with
  | none => rfl
  | some t =>
      exact Text.nonBlank_eq_some_iff.mpr ⟨Text.hasText_iff.mpr (hs t rfl), rfl⟩

/-! ### Actions -/

/-- An action of which more is known than its id. -/
def Action.HasAttribute (a : Action) : Prop :=
  a.name.isSome ∨ a.color.isSome ∨ a.icon.isSome ∨ a.keycode.isSome

theorem Action.length_members (a : Action) :
    (Fields.ofMembers a.members).entries.length ≠ 1 ↔ a.HasAttribute := by
  obtain ⟨id, name, color, icon, keycode⟩ := a
  cases name <;> cases color <;> cases icon <;> cases keycode <;>
    simp [Fields.ofMembers, members, Value.textMember, HasAttribute]

theorem Action.gives_explicit {a : Action} (hv : a.Valid) (ha : a.HasAttribute) :
    Rule.Gives .action (Item.explicit (.action a)) (.action a) := by
  have text := Fields.text?_ofMembers a.nodup_members
  have hid : (Fields.ofMembers a.members).text? "id" = some a.id :=
    text "id" rfl (by simpa using hv.id)
  have hi : (Fields.ofMembers a.members).has "items" = false := by
    rw [Fields.has_eq_false_iff, Fields.get?_ofMembers a.nodup_members]
    rfl
  rw [← a.canonical_members] at hid hi
  have hg := Rule.Gives.action (by rwa [a.canonical_members, a.length_members]) hi hid
  rw [a.canonical_members, text "name" rfl hv.name, text "color" rfl hv.color,
    text "icon" rfl hv.icon, text "keycode" rfl hv.keycode] at hg
  rwa [Item.explicit_action]

theorem Action.entries_members {a : Action} (ha : ¬ a.HasAttribute) :
    (Fields.ofMembers a.members).entries = [("id", .string a.id)] := by
  obtain ⟨id, name, color, icon, keycode⟩ := a
  simp only [HasAttribute, not_or, Bool.not_eq_true, Option.isSome_eq_false_iff,
    Option.isNone_iff_eq_none] at ha
  obtain ⟨rfl, rfl, rfl, rfl⟩ := ha
  rfl

/-- An action without attributes is not read back: its id is taken for a command text below the
keycode `id`. -/
theorem Action.not_gives_explicit {a : Action} (ha : ¬ a.HasAttribute) (r : Rule) :
    ¬ Rule.Gives r (Item.explicit (.action a)) (.action a) := by
  intro hg
  have h := Shape.ofValue_of_gives hg Position.root
  rw [Item.explicit_action, Shape.ofValue, a.canonical_members, Shape.ofFields,
    Fields.single?_eq_some_iff.mpr (Action.entries_members ha)] at h
  obtain ⟨c, -, hs⟩ := Shape.ofText_eq_ok h
  have hk : a.keycode = some "id" := by
    rw [Outline.at, Shape.action.injEq] at hs
    rw [hs]
    rfl
  exact ha (by simp [HasAttribute, hk])

theorem Action.means_explicit_iff {a : Action} (hv : a.Valid) :
    Item.Means (Item.explicit (.action a)) (.action a) ↔ a.HasAttribute := by
  constructor
  · intro h
    by_contra ha
    cases h with
    | action hg => exact Action.not_gives_explicit ha _ hg
  · intro ha
    exact .action (Action.gives_explicit hv ha)

/-! ### Groups -/

theorem Group.get?_items_members (g : Group) :
    (Fields.ofMembers g.members).canonical.get? "items" =
      some (.list (g.items.map Item.explicit)) := by
  rw [g.canonical_members, Fields.get?_ofMembers g.nodup_members]
  rfl

theorem Group.text?_members {g : Group} (hl : g.Labelled) :
    (Fields.ofMembers g.members).canonical.text? "name" = some g.name ∧
      (Fields.ofMembers g.members).canonical.text? "keycode" = g.keycode ∧
      (Fields.ofMembers g.members).canonical.text? "icon" = g.icon ∧
      (Fields.ofMembers g.members).canonical.text? "color" = g.color := by
  have text := Fields.text?_ofMembers g.nodup_members
  rw [g.canonical_members]
  exact ⟨text "name" rfl (by simpa using hl.name), text "keycode" rfl hl.keycode,
    text "icon" rfl hl.icon, text "color" rfl hl.color⟩

theorem Group.gives_explicit {g : Group} (hl : g.Labelled) :
    Rule.Gives .group g.explicit
      (.group { name := g.name, keycode := g.keycode, icon := g.icon, color := g.color } ["items"]
        (.list (g.items.map Item.explicit))) := by
  obtain ⟨hn, hk, hi, hc⟩ := g.text?_members hl
  have hm : (Fields.ofMembers g.members).canonical.entries.length ≠ 1 := by
    rw [g.canonical_members]
    simp [Fields.ofMembers, members]
  have hg := Rule.Gives.group hm g.get?_items_members hn
  rw [hk, hi, hc] at hg
  rwa [Group.explicit_eq]

/-- The items of a group that are read from their explicit forms are its own. -/
theorem Group.exists_items_iff (g : Group) :
    (∃ built, List.Forall₂ (fun item => Item.Means item.explicit) g.items built ∧
        ({ name := g.name, items := built, keycode := g.keycode, icon := g.icon,
           color := g.color } : Group) = g) ↔
      ∀ item ∈ g.items, Item.Means item.explicit item := by
  constructor
  · rintro ⟨built, hb, he⟩
    obtain rfl : built = g.items := congrArg GroupOf.items he
    exact List.forall₂_same.mp hb
  · intro h
    exact ⟨g.items, List.forall₂_same.mpr h, rfl⟩

theorem Group.means_explicit_iff {g : Group} (hl : g.Labelled) :
    Item.Means (Item.explicit (.group g)) (.group g) ↔
      ∀ item ∈ g.items, Item.Means item.explicit item := by
  rw [Item.explicit_group, Item.means_iff_of_group (Group.gives_explicit hl),
    ← Group.exists_items_iff]
  simp only [Item.itemsMean_list, List.forall₂_map_left_iff, Item.group.injEq, eq_comm]

/-- **An explicit form means the item it was made of exactly if all actions in it have an
attribute.** -/
theorem Item.means_explicit_iff (item : Item) (hv : item.Valid) :
    Means item.explicit item ↔ ∀ a ∈ item.actions, a.HasAttribute := by
  induction item using Item.tree_induction with
  | action a =>
      cases hv with
      | action ha => simpa [Item.actions] using Action.means_explicit_iff ha
  | group g ih =>
      cases hv with
      | group hl hi =>
          rw [Group.means_explicit_iff hl, Item.actions]
          have hm : (∀ item ∈ g.items, Means item.explicit item) ↔
              ∀ item ∈ g.items, ∀ a ∈ item.actions, a.HasAttribute :=
            forall₂_congr fun item hitem => ih item hitem (hi item hitem)
          rw [hm]
          constructor
          · intro h a ha
            obtain ⟨item, hitem, ha⟩ := Group.mem_actions_iff.mp ha
            exact h item hitem a ha
          · intro h item hitem a ha
            exact h a (Group.mem_actions_iff.mpr ⟨item, hitem, ha⟩)

/-! ### Documents -/

theorem Group.document_explicit {g : Group} (hl : g.Labelled) :
    Document g.explicit
      { name := g.name, keycode := g.keycode, icon := g.icon, color := g.color } ["items"]
      (.list (g.items.map Item.explicit)) := by
  obtain ⟨hn, hk, hi, hc⟩ := g.text?_members hl
  have hd := Document.map g.get?_items_members
  rw [hn, hk, hi, hc] at hd
  rwa [Group.explicit_eq]

theorem Group.build_explicit_eq_ok_iff {t : Group} (hv : t.Valid) :
    (Group.build t.explicit).result = .ok t ↔ ∀ a ∈ t.actions, a.HasAttribute := by
  have hm := Item.means_explicit_iff (.group t) (.group hv.1 hv.2)
  rw [Group.means_explicit_iff hv.1, Item.actions] at hm
  rw [Group.build_of_document (Group.document_explicit hv.1), ← hm, Except.map_eq_ok_iff]
  simp only [Item.buildItems_eq_ok_iff fun vs _ v _ => Item.build_eq_ok_iff v, Item.itemsMean_list,
    List.forall₂_map_left_iff]
  exact Group.exists_items_iff t

/-- **Menus are built again from their explicit forms**, with a warning for every empty group,
exactly if all their actions have an attribute.  So the explicit form of what a document was built
to is a document of the same menu. -/
theorem Group.explicit_round_trip :
    (∀ t : Group, t.Valid →
      ((({} : Builder).document t.explicit).1 = .ok t ↔ ∀ a ∈ t.actions, a.HasAttribute) ∧
      ((∀ a ∈ t.actions, a.HasAttribute) →
        (({} : Builder).document t.explicit).2.warnings.map (fun w => w.place.numbers) =
          (t.groups.filter fun e => e.2.items.isEmpty).map Prod.fst)) ∧
    ∀ (v : Value) (t : Group), (({} : Builder).document v).1 = .ok t →
      (∀ a ∈ t.actions, a.HasAttribute) → (({} : Builder).document t.explicit).1 = .ok t := by
  refine ⟨fun t hv => ⟨Group.build_explicit_eq_ok_iff hv, fun ha => ?_⟩, fun v t h ha => ?_⟩
  · exact Group.warnings_of_build ((Group.build_explicit_eq_ok_iff hv).mpr ha)
  · exact (Group.build_explicit_eq_ok_iff (Group.valid_of_build h)).mpr ha

/-- A menu with an empty group is built again, one whose action has only an id is not, and the
explicit form of a shorthand is a document of the same menu. -/
theorem Group.explicit_round_trip_tabs :
    let tabs : Group :=
      { name := "Tabs", items := [.action { id := "tab:new", name := some "New" },
          .group { name := "Old" }] }
    (({} : Builder).document tabs.explicit).1 = .ok tabs ∧
      (({} : Builder).document tabs.explicit).2.warnings.map (fun w => w.place.numbers) = [[1]] ∧
      (({} : Builder).document (Group.root [.action { id := "tab:new" }]).explicit).1 ≠
        .ok (Group.root [.action { id := "tab:new" }]) ∧
      (({} : Builder).document
          (Group.root [.action { id := "tab:new", keycode := some "t" }]).explicit).1 =
        .ok (Group.root [.action { id := "tab:new", keycode := some "t" }]) := by
  intro tabs
  have filled : ∀ {s : String}, Text.hasText s = true → Text.Filled s := Text.filled_of_hasText
  have hv : tabs.Valid := by
    refine ⟨⟨filled (by decide), by simp [tabs], by simp [tabs], by simp [tabs]⟩, ?_⟩
    simp only [tabs, List.mem_cons, List.not_mem_nil, or_false, forall_eq_or_imp, forall_eq]
    refine ⟨.action ⟨filled (by decide), ?_, by simp, by simp, by simp⟩, .group ?_ (by simp)⟩
    · rintro s ⟨⟩
      exact filled (by decide)
    · exact ⟨filled (by decide), by simp, by simp, by simp⟩
  have hid : (Group.root [.action { id := "tab:new" }]).Valid := by
    refine ⟨(Document.list []).labelled.with_items _, ?_⟩
    simp only [Group.root, List.mem_singleton, forall_eq]
    exact .action ⟨filled (by decide), by simp, by simp, by simp, by simp⟩
  have hs : (({} : Builder).document (.list [.map ⟨[("t", .string "tab:new")]⟩])).1 =
      .ok (Group.root [.action { id := "tab:new", keycode := some "t" }]) := by
    have hg := @Rule.Gives.keyedCommand ⟨[("t", .string "tab:new")]⟩ "t" "tab:new"
      ⟨"tab:new", none⟩ rfl (by decide)
    have hb : (Item.buildItems Position.root (some (.list _))).result = .ok _ :=
      (Item.buildItems_eq_ok_iff (fun vs _ v _ => Item.build_eq_ok_iff v) _ _).mpr
        (Item.itemsMean_list.mpr (.cons (.action hg) .nil))
    show (Group.build _).result = _
    rw [Group.build_of_document (.list _)]
    exact Except.map_eq_ok_iff.mpr ⟨_, hb, rfl⟩
  have ha : ∀ a ∈ tabs.actions, a.HasAttribute := by
    simp [tabs, Group.actions, Item.listActions, Item.actions, Action.HasAttribute]
  refine ⟨(Group.explicit_round_trip.1 tabs hv).1.mpr ha,
    (Group.explicit_round_trip.1 tabs hv).2 ha, fun h => ?_,
    Group.explicit_round_trip.2 _ _ hs ?_⟩
  · have hn := (Group.explicit_round_trip.1 _ hid).1.mp h
    simp [Group.root, Group.actions, Item.listActions, Item.actions, Action.HasAttribute] at hn
  · simp [Group.root, Group.actions, Item.listActions, Item.actions, Action.HasAttribute]

end CommandMenu
