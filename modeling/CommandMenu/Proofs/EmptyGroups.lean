import CommandMenu.Proofs.Addresses
import CommandMenu.Proofs.Places

/-! # Warnings are the empty groups

A build warns once about every group that stays empty, and about nothing else.

* `Warning.Tells` says that a warning is about the items of a group within a value, and that it says
  what is wrong with them.
* `Item.warnings_of_build` says that the warnings of a build are the empty groups of its result.
* `Item.nodup_warnings` says that no two warnings of a build have the same path: where their places
  part, the numbers in their texts do.
* `Builder.document_warnings` says all this of a document. -/

namespace CommandMenu

/-- The numbers of the elements that a position leads through. -/
def Position.numbers (p : Position) : List Nat :=
  p.steps.filterMap fun
    | .index number => some number
    | .key _ => none

namespace Position

variable (p : Position)

theorem numbers_keys (keys : List String) :
    numbers ⟨p.steps ++ keys.map .key⟩ = p.numbers := by
  simp [numbers, List.filterMap_map]

theorem numbers_index (n : Nat) : (p.index n).numbers = p.numbers ++ [n] := by
  simp [numbers, index]

end Position

/-! ### One warning for every empty group -/

namespace Item

theorem warnings_of_buildList {vs : List Value} {place : Position} {n : Nat} {items : List Item}
    (ih : ∀ v ∈ vs, ∀ p item, (build p v).result = .ok item →
      (build p v).warnings.map (fun w => w.place.numbers) =
        (Group.emptyAddresses item.groups).map (p.numbers ++ ·))
    (h : (buildList place n vs).result = .ok items) :
    (buildList place n vs).warnings.map (fun w => w.place.numbers) =
      (Group.emptyAddresses (listGroups n items)).map (place.numbers ++ ·) := by
  induction vs generalizing n items with
  | nil =>
      rw [buildList_nil] at h ⊢
      cases h
      rfl
  | cons v rest ihr =>
      obtain ⟨item, built, hv, hr, rfl⟩ := buildList_cons_eq_ok h
      have h1 := ih v List.mem_cons_self _ item hv
      have h2 := ihr (fun w hw => ih w (List.mem_cons_of_mem _ hw)) hr
      rw [buildList_cons_of_ok hv, listGroups, Group.emptyAddresses_append,
        Group.emptyAddresses_map_cons, List.map_append, List.map_append, h1, h2,
        Position.numbers_index, List.map_map]
      simp [Function.comp_def]

theorem warnings_of_buildItems {items : Value} {place : Position} {g : Group}
    (ih : ∀ vs, items = .list vs → ∀ v ∈ vs, ∀ p item, (build p v).result = .ok item →
      (build p v).warnings.map (fun w => w.place.numbers) =
        (Group.emptyAddresses item.groups).map (p.numbers ++ ·))
    (h : (buildItems place (some items)).result = .ok g.items) :
    (buildItems place (some items)).warnings.map (fun w => w.place.numbers) =
      (Group.emptyAddresses (Group.groups g)).map (place.numbers ++ ·) := by
  rw [Group.groups_eq]
  rcases items.flaw_or_elements with ⟨f, hf⟩ | ⟨v, rest, rfl⟩
  · rw [buildItems_of_flaw hf] at h ⊢
    have hi : g.items = [] := (Except.ok.inj h).symm
    simp [hi, Group.emptyAddresses, listGroups]
  · rw [buildItems_cons] at h ⊢
    obtain ⟨item, built, -, -, hi⟩ := buildList_cons_eq_ok h
    rw [warnings_of_buildList (ih _ rfl) h]
    simp [Group.emptyAddresses, hi]

/-- **The warnings of a build are the empty groups of its result.** -/
theorem warnings_of_build {p : Position} {v : Value} {item : Item}
    (h : (build p v).result = .ok item) :
    (build p v).warnings.map (fun w => w.place.numbers) =
      (Group.emptyAddresses item.groups).map (p.numbers ++ ·) := by
  induction p, v using Item.induction generalizing item with
  | refused p v f hs =>
      rw [build_of_error hs] at h
      cases h
  | action p v r a hg =>
      rw [hg.build_action] at h ⊢
      cases h
      rfl
  | group p v r head keys items hg ih =>
      rw [hg.build_group] at h ⊢
      obtain ⟨built, hb, rfl⟩ := Except.map_eq_ok_iff.mp h
      have hw := warnings_of_buildItems (g := { head with items := built })
        (fun vs hvs w hw q item hi => ih vs hvs w hw q hi) hb
      rw [Position.numbers_keys] at hw
      exact hw

end Item

/-! ### What a warning tells -/

/-- A warning leads to items of a group within the value at a position, and says what is wrong with
them. -/
def Warning.Tells (p : Position) (v : Value) (w : Warning) : Prop :=
  ∃ steps items, w.place = ⟨p.steps ++ steps⟩ ∧ v.canonical.at? steps = some items ∧
    w.flaw.Of items

namespace Warning

variable {p : Position} {w : Warning}

theorem Tells.here {v : Value} {f : Flaw} (h : f.Of v) : Tells p v ⟨p, f⟩ :=
  ⟨[], v.canonical, by rw [List.append_nil], rfl, h.canonical⟩

theorem Tells.of_route {v items : Value} {keys : List String} (hr : v.Route keys items)
    (h : w.Tells ⟨p.steps ++ keys.map .key⟩ items) : w.Tells p v := by
  obtain ⟨steps, node, hw, ha, hf⟩ := h
  rw [List.append_assoc] at hw
  exact ⟨keys.map .key ++ steps, node, hw, by rw [hr, ha], hf⟩

theorem Tells.of_index {before after : List Value} {v : Value}
    (h : w.Tells (p.index before.length) v) : w.Tells p (.list (before ++ v :: after)) := by
  obtain ⟨steps, node, hw, ha, hf⟩ := h
  refine ⟨.index before.length :: steps, node, ?_, by rw [Value.at?_element, ha], hf⟩
  simpa [Position.index] using hw

end Warning

namespace Item

theorem mem_warnings_of_buildList {place : Position} {n : Nat} {vs : List Value} {w : Warning}
    (h : w ∈ (buildList place n vs).warnings) :
    ∃ before v after, vs = before ++ v :: after ∧
      w ∈ (build (place.index (n + before.length)) v).warnings := by
  induction vs generalizing n with
  | nil =>
      rw [buildList_nil] at h
      cases h
  | cons v rest ih =>
      cases hv : (build (place.index n) v).result with
      | error f =>
          rw [buildList_cons_of_error hv] at h
          exact ⟨[], v, rest, rfl, h⟩
      | ok item =>
          rw [buildList_cons_of_ok hv] at h
          rcases List.mem_append.mp h with h | h
          · exact ⟨[], v, rest, rfl, h⟩
          · obtain ⟨before, u, after, rfl, hu⟩ := ih h
            refine ⟨v :: before, u, after, rfl, ?_⟩
            rwa [List.length_cons, Nat.add_comm before.length 1, ← Nat.add_assoc]

theorem mem_warnings_of_buildItems {place : Position} {items : Value} {w : Warning}
    (h : w ∈ (buildItems place (some items)).warnings) :
    (∃ f : Warning.Flaw, f.Of items ∧ w = ⟨place, f⟩) ∨
      ∃ before v after, items = .list (before ++ v :: after) ∧
        w ∈ (build (place.index before.length) v).warnings := by
  rcases items.flaw_or_elements with ⟨f, hf⟩ | ⟨v, rest, rfl⟩
  · rw [buildItems_of_flaw hf, List.mem_singleton] at h
    exact .inl ⟨f, hf, h⟩
  · rw [buildItems_cons] at h
    obtain ⟨before, u, after, hvs, hu⟩ := mem_warnings_of_buildList h
    rw [Nat.zero_add] at hu
    exact .inr ⟨before, u, after, by rw [hvs], hu⟩

theorem tells_of_mem_warnings {p : Position} {v : Value} {w : Warning}
    (h : w ∈ (build p v).warnings) : w.Tells p v := by
  induction p, v using Item.induction with
  | refused p v f hs =>
      rw [build_of_error hs] at h
      cases h
  | action p v r a hg =>
      rw [hg.build_action] at h
      cases h
  | group p v r head keys items hg ih =>
      rw [hg.build_group] at h
      rcases mem_warnings_of_buildItems h with ⟨f, hf, rfl⟩ | ⟨before, u, after, rfl, hu⟩
      · exact .of_route hg.route (.here hf)
      · exact .of_route hg.route (.of_index (ih _ rfl u (by simp) _ hu))

end Item

/-! ### Paths of warnings -/

namespace Item

theorem isPrefix_path {p : Position} {n : Nat} {v : Value} {w : Warning}
    (h : w ∈ (build (p.index n) v).warnings) :
    (p.index n).render.toList <+: w.path.toList := by
  obtain ⟨steps, items, hw, -, -⟩ := tells_of_mem_warnings h
  have hd := w.place.display_eq_render (i := n) (by simp [hw, Position.index])
  have hn := (p.index n).render_ne_empty_of_index (i := n) (by simp [Position.index])
  rw [Warning.path, hd, hw]
  exact Position.isPrefix_render hn steps

theorem nodup_warnings_of_buildList {vs : List Value}
    (ih : ∀ v ∈ vs, ∀ p, ((build p v).warnings.map Warning.path).Nodup) (place : Position)
    (n : Nat) : ((buildList place n vs).warnings.map Warning.path).Nodup := by
  induction vs generalizing n with
  | nil =>
      rw [buildList_nil]
      exact List.nodup_nil
  | cons v rest ihr =>
      have h1 := ih v List.mem_cons_self (place.index n)
      cases hv : (build (place.index n) v).result with
      | error f => rwa [buildList_cons_of_error hv]
      | ok item =>
          have h2 := ihr (fun w hw => ih w (List.mem_cons_of_mem _ hw)) (n + 1)
          rw [buildList_cons_of_ok hv, List.map_append, List.nodup_append]
          refine ⟨h1, h2, ?_⟩
          rintro path hp path' hp' rfl
          obtain ⟨w, hw, rfl⟩ := List.mem_map.mp hp
          obtain ⟨w', hw', he⟩ := List.mem_map.mp hp'
          -- both paths start with the text of the list, but go on with different numbers
          obtain ⟨before, u, after, -, hu⟩ := mem_warnings_of_buildList hw'
          have hn := Position.eq_of_isPrefix_index (isPrefix_path hw) (he ▸ isPrefix_path hu)
          omega

theorem nodup_warnings_of_buildItems {items : Value}
    (ih : ∀ vs, items = .list vs → ∀ v ∈ vs, ∀ p, ((build p v).warnings.map Warning.path).Nodup)
    (place : Position) :
    ((buildItems place (some items)).warnings.map Warning.path).Nodup := by
  rcases items.flaw_or_elements with ⟨f, hf⟩ | ⟨v, rest, rfl⟩
  · rw [buildItems_of_flaw hf]
    exact List.nodup_singleton _
  · rw [buildItems_cons]
    exact nodup_warnings_of_buildList (ih _ rfl) place 0

/-- **No two warnings of a build have the same path.** -/
theorem nodup_warnings (p : Position) (v : Value) :
    ((build p v).warnings.map Warning.path).Nodup := by
  induction p, v using Item.induction with
  | refused p v f hs =>
      rw [build_of_error hs]
      exact List.nodup_nil
  | action p v r a hg =>
      rw [hg.build_action]
      exact List.nodup_nil
  | group p v r head keys items hg ih =>
      rw [hg.build_group]
      exact nodup_warnings_of_buildItems ih _

end Item

/-! ### Documents -/

namespace Warning

/-- The wording of a flaw is about the items it is a flaw of. -/
theorem message_of_flaw {w : Warning} {items : Value} (h : w.flaw.Of items) :
    items = .list [] ∧ w.message = "group has no items" ∨
      (∀ vs, items ≠ .list vs) ∧
        w.message = "`items` is " ++ items.kind ++ ", not a list; the group is left empty" := by
  obtain ⟨place, flaw⟩ := w
  cases h with
  | noItems => exact .inl ⟨rfl, rfl⟩
  | notAList h => exact .inr ⟨h, rfl⟩

theorem message_ne_missing {w : Warning} {items : Value} (h : w.flaw.Of items) :
    w.message ≠ "group has no `items`" := by
  rcases message_of_flaw h with ⟨-, hm⟩ | ⟨-, hm⟩
  · rw [hm]
    decide
  · rw [hm]
    intro he
    have hc := congrArg (fun s : String => s.toList.head?) he
    simp at hc

end Warning

namespace Group

variable {v : Value}

theorem nodup_warnings (v : Value) : ((build v).warnings.map Warning.path).Nodup := by
  rcases document_or_refuse v with ⟨head, keys, items, hd⟩ | ⟨found, hf⟩
  · rw [build_of_document hd]
    exact Item.nodup_warnings_of_buildItems (fun vs _ w _ q => Item.nodup_warnings q w) _
  · rw [hf]
    exact List.nodup_nil

theorem warnings_of_build {t : Group} (h : (build v).result = .ok t) :
    (build v).warnings.map (fun w => w.place.numbers) = emptyAddresses (groups t) := by
  rcases document_or_refuse v with ⟨head, keys, items, hd⟩ | ⟨found, hf⟩
  · rw [build_of_document hd] at h ⊢
    obtain ⟨built, hb, rfl⟩ := Except.map_eq_ok_iff.mp h
    have hw := Item.warnings_of_buildItems (g := { head with items := built })
      (fun vs _ w _ q item hi => Item.warnings_of_build hi) hb
    have hk := Position.root.numbers_keys keys
    rw [Position.root, List.nil_append] at hk
    rw [hw, hk]
    simp [Position.numbers]
  · rw [hf] at h
    cases h

theorem tells_of_mem_warnings {w : Warning} (h : w ∈ (build v).warnings) :
    w.Tells Position.root v := by
  rcases document_or_refuse v with ⟨head, keys, items, hd⟩ | ⟨found, hf⟩
  · rw [build_of_document hd] at h
    rcases Item.mem_warnings_of_buildItems h with ⟨f, hf, rfl⟩ | ⟨before, u, after, rfl, hu⟩
    · exact .of_route hd.route (.here hf)
    · exact .of_route hd.route (.of_index (Item.tells_of_mem_warnings hu))
  · rw [hf] at h
    cases h

/-- Only the items of a document that is a list stand at its root. -/
theorem path_ne_root (hv : v ≠ .list []) {w : Warning} (h : w ∈ (build v).warnings) :
    w.path ≠ "<root>" := by
  rcases document_or_refuse v with ⟨head, keys, items, hd⟩ | ⟨found, hf⟩
  · rw [build_of_document hd] at h
    rcases Item.mem_warnings_of_buildItems h with ⟨f, hf, rfl⟩ | ⟨before, u, after, rfl, hu⟩
    · cases hd with
      | list vs =>
          cases hf with
          | noItems => exact absurd rfl hv
          | notAList ho => exact absurd rfl (ho vs)
      | map hi => simp [Warning.path, Position.display, Position.render, Step.extend]
    · intro he
      have hp := Item.isPrefix_path hu
      rw [he, Position.render_index] at hp
      cases hd with
      | list => simp [Position.render] at hp
      | map hi => simp [Position.render, Step.extend] at hp
  · rw [hf] at h
    cases h

end Group

/-- **The warnings of a document.**  They are the empty groups of the menu, in the order in which
the menu lists its groups.  Each leads to the items of its group and says what is wrong with them.
No two have the same path, and only an empty list has a warning at its root. -/
theorem Builder.document_warnings (v : Value) (b : Builder) (x : Except Fault Group)
    (h : ({} : Builder).document v = (x, b)) :
    (∀ t : Group, x = .ok t →
      b.warnings.map (fun w => w.place.numbers) =
        (t.groups.filter fun e => e.2.items.isEmpty).map Prod.fst ∧
      (b.warnings.map fun w => w.place.numbers).Nodup ∧
      ∀ a, a ∈ b.warnings.map (fun w => w.place.numbers) ↔ ∃ g, t.at? a = some g ∧ g.items = []) ∧
    (∀ w ∈ b.warnings, ∃ items, v.canonical.at? w.place.steps = some items ∧
      (items = .list [] ∧ w.message = "group has no items" ∨
        (∀ vs, items ≠ .list vs) ∧
          w.message = "`items` is " ++ items.kind ++ ", not a list; the group is left empty")) ∧
    (∀ w ∈ b.warnings, w.message ≠ "group has no `items`") ∧
    (b.warnings.map Warning.path).Nodup ∧
    ((∃ w ∈ b.warnings, w.path = "<root>") ↔ v = .list []) := by
  have hx : (Group.build v).result = x := congrArg Prod.fst h
  have hb : (Group.build v).warnings = b.warnings := congrArg (fun y => y.2.warnings) h
  rw [← hb]
  refine ⟨fun t hxt => ?_, fun w hw => ?_, fun w hw => ?_, Group.nodup_warnings v, ?_⟩
  · have hw := Group.warnings_of_build (hx.trans hxt)
    rw [hw]
    exact ⟨rfl, Group.nodup_emptyAddresses t, fun a => Group.mem_emptyAddresses⟩
  · obtain ⟨steps, items, hp, ha, hf⟩ := Group.tells_of_mem_warnings hw
    exact ⟨items, by rw [hp]; exact ha, Warning.message_of_flaw hf⟩
  · obtain ⟨steps, items, -, -, hf⟩ := Group.tells_of_mem_warnings hw
    exact Warning.message_ne_missing hf
  · constructor
    · rintro ⟨w, hw, hp⟩
      by_contra hv
      exact Group.path_ne_root hv hw hp
    · rintro rfl
      rw [Group.build_of_document (.list []), Item.buildItems_of_flaw .noItems]
      exact ⟨_, List.mem_singleton_self _, rfl⟩

/-- A group of an empty list and a group whose items are null. -/
theorem Builder.document_warnings_two_empty :
    ∃ b : Builder, ({} : Builder).document (.list [.map ⟨[("A", .list [])]⟩,
        .map ⟨[("B", .map ⟨[("items", .null)]⟩)]⟩]) =
          (.ok (Group.root [.group { name := "A" }, .group { name := "B" }]), b) ∧
      b.warnings.map (fun w => w.place.numbers) = [[0], [1]] ∧
      (b.warnings.map Warning.path).Nodup := by
  have ha : Rule.Gives _ (.map ⟨[("A", .list [])]⟩) _ := .namedList rfl (by decide)
  have hb := @Rule.Gives.keyedGroup ⟨[("B", .map ⟨[("items", .null)]⟩)]⟩ _ "B" "B" _ rfl rfl
    (by decide)
  have ha' := ha.build_group (Position.root.index 0)
  have hb' := hb.build_group (Position.root.index (0 + 1))
  rw [Item.buildItems_of_flaw .noItems] at ha'
  rw [Item.buildItems_of_flaw (.notAList (by simp))] at hb'
  have hg : Group.build (.list [.map ⟨[("A", .list [])]⟩,
      .map ⟨[("B", .map ⟨[("items", .null)]⟩)]⟩]) =
        ⟨.ok (Group.root [.group { name := "A" }, .group { name := "B" }]),
          [⟨(Position.root.index 0).key "A", .noItems⟩,
            ⟨((Position.root.index 1).key "B").key "items", .notAList "null"⟩]⟩ := by
    rw [Group.build_of_document (.list _), Item.buildItems_cons]
    show (⟨(Item.buildList Position.root 0 _).result.map _,
      (Item.buildList Position.root 0 _).warnings⟩ : Outcome Group) = _
    rw [Item.buildList_cons_of_ok (congrArg Outcome.result ha'),
      Item.buildList_cons_of_ok (congrArg Outcome.result hb'), Item.buildList_nil, ha', hb']
    rfl
  have hd := congrArg (Builder.after {}) hg
  have hw := Builder.document_warnings _ _ _ hd
  exact ⟨_, hd, (hw.1 _ rfl).1, hw.2.2.2.1⟩

end CommandMenu
