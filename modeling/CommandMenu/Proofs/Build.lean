import CommandMenu.Menu.Document
import CommandMenu.Proofs.Rules
import Mathlib.Data.List.Forall2

/-! # A build, step by step

What one step of a build comes to, so that no later proof opens the build itself.

* `Item.build_of_error`, `Item.build_of_action` and `Item.build_of_group` build an item from what
  its value stands for, `Rule.Gives.build_action` and `Rule.Gives.build_group` from a rule.
* `Item.buildItems_of_flaw` and `Item.buildItems_cons` build the items of a group,
  `Item.buildList_cons_of_ok` and `Item.buildList_cons_of_error` the elements of a list one by one.
* `Document` says what the outermost group of a document is made of; `Group.build_of_document`
  builds it, and `Group.document_or_refuse` says that everything else is refused.
* `Reading.ofContents_yaml` reads a YAML file, and `Reading.ofContents_command` one with one command.
* `Value.induction` is induction along the nesting of groups: a property that holds of a value as
  soon as it holds of the items of the group it stands for holds of all values.
* `Item.induction` is the same for the values at all positions, rule by rule. -/

namespace CommandMenu

theorem Except.bind_eq_ok_iff {ε α β : Type} {x : Except ε α} {g : α → Except ε β} {b : β} :
    x >>= g = .ok b ↔ ∃ a, x = .ok a ∧ g a = .ok b := by
  cases x <;> simp [bind, Except.bind]

/-- A changed result is a result that was changed. -/
theorem Except.map_eq_ok_iff {ε α β : Type} {x : Except ε α} {g : α → β} {b : β} :
    x.map g = .ok b ↔ ∃ a, x = .ok a ∧ g a = b := by
  cases x <;> simp [Except.map]

theorem Except.map_eq_error_iff {ε α β : Type} {x : Except ε α} {g : α → β} {e : ε} :
    x.map g = .error e ↔ x = .error e := by
  cases x <;> simp [Except.map]

theorem exists_mem_of_forall₂ {α β : Type} {R : α → β → Prop} {xs : List α} {ys : List β}
    (h : List.Forall₂ R xs ys) {y : β} (hy : y ∈ ys) : ∃ x ∈ xs, R x y := by
  induction h with
  | nil => cases hy
  | @cons a b xs ys hab _ ih =>
      rcases List.mem_cons.mp hy with rfl | hy
      · exact ⟨a, List.mem_cons_self, hab⟩
      · obtain ⟨x, hx, hr⟩ := ih hy
        exact ⟨x, List.mem_cons_of_mem _ hx, hr⟩

/-! ### One item -/

theorem Item.build_of_error {p : Position} {v : Value} {f : Fault}
    (h : Shape.ofValue p v = .error f) : Item.build p v = .refuse f := by
  rw [Item.build]
  split
  · next f' h' =>
      rw [h] at h'
      cases h'
      rfl
  · next h' => rw [h] at h'; cases h'
  · next h' => rw [h] at h'; cases h'

theorem Item.build_of_action {p : Position} {v : Value} {a : Action}
    (h : Shape.ofValue p v = .ok (.action a)) : Item.build p v = .ok (.action a) := by
  rw [Item.build]
  split
  · next h' => rw [h] at h'; cases h'
  · next a' h' =>
      rw [h] at h'
      cases h'
      rfl
  · next h' => rw [h] at h'; cases h'

theorem Item.build_of_group {p place : Position} {v : Value} {head : GroupOf Value}
    {items : Option Value} (h : Shape.ofValue p v = .ok (.group head items place)) :
    Item.build p v =
      ⟨(Item.buildItems place items).result.map fun built => .group { head with items := built },
        (Item.buildItems place items).warnings⟩ := by
  rw [Item.build]
  split
  · next h' => rw [h] at h'; cases h'
  · next h' => rw [h] at h'; cases h'
  · next h' =>
      rw [h] at h'
      cases h'
      exact Outcome.bind_pure_comp _ _

theorem Rule.Gives.build_action {r : Rule} {v : Value} {a : Action}
    (h : Rule.Gives r v (.action a)) (p : Position) : Item.build p v = .ok (.action a) :=
  Item.build_of_action (Shape.ofValue_of_gives h p)

theorem Rule.Gives.build_group {r : Rule} {v items : Value} {head : GroupOf Value}
    {keys : List String} (h : Rule.Gives r v (.group head keys items)) (p : Position) :
    Item.build p v =
      ⟨(Item.buildItems ⟨p.steps ++ keys.map .key⟩ (some items)).result.map
          fun built => .group { head with items := built },
        (Item.buildItems ⟨p.steps ++ keys.map .key⟩ (some items)).warnings⟩ :=
  Item.build_of_group (Shape.ofValue_of_gives h p)

/-! ### The items of a group -/

/-- Why there is nothing to build in the items of a group. -/
inductive Warning.Flaw.Of : Value → Warning.Flaw → Prop
  | noItems : Of (.list []) .noItems
  | notAList {v : Value} (h : ∀ vs, v ≠ .list vs) : Of v (.notAList v.kind)

/-- There is nothing to build, or there is a list with a first element. -/
theorem Value.flaw_or_elements (v : Value) :
    (∃ f : Warning.Flaw, f.Of v) ∨ ∃ first rest, v = .list (first :: rest) := by
  cases v with
  | list vs =>
      cases vs with
      | nil => exact .inl ⟨_, .noItems⟩
      | cons first rest => exact .inr ⟨first, rest, rfl⟩
  | _ => exact .inl ⟨_, .notAList (by simp)⟩

theorem Item.buildItems_of_flaw {items : Value} {f : Warning.Flaw} (h : f.Of items)
    (place : Position) : Item.buildItems place (some items) = ⟨.ok [], [⟨place, f⟩]⟩ := by
  cases h with
  | noItems =>
      rw [Item.buildItems]
      rfl
  | notAList h =>
      rw [Item.buildItems]
      · rfl
      · exact h []
      · exact fun first rest => h (first :: rest)

theorem Item.buildItems_cons (place : Position) (v : Value) (rest : List Value) :
    Item.buildItems place (some (.list (v :: rest))) = Item.buildList place 0 (v :: rest) := by
  rw [Item.buildItems]

/-! ### The elements of a list -/

theorem Item.buildList_nil (place : Position) (n : Nat) : Item.buildList place n [] = .ok [] := by
  rw [Item.buildList]

theorem Item.buildList_cons_of_ok {place : Position} {n : Nat} {v : Value} {item : Item}
    (h : (Item.build (place.index n) v).result = .ok item) (rest : List Value) :
    Item.buildList place n (v :: rest) =
      ⟨(Item.buildList place (n + 1) rest).result.map (item :: ·),
        (Item.build (place.index n) v).warnings ++
          (Item.buildList place (n + 1) rest).warnings⟩ := by
  rw [Item.buildList, Outcome.bind_of_ok h, Outcome.bind_pure_comp]

/-- Behind the first element that fails, nothing is looked at. -/
theorem Item.buildList_cons_of_error {place : Position} {n : Nat} {v : Value} {f : Fault}
    (h : (Item.build (place.index n) v).result = .error f) (rest : List Value) :
    Item.buildList place n (v :: rest) =
      ⟨.error f, (Item.build (place.index n) v).warnings⟩ := by
  rw [Item.buildList, Outcome.bind_of_error h]

/-- A list is built if its first element and the rest are. -/
theorem Item.buildList_cons_eq_ok {place : Position} {n : Nat} {v : Value} {rest : List Value}
    {items : List Item} (h : (Item.buildList place n (v :: rest)).result = .ok items) :
    ∃ item built, (Item.build (place.index n) v).result = .ok item ∧
      (Item.buildList place (n + 1) rest).result = .ok built ∧ items = item :: built := by
  cases hv : (Item.build (place.index n) v).result with
  | error f =>
      rw [Item.buildList_cons_of_error hv] at h
      cases h
  | ok item =>
      rw [Item.buildList_cons_of_ok hv, Except.map_eq_ok_iff] at h
      obtain ⟨built, hb, rfl⟩ := h
      exact ⟨item, built, rfl, hb, rfl⟩

/-! ### Documents -/

/-- What the outermost group of a document is made of: its attributes, and the value that its items
are read from with the keys that lead to it. -/
inductive Document : Value → GroupOf Value → List String → Value → Prop
  | list (vs : List Value) : Document (.list vs) { name := Group.rootName } [] (.list vs)
  | map {m : Fields Value} {items : Value} (hi : m.canonical.get? "items" = some items) :
      Document (.map m)
        { name := (m.canonical.text? "name").getD Group.rootName,
          keycode := m.canonical.text? "keycode", icon := m.canonical.text? "icon",
          color := m.canonical.text? "color" }
        ["items"] items

theorem Group.build_of_document {v items : Value} {head : GroupOf Value} {route : List String}
    (h : Document v head route items) :
    Group.build v =
      ⟨(Item.buildItems ⟨route.map .key⟩ (some items)).result.map
          fun built => { head with items := built },
        (Item.buildItems ⟨route.map .key⟩ (some items)).warnings⟩ := by
  cases h with
  | list vs => exact Outcome.bind_pure_comp _ _
  | map hi =>
      simp only [Group.build, Fields.has_iff.mpr ⟨_, hi⟩, if_true, hi]
      exact Outcome.bind_pure_comp _ _

theorem Group.document_or_refuse (v : Value) : (∃ head route items, Document v head route items) ∨
    ∃ found, Group.build v = .refuse (.malformedDocument found) := by
  cases v with
  | list vs => exact .inl ⟨_, _, _, .list vs⟩
  | map m =>
      cases hi : m.canonical.get? "items" with
      | some items => exact .inl ⟨_, _, _, .map hi⟩
      | none =>
          refine .inr ⟨"a map without `items`", ?_⟩
          simp [Group.build, Fields.has_eq_false_iff.mpr hi]
  | string s => exact .inr ⟨_, rfl⟩
  | null => exact .inr ⟨_, rfl⟩
  | bool b => exact .inr ⟨_, rfl⟩
  | number n => exact .inr ⟨_, rfl⟩

/-- A document of one action. -/
theorem Group.build_of_action {r : Rule} {v : Value} {a : Action} (h : Rule.Gives r v (.action a)) :
    Group.build (.list [v]) = .ok (Group.root [.action a]) := by
  have hv := h.build_action (Position.root.index 0)
  rw [Group.build_of_document (.list _), Item.buildItems_cons]
  show (⟨(Item.buildList Position.root 0 _).result.map _,
    (Item.buildList Position.root 0 _).warnings⟩ : Outcome Group) = _
  rw [Item.buildList_cons_of_ok (congrArg Outcome.result hv), Item.buildList_nil, hv]
  rfl

/-! ### Files -/

theorem Group.ofYamlText_of_read {text : String} {v : Value} (h : Value.read text = .ok v) :
    ofYamlText text = build v := by
  rw [ofYamlText, h]
  rfl

/-- A YAML file holds the menu of its contents. -/
theorem Reading.ofContents_yaml {file : String} (hf : Format.ofFileName file = .yaml)
    (contents : String) (now : Instant) :
    ofContents file contents now = (Group.ofYamlText contents).result.map fun menu =>
      ⟨⟨menu, .yaml, now⟩, (Group.ofYamlText contents).warnings, true⟩ := by
  rw [ofContents, hf]
  simp only [build, Outcome.bind_pure_comp]
  cases (Group.ofYamlText contents).result <;> rfl

/-- A YAML file that is a list of one command.  That it is read as such can be computed. -/
theorem Reading.ofContents_command {file text s : String} {c : CommandText}
    (hf : Format.ofFileName file = .yaml)
    (hr : (match Value.read text with
      | .ok (.list [.string s']) => s' == s
      | _ => false) = true)
    (hc : CommandText.ofText? s = some c) (now : Instant) :
    ofContents file text now =
      .ok ⟨⟨Group.root [.action { id := c.id, name := c.name }], .yaml, now⟩, [], true⟩ := by
  have hread : Value.read text = .ok (.list [.string s]) := by
    split at hr
    · next s' h => rw [h, beq_iff_eq.mp hr]
    · cases hr
  rw [ofContents_yaml hf, Group.ofYamlText_of_read hread, Group.build_of_action (.command hc)]
  rfl

/-! ### Induction along the nesting of groups -/

theorem Value.induction {P : Value → Prop}
    (step : ∀ v, (∀ p head vs place, Shape.ofValue p v = .ok (.group head (some (.list vs)) place) →
      ∀ w ∈ vs, P w) → P v) (v : Value) : P v := by
  induction h : sizeOf v using Nat.strongRecOn generalizing v with
  | ind n ih =>
      subst h
      refine step v fun p head vs place hs w hw => ih (sizeOf w) ?_ w rfl
      have hv := Shape.sizeOf_items_lt hs
      have hm := List.sizeOf_lt_of_mem hw
      simp only [Option.some.sizeOf_spec, Value.list.sizeOf_spec] at hv
      omega

theorem Item.induction {P : Position → Value → Prop}
    (refused : ∀ p v f, Shape.ofValue p v = .error f → P p v)
    (action : ∀ p v r a, Rule.Gives r v (.action a) → P p v)
    (group : ∀ p v r head keys items, Rule.Gives r v (.group head keys items) →
      (∀ vs, items = .list vs → ∀ w ∈ vs, ∀ q, P q w) → P p v)
    (p : Position) (v : Value) : P p v := by
  induction v using Value.induction generalizing p with
  | step v ih =>
      cases hs : Shape.ofValue p v with
      | error f => exact refused p v f hs
      | ok s =>
          obtain ⟨r, o, hg, rfl⟩ := Shape.gives_of_ofValue hs
          cases o with
          | action a => exact action p v r a hg
          | group head keys items =>
              refine group p v r head keys items hg ?_
              rintro vs rfl w hw q
              exact ih p head vs _ hs w hw q

end CommandMenu
