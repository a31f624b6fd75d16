import CommandMenu.Proofs.Build

/-! # Canonical field names at every depth

A menu is built from a document as if all its fields had their canonical names from the start.

* `Alias.apply_cases` says what can become of a map when one field is renamed, and
  `Fields.canonical_canonical` says that renaming a second time changes nothing.
* `Value.canonical` renames the fields of all maps of a value.
* `Item.build_canonical` and `Group.build_canonical` say that building does not see the
  difference; `Builder.older_names_interchangeable` says it of several builds with one builder. -/

namespace CommandMenu

variable {α β : Type}

/-! ### Renaming the fields of one map -/

namespace Alias

variable {a b : Alias} {m : Fields α}

/-- No field of a map goes by an older name that could be replaced. -/
def Settled (a : Alias) (m : Fields α) : Prop := m.has a.canonical = true ∨ m.get? a.old = none

/-- The value under the older name, if it goes on under the canonical one. -/
def moved? (a : Alias) (m : Fields α) : Option α :=
  if m.has a.canonical then none else m.get? a.old

theorem moved?_eq_none_iff : a.moved? m = none ↔ a.Settled m := by
  unfold moved? Settled
  split
  · next hc => exact iff_of_true rfl (.inl hc)
  · next hc => exact (or_iff_right hc).symm

theorem moved?_eq_some_iff {v : α} :
    a.moved? m = some v ↔ m.has a.canonical = false ∧ m.get? a.old = some v := by
  unfold moved?
  split
  · next hc => simp [hc]
  · next hc => simp [hc]

theorem apply_of_settled (h : a.Settled m) : a.apply m = m := by
  unfold apply
  rcases h with h | h
  · rw [if_pos h]
  · split
    · rfl
    · rw [h]

theorem apply_of_moved? {v : α} (h : a.moved? m = some v) :
    a.apply m = (m.erase a.old).insert a.canonical v := by
  obtain ⟨hc, ho⟩ := moved?_eq_some_iff.mp h
  rw [apply, hc, ho, if_neg Bool.false_ne_true]

/-- What can become of a map when one of its fields is renamed. -/
theorem apply_cases (a : Alias) (m : Fields α) :
    a.Settled m ∧ a.apply m = m ∨
      ∃ v, a.moved? m = some v ∧ a.apply m = (m.erase a.old).insert a.canonical v := by
  cases h : a.moved? m with
  | none =>
      have hs := moved?_eq_none_iff.mp h
      exact .inl ⟨hs, apply_of_settled hs⟩
  | some v => exact .inr ⟨v, rfl, apply_of_moved? h⟩

theorem settled_apply (a : Alias) (m : Fields α) : a.Settled (a.apply m) := by
  rcases a.apply_cases m with ⟨hs, h⟩ | ⟨v, -, h⟩
  · rwa [h]
  · refine .inl (Fields.has_iff.mpr ⟨v, ?_⟩)
    rw [h, Fields.get?_insert, if_pos rfl]

/-- Renaming one field leaves the fields with other names alone. -/
theorem get?_apply_of_ne {key : String} (ho : a.old ≠ key) (hc : a.canonical ≠ key)
    (m : Fields α) : (a.apply m).get? key = m.get? key := by
  rcases a.apply_cases m with ⟨-, h⟩ | ⟨v, -, h⟩
  · rw [h]
  · rw [h, Fields.get?_insert, if_neg hc, Fields.get?_erase_of_ne ho]

/-- Two fields have no name in common. -/
def Apart (a b : Alias) : Prop := ∀ x ∈ [a.old, a.canonical], ∀ y ∈ [b.old, b.canonical], x ≠ y

instance : DecidableRel Apart := fun a b =>
  inferInstanceAs (Decidable (∀ x ∈ [a.old, a.canonical], ∀ y ∈ [b.old, b.canonical], x ≠ y))

theorem Apart.get?_apply (h : a.Apart b) (m : Fields α) {key : String}
    (hk : key ∈ [b.old, b.canonical]) : (a.apply m).get? key = m.get? key :=
  get?_apply_of_ne (h _ (by simp) _ hk) (h _ (by simp) _ hk) m

theorem Apart.has_apply (h : a.Apart b) (m : Fields α) :
    (a.apply m).has b.canonical = m.has b.canonical := by
  rw [Fields.has, Fields.has, h.get?_apply m (by simp)]

theorem Settled.apply (h : b.Settled m) (hd : a.Apart b) : b.Settled (a.apply m) := by
  unfold Settled
  rwa [hd.has_apply, hd.get?_apply m (by simp)]

end Alias

/-- **Renaming is idempotent.** -/
theorem Fields.canonical_canonical (m : Fields α) : m.canonical.canonical = m.canonical := by
  have h₁ : Alias.Settled ⟨"command", "id"⟩ m.canonical :=
    (Alias.settled_apply _ _).apply (by decide)
  have h₂ : Alias.Settled ⟨"description", "name"⟩ m.canonical := Alias.settled_apply _ _
  show Alias.apply ⟨"description", "name"⟩ (Alias.apply ⟨"command", "id"⟩ m.canonical) = m.canonical
  rw [Alias.apply_of_settled h₁, Alias.apply_of_settled h₂]

/-- A map without older names has canonical names. -/
theorem Fields.canonical_of_get?_eq_none {m : Fields α} (hc : m.get? "command" = none)
    (hd : m.get? "description" = none) : m.canonical = m := by
  have h₁ : Alias.Settled ⟨"command", "id"⟩ m := .inr hc
  have h₂ : Alias.Settled ⟨"description", "name"⟩ m := .inr hd
  show Alias.apply ⟨"description", "name"⟩ (Alias.apply ⟨"command", "id"⟩ m) = m
  rw [Alias.apply_of_settled h₁, Alias.apply_of_settled h₂]

/-! ### Changing the values of a map -/

namespace Fields

/-- The map with the same keys and changed values. -/
def map (f : α → β) (m : Fields α) : Fields β := ⟨m.entries.map fun e => (e.1, f e.2)⟩

variable (f : α → β) (m : Fields α) (key : String)

theorem lookup_map : ∀ es : List (String × α),
    lookup key (es.map fun e => (e.1, f e.2)) = (lookup key es).map f
  | [] => rfl
  | (k, v) :: rest => by
      by_cases hk : k = key
      · simp [lookup, hk]
      · simp [lookup, hk, lookup_map rest]

theorem place_map (v : α) : ∀ es : List (String × α),
    place key (f v) (es.map fun e => (e.1, f e.2)) = (place key v es).map fun e => (e.1, f e.2)
  | [] => rfl
  | (k, w) :: rest => by
      by_cases hk : k = key
      · simp [place, hk]
      · simp [place, hk, place_map v rest]

theorem drop_map : ∀ es : List (String × α),
    drop key (es.map fun e => (e.1, f e.2)) = (drop key es).map fun e => (e.1, f e.2)
  | [] => rfl
  | (k, w) :: rest => by
      by_cases hk : k = key
      · simp [drop, hk]
      · simp [drop, hk, drop_map rest]

@[simp] theorem get?_map : (m.map f).get? key = (m.get? key).map f := lookup_map f key m.entries

@[simp] theorem has_map : (m.map f).has key = m.has key := by simp [has]

theorem insert_map (v : α) : (m.map f).insert key (f v) = (m.insert key v).map f :=
  congrArg mk (place_map f key v m.entries)

theorem erase_map : (m.map f).erase key = (m.erase key).map f :=
  congrArg mk (drop_map f key m.entries)

@[simp] theorem single?_map : (m.map f).single? = m.single?.map fun e => (e.1, f e.2) := by
  obtain ⟨es⟩ := m
  match es with
  | [] => rfl
  | [e] => rfl
  | e :: e' :: rest => rfl

theorem apply_alias_map (a : Alias) : a.apply (m.map f) = (a.apply m).map f := by
  unfold Alias.apply
  rw [has_map, get?_map]
  split
  · rfl
  · cases m.get? a.old with
    | none => rfl
    | some v => simp only [Option.map_some, erase_map, insert_map]

theorem canonical_map : (m.map f).canonical = m.canonical.map f := by
  simp only [canonical, Alias.table, List.foldl, apply_alias_map]

end Fields

/-! ### Renaming the fields of all maps -/

mutual

/-- A value with canonical field names in all its maps. -/
def Value.canonical : Value → Value
  | .list vs => .list (Value.canonicalList vs)
  | .map ⟨es⟩ => .map (Fields.canonical ⟨Value.canonicalEntries es⟩)
  | .null => .null
  | .bool b => .bool b
  | .number n => .number n
  | .string s => .string s

/-- Some values with canonical field names in all their maps. -/
def Value.canonicalList : List Value → List Value
  | [] => []
  | v :: rest => v.canonical :: Value.canonicalList rest

/-- Some entries whose values have canonical field names in all their maps. -/
def Value.canonicalEntries : List (String × Value) → List (String × Value)
  | [] => []
  | (k, v) :: rest => (k, v.canonical) :: Value.canonicalEntries rest

end

namespace Value

theorem canonicalList_eq : ∀ vs : List Value, canonicalList vs = vs.map canonical
  | [] => rfl
  | v :: rest => by rw [canonicalList, canonicalList_eq rest, List.map_cons]

theorem canonicalEntries_eq : ∀ es : List (String × Value),
    canonicalEntries es = es.map fun e => (e.1, e.2.canonical)
  | [] => rfl
  | (k, v) :: rest => by rw [canonicalEntries, canonicalEntries_eq rest, List.map_cons]

theorem canonical_list (vs : List Value) : (list vs).canonical = .list (vs.map canonical) := by
  rw [canonical, canonicalList_eq]

theorem canonical_map (m : Fields Value) :
    (map m).canonical = .map (m.canonical.map canonical) := by
  rw [← Fields.canonical_map]
  obtain ⟨es⟩ := m
  rw [canonical, canonicalEntries_eq]
  rfl

theorem kind_canonical (v : Value) : v.canonical.kind = v.kind := by
  cases v with
  | map m => rw [canonical_map]; rfl
  | _ => rfl

theorem text?_canonical (v : Value) : v.canonical.text? = v.text? := by
  cases v with
  | map m => rw [canonical_map]; rfl
  | _ => rfl

theorem canonical_ne_list {v : Value} (h : ∀ vs, v ≠ .list vs) : ∀ vs, v.canonical ≠ .list vs := by
  intro vs
  cases v with
  | map m => rw [canonical_map]; simp
  | list ws => exact absurd rfl (h ws)
  | _ => simp [canonical]

end Value

/-! ### Building does not see the difference -/

namespace Fields

variable (m : Fields Value) (key : String)

@[simp] theorem text?_map_canonical : (m.map Value.canonical).text? key = m.text? key := by
  unfold text?
  rw [get?_map]
  cases m.get? key with
  | none => rfl
  | some v => simp only [Option.map_some, Option.bind_some, Value.text?_canonical]

theorem under_map_canonical :
    (m.map Value.canonical).under key = (m.under key).map Value.canonical := by
  unfold under
  rw [← insert_map, has_map, has_map]
  rfl

end Fields

namespace Shape

/-- A shape with canonical field names in the items that are still to be read. -/
def canonical : Shape → Shape
  | .action a => .action a
  | .group head items place => .group head (items.map Value.canonical) place

variable (p : Position) (key : String) (m : Fields Value)

theorem ofText_canonical (text : String) (keycode : Option String) :
    (ofText p text keycode).map canonical = ofText p text keycode := by
  unfold ofText
  split <;> rfl

theorem actionOfFields_canonical :
    actionOfFields p (m.map Value.canonical) = (actionOfFields p m).map canonical := by
  unfold actionOfFields
  simp only [Fields.text?_map_canonical]
  split <;> rfl

theorem actionOfKey_canonical :
    actionOfKey p key (m.map Value.canonical) = (actionOfKey p key m).map canonical := by
  unfold actionOfKey
  simp only [Fields.text?_map_canonical]
  split <;> rfl

theorem groupOfFields_canonical :
    groupOfFields p (m.map Value.canonical) = (groupOfFields p m).map canonical := by
  unfold groupOfFields
  simp only [Fields.text?_map_canonical, Fields.get?_map]
  split <;> rfl

theorem groupOfKey_canonical (vs : List Value) :
    groupOfKey p key (vs.map Value.canonical) = (groupOfKey p key vs).map canonical := by
  unfold groupOfKey
  split
  · simp [Except.map, canonical, Value.canonical_list]
  · rfl

theorem ofBody_canonical :
    ofBody p key (m.map Value.canonical) = (ofBody p key m).map canonical := by
  unfold ofBody
  rw [Fields.has_map, Fields.has_map, Fields.under_map_canonical]
  split
  · exact groupOfFields_canonical _ _
  · split
    · exact actionOfKey_canonical _ _ _
    · split
      · exact actionOfFields_canonical _ _
      · rfl

theorem ofEntry_canonical (v : Value) :
    ofEntry p key v.canonical = (ofEntry p key v).map canonical := by
  cases v with
  | list vs =>
      rw [Value.canonical_list, ofEntry, ofEntry]
      exact groupOfKey_canonical _ _ _
  | map b =>
      rw [Value.canonical_map, ofEntry, ofEntry, Fields.canonical_map, Fields.canonical_canonical]
      exact ofBody_canonical _ _ _
  | string s => exact (ofText_canonical _ _ _).symm
  | null => exact (ofText_canonical _ _ _).symm
  | bool b => rfl
  | number n => rfl

theorem ofRecord_canonical :
    ofRecord p (m.map Value.canonical) = (ofRecord p m).map canonical := by
  unfold ofRecord
  rw [Fields.has_map, Fields.has_map]
  split
  · exact groupOfFields_canonical _ _
  · split
    · exact actionOfFields_canonical _ _
    · rfl

theorem ofValue_canonical (v : Value) :
    ofValue p v.canonical = (ofValue p v).map canonical := by
  cases v with
  | map m =>
      rw [Value.canonical_map, ofValue, ofValue, Fields.canonical_map, Fields.canonical_canonical,
        ofFields, ofFields, Fields.single?_map]
      cases m.canonical.single? with
      | none => exact ofRecord_canonical _ _
      | some e => exact ofEntry_canonical _ _ _
  | string s => exact (ofText_canonical _ _ _).symm
  | list vs => rfl
  | null => rfl
  | bool b => rfl
  | number n => rfl

end Shape

theorem Warning.Flaw.Of.canonical {f : Warning.Flaw} {v : Value} (h : f.Of v) :
    f.Of v.canonical := by
  cases h with
  | noItems => exact .noItems
  | notAList h => exact v.kind_canonical ▸ .notAList (Value.canonical_ne_list h)

namespace Item

theorem buildList_canonical {vs : List Value}
    (ih : ∀ v ∈ vs, ∀ p, build p v.canonical = build p v) (place : Position) (n : Nat) :
    buildList place n (vs.map Value.canonical) = buildList place n vs := by
  induction vs generalizing n with
  | nil => rfl
  | cons v rest ihr =>
      have hr := ihr (fun w hw => ih w (List.mem_cons_of_mem _ hw)) (n + 1)
      rw [List.map_cons, buildList, buildList, ih v List.mem_cons_self, hr]

theorem buildItems_canonical {items : Value}
    (ih : ∀ vs, items = .list vs → ∀ v ∈ vs, ∀ p, build p v.canonical = build p v)
    (place : Position) :
    buildItems place (some items.canonical) = buildItems place (some items) := by
  rcases items.flaw_or_elements with ⟨f, hf⟩ | ⟨v, rest, rfl⟩
  · rw [buildItems_of_flaw hf, buildItems_of_flaw hf.canonical]
  · have hl := buildList_canonical (ih _ rfl) place 0
    rw [Value.canonical_list, List.map_cons, buildItems_cons, buildItems_cons, ← hl, List.map_cons]

/-- **An item is built as if all its fields had their canonical names.** -/
theorem build_canonical (v : Value) : ∀ p, build p v.canonical = build p v := by
  induction v using Value.induction with
  | step v ih =>
      intro p
      have hc := Shape.ofValue_canonical p v
      cases hs : Shape.ofValue p v with
      | error f =>
          rw [hs] at hc
          rw [build_of_error hs, build_of_error hc]
      | ok s =>
          rw [hs] at hc
          cases s with
          | action a => rw [build_of_action hs, build_of_action hc]
          | group head items place =>
              rw [build_of_group hs, build_of_group hc]
              cases items with
              | none => rfl
              | some items =>
                  have hi : ∀ vs, items = .list vs →
                      ∀ w ∈ vs, ∀ q, build q w.canonical = build q w := by
                    rintro vs rfl
                    exact ih p head vs place hs
                  rw [Option.map_some, buildItems_canonical hi]

end Item

/-- **A document is built as if all its fields had their canonical names.** -/
theorem Group.build_canonical (v : Value) : Group.build v.canonical = Group.build v := by
  have items_canonical : ∀ (p : Position) (items : Value),
      Item.buildItems p (some items.canonical) = Item.buildItems p (some items) := fun p items =>
    Item.buildItems_canonical (fun _ _ w _ q => Item.build_canonical w q) p
  cases v with
  | list vs =>
      have hi := items_canonical Position.root (.list vs)
      rw [Value.canonical_list] at hi ⊢
      simp only [Group.build, hi]
  | map m =>
      rw [Value.canonical_map]
      simp only [Group.build, Fields.canonical_map, Fields.canonical_canonical, Fields.has_map,
        Fields.get?_map, Fields.text?_map_canonical]
      split
      · next hi =>
          obtain ⟨items, hi⟩ := Fields.has_iff.mp hi
          rw [hi, Option.map_some, items_canonical]
      · rfl
  | _ => rfl

/-- **Older names and canonical ones are interchangeable at every depth**: a build does not see the
difference, neither in what comes out of it nor in what it warns about. -/
theorem Builder.older_names_interchangeable (b : Builder) (v : Value) :
    b.document v.canonical = b.document v ∧ b.item v.canonical = b.item v := by
  constructor
  · rw [document, document, Group.build_canonical v]
  · rw [item, item, Item.build_canonical v Position.root]

end CommandMenu
