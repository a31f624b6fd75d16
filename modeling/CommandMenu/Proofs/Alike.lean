import CommandMenu.Proofs.Lookup

/-! # Documents that mean the same

In which order the entries of a map stand has no meaning, and entries that are no fields have none
either.  That a map has a single entry does have a meaning, so such entries must not change that.

* `Value.Alike` relates documents that differ in this way only.
* `Fields.Agree` is what maps that are alike have in common: their fields are found alike.
* `Shape.Same` is the same for what values stand for, and `Shape.same_ofValue` says that values that
  are alike stand for the same.
* `Builder.document_alike` says that documents that are alike have the same outcome. -/

namespace CommandMenu

/-! ### The relation -/

namespace Fields

/-- The fields, under all their names. -/
def fieldNames : List String :=
  ["id", "command", "name", "description", "items", "keycode", "icon", "color"]

/-- The fields by their canonical names. -/
def canonicalNames : List String := ["id", "name", "items", "keycode", "icon", "color"]

/-- The entries that are fields. -/
def fieldEntries (m : Fields Value) : List (String × Value) :=
  m.entries.filter fun e => fieldNames.contains e.1

end Fields

/-- Two values differ, at any depth, only in the order of the entries of maps and in entries that are
no fields.  A map is free if it is a whole document or stands under the only key of a map: in it such
entries may come and go.  In every other map they may do so if there are two entries at least on both
sides. -/
inductive Value.Alike : (free : Bool) → Value → Value → Prop
  | null {free : Bool} : Alike free .null .null
  | bool {free : Bool} (b : Bool) : Alike free (.bool b) (.bool b)
  | number {free : Bool} (n : Number) : Alike free (.number n) (.number n)
  | string {free : Bool} (s : String) : Alike free (.string s) (.string s)
  | list {free : Bool} {vs ws : List Value} (h : List.Forall₂ (Alike false) vs ws) :
      Alike free (.list vs) (.list ws)
  /-- The value under the only key is free. -/
  | single {free : Bool} {k : String} {v w : Value} (h : Alike true v w) :
      Alike free (.map ⟨[(k, v)]⟩) (.map ⟨[(k, w)]⟩)
  /-- The same entries in another order. -/
  | permuted {free : Bool} {m n : Fields Value} {es : List (String × Value)} (hn : m.keys.Nodup)
      (hp : es.Perm m.entries) (hk : es.map Prod.fst = n.entries.map Prod.fst)
      (hv : List.Forall₂ (Alike false) (es.map Prod.snd) (n.entries.map Prod.snd)) :
      Alike free (.map m) (.map n)
  /-- The same fields in another order, and any other entries on either side. -/
  | extended {free : Bool} {m n : Fields Value} {es : List (String × Value)} (hn : m.keys.Nodup)
      (hs : free = true ∨ 2 ≤ m.size ∧ 2 ≤ n.size)
      (hp : es.Perm m.fieldEntries) (hk : es.map Prod.fst = n.fieldEntries.map Prod.fst)
      (hv : List.Forall₂ (Alike false) (es.map Prod.snd) (n.fieldEntries.map Prod.snd)) :
      Alike free (.map m) (.map n)

namespace Value.Alike

variable {free : Bool} {v w : Value}

theorem to_free (h : Alike false v w) : Alike true v w := by
  cases h with
  | null => exact .null
  | bool b => exact .bool b
  | number n => exact .number n
  | string s => exact .string s
  | list h => exact .list h
  | single h => exact .single h
  | permuted hn hp hk hv => exact .permuted hn hp hk hv
  | extended hn hs hp hk hv => exact .extended hn (.inl rfl) hp hk hv

theorem kind_eq (h : Alike free v w) : v.kind = w.kind := by
  cases h <;> rfl

theorem text?_eq (h : Alike free v w) : v.text? = w.text? := by
  cases h <;> rfl

end Value.Alike

/-! ### Maps that are alike -/

theorem Value.Alike.rel_to_free {x y : Option Value} (h : Option.Rel (Alike false) x y) :
    Option.Rel (Alike true) x y := by
  cases h with
  | none => exact .none
  | some h => exact .some h.to_free

namespace Fields

variable {m n : Fields Value} {names : List String} {name : String}

/-- Fields with some names are found alike in two maps. -/
def Agree (names : List String) (m n : Fields Value) : Prop :=
  ∀ name ∈ names, Option.Rel (Value.Alike true) (m.get? name) (n.get? name)

theorem agree_of_alike {free : Bool} (h : Value.Alike free (.map m) (.map n)) :
    Agree fieldNames m n := by
  intro name hname
  cases h with
  | @single _ k v w h =>
      simp only [get?, lookup]
      by_cases hk : k = name
      · rw [if_pos hk, if_pos hk]
        exact .some h
      · rw [if_neg hk, if_neg hk]
        exact .none
  | permuted hn hp hk hv => exact Value.Alike.rel_to_free (rel_lookup_of_perm hn hp hk hv name)
  | extended hn hs hp hk hv =>
      have hfield : fieldNames.contains name = true := List.contains_iff_mem.mpr hname
      have hn' : (m.fieldEntries.map Prod.fst).Nodup := hn.sublist (List.filter_sublist.map _)
      have hr := rel_lookup_of_perm hn' hp hk hv name
      unfold fieldEntries at hr
      rw [lookup_filter hfield, lookup_filter hfield] at hr
      exact Value.Alike.rel_to_free hr

/-- A field is missing in both maps, or it is there with values that are alike. -/
theorem Agree.found (h : Agree names m n) (hname : name ∈ names) :
    m.get? name = none ∧ n.get? name = none ∨
      ∃ v w, m.get? name = some v ∧ n.get? name = some w ∧ Value.Alike true v w := by
  have hr := h name hname
  generalize m.get? name = x at hr ⊢
  generalize n.get? name = y at hr ⊢
  cases hr with
  | none => exact .inl ⟨rfl, rfl⟩
  | some hvw => exact .inr ⟨_, _, rfl, rfl, hvw⟩

theorem Agree.has_eq (h : Agree names m n) (hname : name ∈ names) : m.has name = n.has name := by
  unfold has
  rcases h.found hname with ⟨hm, hn⟩ | ⟨v, w, hm, hn, -⟩
  · rw [hm, hn]
  · rw [hm, hn, Option.isSome_some, Option.isSome_some]

theorem Agree.text?_eq (h : Agree names m n) (hname : name ∈ names) :
    m.text? name = n.text? name := by
  unfold text?
  rcases h.found hname with ⟨hm, hn⟩ | ⟨v, w, hm, hn, hvw⟩
  · rw [hm, hn]
  · rw [hm, hn, Option.bind_some, Option.bind_some, hvw.text?_eq]

theorem rel_or {x x' y y' : Option Value} (h : Option.Rel (Value.Alike true) x y)
    (h' : Option.Rel (Value.Alike true) x' y') :
    Option.Rel (Value.Alike true) (x.or x') (y.or y') := by
  cases h with
  | none => exact h'
  | some h => exact .some h

/-- Maps that are alike are alike under canonical names. -/
theorem Agree.canonical (h : Agree fieldNames m n) :
    Agree canonicalNames m.canonical n.canonical := by
  have other {name : String} (ho : name ∉ ["command", "id", "description", "name"])
      (hf : name ∈ fieldNames) :
      Option.Rel (Value.Alike true) (m.canonical.get? name) (n.canonical.get? name) := by
    rw [get?_canonical_of_ne _ ho, get?_canonical_of_ne _ ho]
    exact h name hf
  intro name hname
  simp only [canonicalNames, List.mem_cons, List.not_mem_nil, or_false] at hname
  rcases hname with rfl | rfl | rfl | rfl | rfl | rfl
  · rw [get?_canonical_id, get?_canonical_id]
    exact rel_or (h _ (by decide)) (h _ (by decide))
  · rw [get?_canonical_name, get?_canonical_name]
    exact rel_or (h _ (by decide)) (h _ (by decide))
  · exact other (by decide) (by decide)
  · exact other (by decide) (by decide)
  · exact other (by decide) (by decide)
  · exact other (by decide) (by decide)

/-- An outer key goes to the same field of maps that are alike. -/
theorem Agree.under (h : Agree canonicalNames m n) (key : String) :
    Agree canonicalNames (m.under key) (n.under key) := by
  intro name hname
  unfold Fields.under
  rw [h.has_eq (show "name" ∈ canonicalNames by decide),
    h.has_eq (show "keycode" ∈ canonicalNames by decide)]
  generalize (if n.has "name" && !n.has "keycode" then "keycode" else "name") = field
  rw [get?_insert, get?_insert]
  by_cases hf : field = name
  · rw [if_pos hf, if_pos hf]
    exact .some (Value.Alike.string key)
  · rw [if_neg hf, if_neg hf]
    exact h name hname

theorem canonical_single (k : String) :
    ∃ k', ∀ v : Value, (⟨[(k, v)]⟩ : Fields Value).canonical = ⟨[(k', v)]⟩ := by
  by_cases hc : k = "command"
  · subst hc
    exact ⟨"id", fun v => rfl⟩
  · by_cases hd : k = "description"
    · subst hd
      exact ⟨"name", fun v => rfl⟩
    · refine ⟨k, fun v => canonical_of_get?_eq_none ?_ ?_⟩
      · rw [get?, lookup, if_neg hc, lookup]
      · rw [get?, lookup, if_neg hd, lookup]

/-- Maps that are alike have a single entry both, or neither has. -/
theorem single?_of_alike (h : Value.Alike false (.map m) (.map n)) :
    (∃ k v w, Value.Alike true v w ∧ m.canonical.single? = some (k, v) ∧
      n.canonical.single? = some (k, w)) ∨
    m.canonical.single? = none ∧ n.canonical.single? = none := by
  have several (hm : m.size ≠ 1) (hn : n.size ≠ 1) :
      m.canonical.single? = none ∧ n.canonical.single? = none := by
    rw [single?_eq_none_iff, single?_eq_none_iff]
    exact ⟨by rwa [← size_canonical] at hm, by rwa [← size_canonical] at hn⟩
  cases h with
  | @single _ k v w h =>
      obtain ⟨k', hk⟩ := canonical_single k
      exact .inl ⟨k', v, w, h, by rw [hk]; rfl, by rw [hk]; rfl⟩
  | @permuted _ _ _ es hn hp hk hv =>
      have hsize : m.size = n.size := by
        have hl := congrArg List.length hk
        rw [List.length_map, List.length_map, hp.length_eq] at hl
        exact hl
      by_cases hone : m.size = 1
      · obtain ⟨⟨k, v⟩, he⟩ := List.length_eq_one_iff.mp hone
        obtain ⟨⟨l, w⟩, hf⟩ := List.length_eq_one_iff.mp (hsize ▸ hone)
        rw [he] at hp
        obtain rfl := List.perm_singleton.mp hp
        rw [hf] at hk hv
        obtain rfl : k = l := by simpa using hk
        have hvw : Value.Alike false v w := by simpa using hv
        obtain ⟨k', hk'⟩ := canonical_single k
        obtain ⟨_⟩ := m
        obtain ⟨_⟩ := n
        obtain rfl := he
        obtain rfl := hf
        exact .inl ⟨k', v, w, hvw.to_free, by rw [hk']; rfl, by rw [hk']; rfl⟩
      · exact .inr (several hone (hsize ▸ hone))
  | extended hn hs hp hk hv =>
      have hs : 2 ≤ m.size ∧ 2 ≤ n.size := by simpa using hs
      exact .inr (several (by omega) (by omega))

end Fields

/-! ### What values that are alike stand for -/

namespace Shape

/-- Two values stand for the same: for the same action, for groups that differ in nothing but items
that are alike, or for nothing by the same fault. -/
inductive Same : Except Fault Shape → Except Fault Shape → Prop
  | error (f : Fault) : Same (.error f) (.error f)
  | action (a : Action) : Same (.ok (.action a)) (.ok (.action a))
  | group (head : GroupOf Value) (place : Position) {items items' : Option Value}
      (h : Option.Rel (Value.Alike true) items items') :
      Same (.ok (.group head items place)) (.ok (.group head items' place))

variable {m n : Fields Value} (p : Position) (key : String)

theorem same_ofText (text : String) (keycode : Option String) :
    Same (ofText p text keycode) (ofText p text keycode) := by
  unfold ofText
  split
  · exact .action _
  · exact .error _

theorem same_actionOfFields (h : Fields.Agree Fields.canonicalNames m n) :
    Same (actionOfFields p m) (actionOfFields p n) := by
  unfold actionOfFields
  rw [h.text?_eq (show "id" ∈ _ by decide), h.text?_eq (show "name" ∈ _ by decide),
    h.text?_eq (show "color" ∈ _ by decide), h.text?_eq (show "icon" ∈ _ by decide),
    h.text?_eq (show "keycode" ∈ _ by decide)]
  split
  · exact .action _
  · exact .error _

theorem same_actionOfKey (h : Fields.Agree Fields.canonicalNames m n) :
    Same (actionOfKey p key m) (actionOfKey p key n) := by
  unfold actionOfKey
  rw [h.text?_eq (show "name" ∈ _ by decide), h.text?_eq (show "color" ∈ _ by decide),
    h.text?_eq (show "icon" ∈ _ by decide), h.text?_eq (show "keycode" ∈ _ by decide)]
  split
  · exact .action _
  · exact .error _

theorem same_groupOfFields (h : Fields.Agree Fields.canonicalNames m n) :
    Same (groupOfFields p m) (groupOfFields p n) := by
  unfold groupOfFields
  rw [h.text?_eq (show "name" ∈ _ by decide), h.text?_eq (show "color" ∈ _ by decide),
    h.text?_eq (show "icon" ∈ _ by decide), h.text?_eq (show "keycode" ∈ _ by decide)]
  split
  · exact .group _ _ (h "items" (by decide))
  · exact .error _

theorem same_groupOfKey {vs ws : List Value} (h : List.Forall₂ (Value.Alike false) vs ws) :
    Same (groupOfKey p key vs) (groupOfKey p key ws) := by
  unfold groupOfKey
  split
  · exact .group _ _ (.some (.list h))
  · exact .error _

theorem same_ofBody (h : Fields.Agree Fields.canonicalNames m n) :
    Same (ofBody p key m) (ofBody p key n) := by
  unfold ofBody
  rw [h.has_eq (show "items" ∈ _ by decide), h.has_eq (show "id" ∈ _ by decide)]
  split
  · exact same_groupOfFields _ (h.under key)
  · split
    · exact same_actionOfKey _ _ h
    · split
      · exact same_actionOfFields _ (h.under key)
      · exact .error _

theorem same_ofEntry {v w : Value} (h : Value.Alike true v w) :
    Same (ofEntry p key v) (ofEntry p key w) := by
  match v, w, h with
  | _, _, .null => exact same_ofText _ _ _
  | _, _, .bool b => exact .error _
  | _, _, .number n => exact .error _
  | _, _, .string s => exact same_ofText _ _ _
  | _, _, .list h => exact same_groupOfKey _ _ h
  | .map m, .map n, h => exact same_ofBody _ _ (Fields.agree_of_alike h).canonical

theorem same_ofRecord (h : Fields.Agree Fields.canonicalNames m n) :
    Same (ofRecord p m) (ofRecord p n) := by
  unfold ofRecord
  rw [h.has_eq (show "items" ∈ _ by decide), h.has_eq (show "id" ∈ _ by decide)]
  split
  · exact same_groupOfFields _ h
  · split
    · exact same_actionOfFields _ h
    · exact .error _

/-- **Values that are alike stand for the same.** -/
theorem same_ofValue {v w : Value} (h : Value.Alike false v w) :
    Same (ofValue p v) (ofValue p w) := by
  match v, w, h with
  | _, _, .null => exact .error _
  | _, _, .bool b => exact .error _
  | _, _, .number n => exact .error _
  | _, _, .string s => exact same_ofText _ _ _
  | _, _, .list h => exact .error _
  | .map m, .map n, h =>
      rw [ofValue, ofValue, ofFields, ofFields]
      rcases Fields.single?_of_alike h with ⟨k, v, w, hvw, hm, hn⟩ | ⟨hm, hn⟩
      · rw [hm, hn]
        exact same_ofEntry p k hvw
      · rw [hm, hn]
        exact same_ofRecord p (Fields.agree_of_alike h).canonical

end Shape

/-! ### Building values that are alike -/

namespace Item

theorem buildList_alike {vs ws : List Value} (h : List.Forall₂ (Value.Alike false) vs ws)
    (ih : ∀ v ∈ vs, ∀ w, Value.Alike false v w → ∀ p, build p v = build p w) (place : Position)
    (n : Nat) : buildList place n vs = buildList place n ws := by
  induction h generalizing n with
  | nil => rfl
  | @cons v w vs ws hvw hrest ihr =>
      have hv := ih v List.mem_cons_self w hvw (place.index n)
      have hr := ihr (fun v' hv' => ih v' (List.mem_cons_of_mem _ hv')) (n + 1)
      rw [buildList, buildList, hv, hr]

theorem buildItems_alike {i j : Value} (h : Value.Alike true i j)
    (ih : ∀ vs, i = .list vs → ∀ v ∈ vs, ∀ w, Value.Alike false v w → ∀ p, build p v = build p w)
    (place : Position) : buildItems place (some i) = buildItems place (some j) := by
  rcases i.flaw_or_elements with ⟨f, hf⟩ | ⟨v, rest, rfl⟩
  · have hf' : f.Of j := by
      cases hf with
      | noItems =>
          cases h with
          | list h =>
              cases h
              exact .noItems
      | notAList hn =>
          rw [h.kind_eq]
          refine .notAList fun ws hj => ?_
          subst hj
          cases h with
          | list h => exact hn _ rfl
    rw [buildItems_of_flaw hf, buildItems_of_flaw hf']
  · cases h with
    | list h =>
        have hl := buildList_alike h (ih _ rfl) place 0
        cases h with
        | cons hvw hrest => rw [buildItems_cons, buildItems_cons, hl]

/-- **Items that are alike are built alike**: into the same, with the same warnings. -/
theorem build_alike (v : Value) :
    ∀ w, Value.Alike false v w → ∀ p, build p v = build p w := by
  induction v using Value.induction with
  | step v ih =>
      intro w h p
      have hsame := Shape.same_ofValue p h
      generalize hs : Shape.ofValue p v = s at hsame
      generalize ht : Shape.ofValue p w = t at hsame
      cases hsame with
      | error f => rw [build_of_error hs, build_of_error ht]
      | action a => rw [build_of_action hs, build_of_action ht]
      | group head place hi =>
          rw [build_of_group hs, build_of_group ht]
          cases hi with
          | none => rfl
          | @some i j hij =>
              have hitems : ∀ vs, i = .list vs →
                  ∀ v' ∈ vs, ∀ w', Value.Alike false v' w' → ∀ q, build q v' = build q w' := by
                rintro vs rfl
                exact ih p head vs place hs
              rw [buildItems_alike hij hitems]

end Item

/-- **Documents that are alike are built alike.** -/
theorem Group.build_alike {v w : Value} (h : Value.Alike true v w) :
    Group.build v = Group.build w := by
  have items {i j : Value} (hij : Value.Alike true i j) (p : Position) :
      Item.buildItems p (some i) = Item.buildItems p (some j) :=
    Item.buildItems_alike hij (fun _ _ v' _ => Item.build_alike v') p
  match v, w, h with
  | _, _, .null => rfl
  | _, _, .bool b => rfl
  | _, _, .number n => rfl
  | _, _, .string s => rfl
  | _, _, .list h =>
      simp only [Group.build]
      rw [items (.list h)]
  | .map m, .map n, h =>
      have ha := (Fields.agree_of_alike h).canonical
      simp only [Group.build]
      rw [ha.has_eq (show "items" ∈ _ by decide), ha.text?_eq (show "name" ∈ _ by decide),
        ha.text?_eq (show "color" ∈ _ by decide), ha.text?_eq (show "icon" ∈ _ by decide),
        ha.text?_eq (show "keycode" ∈ _ by decide)]
      rcases ha.found (show "items" ∈ _ by decide) with ⟨hm, hn⟩ | ⟨i, j, hm, hn, hij⟩
      · rw [hm, hn]
      · rw [hm, hn, items hij]

/-- **The order of entries carries no meaning, and neither do entries that are no fields**: documents
that are alike have the same outcome and the same warnings. -/
theorem Builder.document_alike {v w : Value} (h : Value.Alike true v w) (b : Builder) :
    b.document v = b.document w := by
  rw [document, document, Group.build_alike h]

/-- The fields of a document and of its items stand in another order, and there is more in the
document, in one of the items and in the map under a key. -/
theorem Builder.document_alike_tools :
    let v : Value := .map ⟨[("description", .string "Tools"), ("items", .list
      [.map ⟨[("command", .string "a:b"), ("icon", .string "x")]⟩,
        .map ⟨[("k", .map ⟨[("id", .string "c:d")]⟩)]⟩, .map ⟨[("Empty", .list [])]⟩])]⟩
    let w : Value := .map ⟨[("version", .bool true), ("items", .list
      [.map ⟨[("icon", .string "x"), ("note", .null), ("command", .string "a:b")]⟩,
        .map ⟨[("k", .map ⟨[("note", .null), ("id", .string "c:d")]⟩)]⟩,
        .map ⟨[("Empty", .list [])]⟩]), ("description", .string "Tools")]⟩
    v ≠ w ∧ Value.Alike true v w ∧ ({} : Builder).document v = ({} : Builder).document w := by
  intro v w
  have first : Value.Alike false (.map ⟨[("command", .string "a:b"), ("icon", .string "x")]⟩)
      (.map ⟨[("icon", .string "x"), ("note", .null), ("command", .string "a:b")]⟩) :=
    .extended (by decide) (.inr (by decide)) (.swap _ _ _) rfl
      (.cons (.string _) (.cons (.string _) .nil))
  have second : Value.Alike false (.map ⟨[("k", .map ⟨[("id", .string "c:d")]⟩)]⟩)
      (.map ⟨[("k", .map ⟨[("note", .null), ("id", .string "c:d")]⟩)]⟩) :=
    .single (.extended (by decide) (.inl rfl) (.refl _) rfl (.cons (.string _) .nil))
  have third : Value.Alike false (.map ⟨[("Empty", .list [])]⟩) (.map ⟨[("Empty", .list [])]⟩) :=
    .single (.list .nil)
  have h : Value.Alike true v w :=
    .extended (by decide) (.inl rfl) (.swap _ _ _) rfl
      (.cons (.list (.cons first (.cons second (.cons third .nil)))) (.cons (.string _) .nil))
  refine ⟨fun he => ?_, h, document_alike h {}⟩
  simp [v, w] at he

end CommandMenu
