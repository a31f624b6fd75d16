import CommandMenu.Proofs.Addresses
import CommandMenu.Proofs.Explicit
import CommandMenu.Proofs.JsonText
import CommandMenu.Proofs.Moments

/-! # The JSON form of a configuration is read back

Nothing in the JSON form of an item says whether the item is an action or a group.  The reader tries
an action first; it never takes a group for one, since the form of a group has no id.

* `Json.Tree.fields?_of_value` says what a reader of records finds in a tree whose value is an
  object.
* `Item.readsBack` and `Group.ofJson?_json` say that an item and a group are read from every tree
  that has their JSON form as its value.
* `Configuration.decode?_json` says that a configuration is read back from both texts of its JSON
  form. -/

namespace CommandMenu

open Json (Tree)
open Fields (lookup)

/-! ### Records in trees with a value -/

namespace Json.Tree

/-- What a tree with this value looks like, if the value is a text, a list or an object. -/
def LooksLike (levels : Nat) (t : Tree) : Value → Prop
  | .string s => t = .string (some s)
  | .array vs => ∃ ts below, t = .array ts ∧ levels = below + 1 ∧ items? below ts = some vs
  | .object ns => ∃ ms below, t = .object ms ∧ levels = below + 1 ∧ members? below ms = some ns
  | _ => True

theorem looksLike_of_value {levels : Nat} {t : Tree} {v : Value}
    (h : t.value? levels = some v) : t.LooksLike levels v := by
  cases t with
  | null =>
    obtain rfl : Value.null = v := by simpa [value?] using h
    trivial
  | bool b =>
    obtain rfl : Value.bool b = v := by simpa [value?] using h
    trivial
  | number n =>
    obtain ⟨number, -, rfl⟩ : ∃ number, n.number? = some number ∧ Value.number number = v := by
      simpa [value?] using h
    trivial
  | string content =>
    obtain ⟨s, rfl, rfl⟩ : ∃ s, content = some s ∧ Value.string s = v := by
      simpa [value?] using h
    rfl
  | array items =>
    cases levels with
    | zero => simp [value?] at h
    | succ below =>
      obtain ⟨vs, hvs, rfl⟩ : ∃ vs, items? below items = some vs ∧ Value.array vs = v := by
        simpa [value?] using h
      exact ⟨items, below, rfl, rfl, hvs⟩
  | object members =>
    cases levels with
    | zero => simp [value?] at h
    | succ below =>
      obtain ⟨ns, hns, rfl⟩ : ∃ ns, members? below members = some ns ∧ Value.object ns = v := by
        simpa [value?] using h
      exact ⟨members, below, rfl, rfl, hns⟩

theorem members?_cons_eq_some {levels : Nat} {key : Option String} {t : Tree}
    {ms : List (Option String × Tree)} {ns : List (String × Value)}
    (h : members? levels ((key, t) :: ms) = some ns) :
    ∃ name v rest, key = some name ∧ t.value? levels = some v ∧ members? levels ms = some rest ∧
      ns = (name, v) :: rest := by
  simp only [members?, Option.bind_eq_bind, Option.bind_eq_some_iff] at h
  obtain ⟨name, hname, v, hv, rest, hrest, he⟩ := h
  exact ⟨name, v, rest, hname, hv, hrest, (Option.some.inj he).symm⟩

/-- The tree of a field, if it is there, has the value of the field. -/
def HasField (levels : Nat) (t : Option Tree) (v : Option Value) : Prop :=
  Option.Rel (fun t v => t.value? levels = some v) t v

theorem any_isNone_of_members {levels : Nat} : ∀ {ms : List (Option String × Tree)}
    {ns : List (String × Value)}, members? levels ms = some ns → ms.any (·.1.isNone) = false
  | [], _, _ => rfl
  | (key, t) :: ms, ns, h => by
    obtain ⟨name, v, rest, rfl, -, hrest, -⟩ := members?_cons_eq_some h
    simpa using any_isNone_of_members hrest

theorem membersNamed_eq_nil {levels : Nat} {name : String} : ∀ {ms : List (Option String × Tree)}
    {ns : List (String × Value)}, members? levels ms = some ns → name ∉ ns.map Prod.fst →
    membersNamed name ms = []
  | [], _, _, _ => rfl
  | (key, t) :: ms, ns, h, hn => by
    obtain ⟨name', v, rest, rfl, -, hrest, rfl⟩ := members?_cons_eq_some h
    simp only [List.map_cons, List.mem_cons, not_or] at hn
    have hne : ¬ some name' = some name := fun he => hn.1 (Option.some.inj he).symm
    rw [membersNamed, if_neg hne, membersNamed_eq_nil hrest hn.2]

theorem onlyMember_of_members {levels : Nat} (name : String) :
    ∀ {ms : List (Option String × Tree)} {ns : List (String × Value)},
      members? levels ms = some ns → (ns.map Prod.fst).Nodup →
      ∃ t, onlyMember ms name = some t ∧ HasField levels t (lookup name ns)
  | [], ns, h, _ => by
    have hns : ns = [] := by simpa [members?] using h.symm
    subst hns
    exact ⟨none, rfl, .none⟩
  | (key, t) :: ms, ns, h, hn => by
    obtain ⟨name', v, rest, rfl, hv, hrest, rfl⟩ := members?_cons_eq_some h
    obtain ⟨hname, hrests⟩ := List.nodup_cons.1 hn
    by_cases hk : name' = name
    · subst hk
      refine ⟨some t, ?_, ?_⟩
      · rw [onlyMember, membersNamed, if_pos rfl, membersNamed_eq_nil hrest hname]
      · rw [lookup, if_pos rfl]
        exact .some hv
    · obtain ⟨u, hu, hfield⟩ := onlyMember_of_members name hrest hrests
      refine ⟨u, ?_, ?_⟩
      · have hne : ¬ some name' = some name := fun he => hk (Option.some.inj he)
        rw [onlyMember, membersNamed, if_neg hne]
        exact hu
      · rw [lookup, if_neg hk]
        exact hfield

theorem mapM_onlyMember_of_members {levels : Nat} {ms : List (Option String × Tree)}
    {ns : List (String × Value)} (h : members? levels ms = some ns)
    (hn : (ns.map Prod.fst).Nodup) : ∀ names : List String,
    ∃ found, names.mapM (onlyMember ms) = some found ∧
      List.Forall₂ (HasField levels) found (names.map fun name => lookup name ns)
  | [] => ⟨[], rfl, .nil⟩
  | name :: names => by
    obtain ⟨t, ht, hfield⟩ := onlyMember_of_members name h hn
    obtain ⟨found, hfound, hfields⟩ := mapM_onlyMember_of_members h hn names
    refine ⟨t :: found, ?_, .cons hfield hfields⟩
    simp [List.mapM_cons, ht, hfound]

/-- **What a reader of records finds in a tree that has the value of an object**: for each name the
tree of the member, if the member is set. -/
theorem fields?_of_value {levels : Nat} {t : Tree} {ns : List (String × Option Value)}
    (h : t.value? levels = some (.ofMembers ns)) (hn : (ns.map Prod.fst).Nodup)
    (names : List String) (required : Nat) :
    ∃ found below, levels = below + 1 ∧ t.fields? names required = some found ∧
      List.Forall₂ (HasField below) found (names.map fun name => (lookup name ns).join) := by
  obtain ⟨ms, below, rfl, hlevels, hms⟩ := looksLike_of_value h
  have hkeys : ((Fields.ofMembers ns).entries.map Prod.fst).Nodup :=
    (Fields.keys_ofMembers_sublist ns).nodup hn
  obtain ⟨found, hfound, hfields⟩ := mapM_onlyMember_of_members hms hkeys names
  refine ⟨found, below, hlevels, ?_, ?_⟩
  · simp [fields?, any_isNone_of_members hms, hfound]
  · have hlookup : (fun name => (lookup name ns).join) =
        fun name => lookup name (Fields.ofMembers ns).entries :=
      funext fun name => (Fields.get?_ofMembers hn name).symm
    rw [hlookup]
    exact hfields

theorem HasField.needed_text {levels : Nat} {t : Option Tree} {s : String}
    (h : HasField levels t (some (.string s))) : needed text? t = some s := by
  cases h with
  | some h =>
    obtain rfl := looksLike_of_value h
    rfl

theorem HasField.optional_text {levels : Nat} {t : Option Tree} {s : Option String}
    (h : HasField levels t (s.map .string)) : optional text? t = some s := by
  cases s with
  | none =>
    cases h with
    | none => rfl
  | some s =>
    cases h with
    | some h =>
      obtain rfl := looksLike_of_value h
      rfl

end Json.Tree

/-! ### Actions and groups -/

open Json.Tree (HasField)

theorem Action.ofJson?_json {levels : Nat} {t : Tree} {a : Action}
    (h : t.value? levels = some a.json) : Action.ofJson? t = some a := by
  obtain ⟨found, below, -, hfound, hfields⟩ := Json.Tree.fields?_of_value h
    (by simp [Json.textMember]) ["id", "name", "color", "icon", "keycode"] 1
  obtain _ | ⟨hid, _ | ⟨hname, _ | ⟨hcolor, _ | ⟨hicon, _ | ⟨hkeycode, hnil⟩⟩⟩⟩⟩ := hfields
  cases hnil
  have hid : HasField below _ (some (.string a.id)) := hid
  have hname : HasField below _ (a.name.map .string) := hname
  have hcolor : HasField below _ (a.color.map .string) := hcolor
  have hicon : HasField below _ (a.icon.map .string) := hicon
  have hkeycode : HasField below _ (a.keycode.map .string) := hkeycode
  simp [Action.ofJson?, hfound, hid.needed_text, hname.optional_text, hcolor.optional_text,
    hicon.optional_text, hkeycode.optional_text]

theorem Group.json_eq (g : Group) : Group.json g = .ofMembers
    [("name", some (.string g.name)), ("items", some (.array (Item.listJson g.items))),
      Json.textMember "keycode" g.keycode, Json.textMember "icon" g.icon,
      Json.textMember "color" g.color] := by
  cases g
  rw [Group.json]

/-- No action is read from a tree that has the JSON form of a group as its value: there is no id. -/
theorem Action.ofJson?_json_group {levels : Nat} {t : Tree} {g : Group}
    (h : t.value? levels = some (Group.json g)) : Action.ofJson? t = none := by
  rw [Group.json_eq] at h
  obtain ⟨found, below, -, hfound, hfields⟩ := Json.Tree.fields?_of_value h
    (by simp [Json.textMember]) ["id", "name", "color", "icon", "keycode"] 1
  obtain _ | ⟨hid, _ | ⟨hname, _ | ⟨hcolor, _ | ⟨hicon, _ | ⟨hkeycode, hnil⟩⟩⟩⟩⟩ := hfields
  cases hnil
  -- The first field that an action needs is not among those of a group.
  have hid : HasField below _ none := hid
  cases hid
  simp [Action.ofJson?, hfound, Tree.needed]

theorem Group.fields?_json {levels : Nat} {t : Tree} {g : Group}
    (h : t.value? levels = some (Group.json g)) :
    ∃ name items keycode icon color below, levels = below + 2 ∧
      t.fields? ["name", "items", "keycode", "icon", "color"] 2 =
        some [name, some (.array items), keycode, icon, color] ∧
      Tree.needed Tree.text? name = some g.name ∧
      Tree.items? below items = some (Item.listJson g.items) ∧
      Tree.optional Tree.text? keycode = some g.keycode ∧
      Tree.optional Tree.text? icon = some g.icon ∧
      Tree.optional Tree.text? color = some g.color := by
  rw [Group.json_eq] at h
  obtain ⟨found, below, hlevels, hfound, hfields⟩ := Json.Tree.fields?_of_value h
    (by simp [Json.textMember]) ["name", "items", "keycode", "icon", "color"] 2
  obtain _ | ⟨hname, _ | ⟨hitems, _ | ⟨hkeycode, _ | ⟨hicon, _ | ⟨hcolor, hnil⟩⟩⟩⟩⟩ := hfields
  cases hnil
  have hname : HasField below _ (some (.string g.name)) := hname
  have hitems : HasField below _ (some (.array (Item.listJson g.items))) := hitems
  have hkeycode : HasField below _ (g.keycode.map .string) := hkeycode
  have hicon : HasField below _ (g.icon.map .string) := hicon
  have hcolor : HasField below _ (g.color.map .string) := hcolor
  cases hitems with
  | some hvalue =>
    obtain ⟨items, inner, rfl, rfl, hinner⟩ := Json.Tree.looksLike_of_value hvalue
    exact ⟨_, items, _, _, _, inner, hlevels, hfound, hname.needed_text, hinner,
      hkeycode.optional_text, hicon.optional_text, hcolor.optional_text⟩

/-- An item is read from every tree that has its JSON form as its value. -/
def Item.ReadsBack (item : Item) : Prop :=
  ∀ {levels : Nat} {t : Tree}, t.value? levels = some item.json → Item.ofJson? t = some item

theorem Item.listOfJson?_json {levels : Nat} : ∀ {ts : List Tree} {items : List Item},
    (∀ item ∈ items, item.ReadsBack) → Tree.items? levels ts = some (Item.listJson items) →
    Item.listOfJson? ts = some items
  | [], items, _, h => by
    cases items with
    | nil => rw [Item.listOfJson?]
    | cons item rest => simp [Tree.items?, Item.listJson] at h
  | t :: ts, items, hr, h => by
    simp only [Tree.items?, Option.bind_eq_bind, Option.bind_eq_some_iff] at h
    obtain ⟨v, hv, vs, hvs, he⟩ := h
    cases items with
    | nil => simp [Item.listJson] at he
    | cons item rest =>
      rw [Item.listJson] at he
      obtain ⟨rfl, rfl⟩ := List.cons.inj (Option.some.inj he)
      have hitem := hr item (by simp) hv
      have hrest := Item.listOfJson?_json (fun w hw => hr w (List.mem_cons_of_mem item hw)) hvs
      rw [Item.listOfJson?]
      simp [hitem, hrest]

theorem Group.ofJson?_json_of_items {levels : Nat} {t : Tree} {g : Group}
    (hr : ∀ item ∈ g.items, item.ReadsBack) (h : t.value? levels = some (Group.json g)) :
    Group.ofJson? t = some g := by
  obtain ⟨name, items, keycode, icon, color, below, -, hfields, hname, hitems, hkeycode, hicon,
    hcolor⟩ := Group.fields?_json h
  have hlist := Item.listOfJson?_json hr hitems
  rw [Group.ofJson?]
  split
  · next heq =>
    rw [hfields] at heq
    cases heq
    simp [hname, hlist, hkeycode, hicon, hcolor]
  · next hne => exact absurd hfields (hne _ _ _ _ _)

/-- **An item is read back**: an action as an action, a group as a group, at every depth. -/
theorem Item.readsBack : ∀ item : Item, item.ReadsBack :=
  Item.tree_induction
    (fun a levels t h => by
      have h : t.value? levels = some a.json := by simpa [Item.json] using h
      rw [Item.ofJson?, Action.ofJson?_json h])
    (fun g ih levels t h => by
      have h : t.value? levels = some (Group.json g) := by simpa [Item.json] using h
      rw [Item.ofJson?, Action.ofJson?_json_group h, Group.ofJson?_json_of_items ih h]
      rfl)

/-- **A group is read back** from every tree that has its JSON form as its value. -/
theorem Group.ofJson?_json {levels : Nat} {t : Tree} {g : Group}
    (h : t.value? levels = some (Group.json g)) : Group.ofJson? t = some g :=
  Group.ofJson?_json_of_items (fun item _ => item.readsBack) h

/-- A reader that looks at the items first reads the same. -/
theorem Group.ofOpenJson?_json {levels : Nat} {t : Tree} {g : Group}
    (h : t.value? levels = some (Group.json g)) : Group.ofOpenJson? levels t = some g := by
  obtain ⟨name, items, keycode, icon, color, below, rfl, hfields, -, hitems, -⟩ :=
    Group.fields?_json h
  have hvalue : (Tree.array items).value? (below + 1) = some (.array (Item.listJson g.items)) := by
    simp [Tree.value?, hitems]
  simp [Group.ofOpenJson?, hfields, hvalue, Group.ofJson?_json h]

/-! ### Configurations -/

theorem Format.ofName?_name (f : Format) : Format.ofName? f.name = some f := by
  cases f <;> rfl

/-- A configuration is read from a tree that has its JSON form as its value, within the levels that
a text may have. -/
theorem Configuration.ofJson?_json {c : Configuration} (hc : c.updatedAt.IsValid) {t : Tree}
    (h : t.value? Json.maxLevels = some c.json) : Configuration.ofJson? t = some c := by
  have hmembers : c.json = .ofMembers [("actions", some (Group.json c.actions)),
      ("format", some c.format.json), ("updated_at", some (.string c.updatedAt.render))] := rfl
  rw [hmembers] at h
  obtain ⟨found, below, hlevels, hfound, hfields⟩ :=
    Json.Tree.fields?_of_value h (by simp) ["actions", "format", "updated_at"] 3
  obtain _ | ⟨hactions, _ | ⟨hformat, _ | ⟨hupdated, hnil⟩⟩⟩ := hfields
  cases hnil
  have hactions : HasField below _ (some (Group.json c.actions)) := hactions
  have hformat : HasField below _ (some (.string c.format.name)) := hformat
  have hupdated : HasField below _ (some (.string c.updatedAt.render)) := hupdated
  -- The group gets what the object around it leaves of the levels.
  have hbelow : Json.maxLevels - 1 = below := by omega
  cases hactions with
  | some hactions =>
  cases hformat with
  | some hformat =>
  cases hupdated with
  | some hupdated =>
    obtain rfl := Json.Tree.looksLike_of_value hformat
    obtain rfl := Json.Tree.looksLike_of_value hupdated
    simp [Configuration.ofJson?, hfound, hbelow, Tree.needed, Group.ofOpenJson?_json hactions,
      Format.ofJson?, Tree.choice?, Format.ofName?_name, Instant.ofJson?, Tree.text?,
      Instant.read?_render hc]

/-! ### The texts of the JSON form -/

/-- A member holds no number, if it is set. -/
def Json.WordyMember (m : String × Option Json.Value) : Prop := ∀ v, m.2 = some v → v.Wordy

theorem Json.wordyMember_some {name : String} {v : Json.Value} (h : v.Wordy) :
    Json.WordyMember (name, some v) := by
  intro w hw
  cases hw
  exact h

theorem Json.wordyMember_text (name : String) (s : Option String) :
    Json.WordyMember (Json.textMember name s) := by
  intro v hv
  obtain ⟨text, -, rfl⟩ := Option.map_eq_some_iff.1 hv
  exact .string text

theorem Json.wordy_ofMembers {ms : List (String × Option Json.Value)}
    (h : ∀ m ∈ ms, Json.WordyMember m) : (Json.Value.ofMembers ms).Wordy := by
  refine .object fun n hn => ?_
  obtain ⟨m, hm, hn⟩ := List.mem_filterMap.1 hn
  obtain ⟨v, hv, rfl⟩ := Option.map_eq_some_iff.1 hn
  exact h m hm v hv

theorem Action.wordy_json (a : Action) : a.json.Wordy := by
  refine Json.wordy_ofMembers ?_
  simp only [List.forall_mem_cons]
  exact ⟨Json.wordyMember_some (.string a.id), Json.wordyMember_text _ _,
    Json.wordyMember_text _ _, Json.wordyMember_text _ _, Json.wordyMember_text _ _, by simp⟩

theorem Item.mem_listJson {v : Json.Value} {items : List Item} :
    v ∈ Item.listJson items ↔ ∃ item ∈ items, item.json = v := by
  induction items with
  | nil => simp [Item.listJson]
  | cons item rest ih =>
    rw [Item.listJson, List.mem_cons, ih, List.exists_mem_cons_iff, eq_comm]

theorem Group.wordy_json_of_items {g : Group} (h : ∀ item ∈ g.items, item.json.Wordy) :
    (Group.json g).Wordy := by
  have hitems : (Json.Value.array (Item.listJson g.items)).Wordy := by
    refine .array fun v hv => ?_
    obtain ⟨item, hitem, rfl⟩ := Item.mem_listJson.1 hv
    exact h item hitem
  rw [Group.json_eq]
  refine Json.wordy_ofMembers ?_
  simp only [List.forall_mem_cons]
  exact ⟨Json.wordyMember_some (.string g.name), Json.wordyMember_some hitems,
    Json.wordyMember_text _ _, Json.wordyMember_text _ _, Json.wordyMember_text _ _, by simp⟩

theorem Item.wordy_json : ∀ item : Item, item.json.Wordy :=
  Item.tree_induction
    (fun a => by
      rw [Item.json]
      exact a.wordy_json)
    (fun g ih => by
      rw [Item.json]
      exact Group.wordy_json_of_items ih)

theorem Configuration.wordy_json (c : Configuration) : c.json.Wordy := by
  have hactions : (Group.json c.actions).Wordy :=
    Group.wordy_json_of_items fun item _ => item.wordy_json
  refine .object ?_
  simp only [List.forall_mem_cons]
  exact ⟨hactions, .string c.format.name, .string c.updatedAt.render, by simp⟩

/-- **A configuration is read back from its JSON form**, from the compact text and from the one on
lines of its own, unless it nests deeper than a reader allows. -/
theorem Configuration.decode?_json {c : Configuration} (hc : c.updatedAt.IsValid)
    (hdepth : c.json.depth ≤ Json.maxLevels) :
    Json.decode? Configuration.ofJson? c.json.compact = some c ∧
      Json.decode? Configuration.ofJson? c.json.pretty = some c := by
  obtain ⟨t, hread, ht⟩ := c.wordy_json.read_compact
  obtain ⟨u, hread', hu⟩ := c.wordy_json.read_pretty
  constructor
  · rw [Json.decode?, hread]
    exact Configuration.ofJson?_json hc (ht Json.maxLevels hdepth)
  · rw [Json.decode?, hread']
    exact Configuration.ofJson?_json hc (hu Json.maxLevels hdepth)

/-- A menu with a submenu and an empty one, with empty texts, control characters and fields that are
not set, as of the late second at the end of 2016. -/
def Configuration.lateSubmenus : Configuration where
  actions :=
    { name := ""
      items :=
        [.group { name := "Tools", items := [.action { id := "a\n\x01b", name := some "" }],
                  icon := some "\"" },
          .group { name := "id", items := [] },
          .action { id := "", keycode := some "\\" }] }
  format := .markdown
  updatedAt := ⟨1483228799, 1500000000⟩

theorem Configuration.decode?_json_lateSubmenus :
    Configuration.lateSubmenus.updatedAt.IsValid ∧
      Configuration.lateSubmenus.json.depth ≤ Json.maxLevels ∧
      Json.decode? Configuration.ofJson? Configuration.lateSubmenus.json.compact =
        some Configuration.lateSubmenus ∧
      Json.decode? Configuration.ofJson? Configuration.lateSubmenus.json.pretty =
        some Configuration.lateSubmenus :=
  have hvalid : Configuration.lateSubmenus.updatedAt.IsValid :=
    ⟨by decide, by decide, by decide, by decide⟩
  have hdepth : Configuration.lateSubmenus.json.depth ≤ Json.maxLevels := by decide
  ⟨hvalid, hdepth, Configuration.decode?_json hvalid hdepth⟩

end CommandMenu
