import CommandMenu.Proofs.Meaning
import CommandMenu.Proofs.Places

/-! # What a fault blames

A build that fails names the first value that breaks a rule.

* `Fault.Blames` is the table of what can be wrong with a value, and `Fault.Blames.unique` says that
  a value breaks at most one rule.
* `Fault.Met` says that a fault is met within a value: some steps lead to what it blames, and
  whatever stands before it in a list is built.
* `Item.met_of_build` and `Builder.document_blames` say so of the fault of a build. -/

namespace CommandMenu

/-- The text of the place that a fault names. -/
def Fault.path? : Fault → Option String
  | .unnamedGroup path | .missingId path | .unusableKey path => some path
  | .ambiguousEntry path _ | .unknownText path _ => some path
  | .unreadable _ | .yaml _ | .json _ | .settings _ | .malformedDocument _ => none

/-! ### The table -/

/-- **The table of what can be wrong** with a value of canonical field names.  The value stands at a
path, below an outer key unless it is an item itself. -/
inductive Fault.Blames (path : String) : Option String → Value → Fault → Prop
  /-- Null is no command text. -/
  | null : Blames path none .null (.unknownText path "null")
  /-- A boolean is no command text. -/
  | bool (b : Bool) :
      Blames path none (.bool b) (.unknownText path (if b then "true" else "false"))
  /-- A number is no command text. -/
  | number (n : Number) : Blames path none (.number n) (.unknownText path n.render)
  /-- Some texts are not command texts. -/
  | text {s : String} (hs : CommandText.ofText? s = none) :
      Blames path none (.string s) (.unknownText path s)
  /-- Nor are they below a key. -/
  | keyedText {k s : String} (hs : CommandText.ofText? s = none) :
      Blames path none (.map ⟨[(k, .string s)]⟩) (.unknownText path s)
  /-- Nor are they as a key without a value. -/
  | bareKey {k : String} (hk : CommandText.ofText? k = none) :
      Blames path none (.map ⟨[(k, .null)]⟩) (.unknownText path k)
  /-- A boolean below a key says nothing. -/
  | keyedBool (k : String) (b : Bool) :
      Blames path none (.map ⟨[(k, .bool b)]⟩) (.ambiguousEntry path k)
  /-- A number below a key says nothing. -/
  | keyedNumber (k : String) (n : Number) :
      Blames path none (.map ⟨[(k, .number n)]⟩) (.ambiguousEntry path k)
  /-- A map below a key needs items or an id, unless the key is a command with a colon. -/
  | keyedMap {k : String} {b : Fields Value} (hi : b.has "items" = false)
      (hid : b.has "id" = false) (hq : ':' ∉ Text.firstWord k) :
      Blames path none (.map ⟨[(k, .map b)]⟩) (.ambiguousEntry path k)
  /-- A list within a list has no name. -/
  | list (vs : List Value) : Blames path none (.list vs) (.unnamedGroup path)
  /-- A list below a blank key has no name. -/
  | listUnder {k : String} (vs : List Value) (hk : Text.hasText k = false) :
      Blames path (some k) (.list vs) (.unnamedGroup path)
  /-- A map with items needs a name. -/
  | group {m : Fields Value} (hm : m.entries.length ≠ 1) (hi : m.has "items" = true)
      (hn : m.text? "name" = none) : Blames path none (.map m) (.unnamedGroup path)
  /-- So it does below a key, which may become the name. -/
  | groupUnder {k : String} {m : Fields Value} (hi : m.has "items" = true)
      (hn : m.nameUnder (some k) = none) : Blames path (some k) (.map m) (.unnamedGroup path)
  /-- A map without items needs an id. -/
  | action {m : Fields Value} (hm : m.entries.length ≠ 1) (hi : m.has "items" = false)
      (hid : m.text? "id" = none) : Blames path none (.map m) (.missingId path)
  /-- So it does below a key that is not a command with a colon. -/
  | actionUnder {k : String} {m : Fields Value} (hi : m.has "items" = false)
      (hp : m.has "id" = true) (hid : m.text? "id" = none) (hq : ':' ∉ Text.firstWord k) :
      Blames path (some k) (.map m) (.missingId path)

/-- **A value breaks at most one rule.** -/
theorem Fault.Blames.unique {path : String} {outer : Option String} {v : Value} {f f' : Fault}
    (h : Blames path outer v f) (h' : Blames path outer v f') : f = f' := by
  cases h <;> cases h' <;> simp_all

/-! ### Faults within a value -/

/-- Whatever stands in a list before the steps is built. -/
def Value.BuiltBefore (v : Value) (steps : List Step) : Prop :=
  ∀ q i rest, steps = q ++ .index i :: rest →
    ∃ vs, v.at? q = some (.list vs) ∧
      ∀ w ∈ vs.take i, ∃ item, (({} : Builder).item w).1 = .ok item

/-- A fault is met within the value at a position. -/
def Fault.Met (p : Position) (v : Value) (f : Fault) : Prop :=
  ∃ steps node, v.canonical.at? steps = some node ∧
    f.Blames (Position.display ⟨p.steps ++ steps⟩) (Position.outerKey? ⟨p.steps ++ steps⟩) node ∧
    v.canonical.BuiltBefore steps

theorem Value.builtBefore_nil (v : Value) : v.BuiltBefore [] := by
  intro q i rest h
  simp at h

/-- Keys do not lead past anything that is to be built. -/
theorem Value.Route.builtBefore {v w : Value} {keys : List String} {steps : List Step}
    (h : v.Route keys w) (hw : w.canonical.BuiltBefore steps) :
    v.canonical.BuiltBefore (keys.map .key ++ steps) := by
  intro q i rest hq
  rcases List.append_eq_append_iff.mp hq with ⟨a, rfl, ha⟩ | ⟨a, hk, ha⟩
  · obtain ⟨vs, hvs, hb⟩ := hw a i rest ha
    exact ⟨vs, by rw [h a, hvs], hb⟩
  · -- the number cannot be one of the keys, so the list is where the keys lead
    cases a with
    | nil =>
        obtain ⟨vs, hvs, hb⟩ := hw [] i rest ha.symm
        rw [List.append_nil] at hk
        rw [← hk, h.at?]
        exact ⟨vs, hvs, hb⟩
    | cons s a =>
        injection ha with hs
        have hmem : s ∈ keys.map Step.key := by simp [hk]
        obtain ⟨name, -, rfl⟩ := List.mem_map.mp hmem
        cases hs

theorem Value.BuiltBefore.index {before after : List Value} {w : Value} {steps : List Step}
    (hw : w.canonical.BuiltBefore steps)
    (hb : ∀ u ∈ before, ∃ item, (({} : Builder).item u).1 = .ok item) :
    (list (before ++ w :: after)).canonical.BuiltBefore (.index before.length :: steps) := by
  intro q i rest hq
  cases q with
  | nil =>
      injection hq with hq
      cases hq
      refine ⟨_, by rw [canonical_list, at?], ?_⟩
      intro u hu
      rw [← List.map_take, List.take_left, List.mem_map] at hu
      obtain ⟨u, hu, rfl⟩ := hu
      obtain ⟨item, hitem⟩ := hb u hu
      refine ⟨item, ?_⟩
      rw [Builder.item_result] at hitem ⊢
      rw [Item.build_canonical, hitem]
  | cons s q =>
      injection hq with hs hq
      cases hs
      obtain ⟨vs, hvs, hb'⟩ := hw q i rest hq
      exact ⟨vs, by rw [at?_element, hvs], hb'⟩

namespace Fault

variable {p : Position} {f : Fault}

theorem Met.here {v : Value} (h : f.Blames p.display p.outerKey? v.canonical) : f.Met p v := by
  refine ⟨[], v.canonical, rfl, ?_, v.canonical.builtBefore_nil⟩
  rwa [List.append_nil]

theorem Met.of_route {v w : Value} {keys : List String} (hr : v.Route keys w)
    (h : f.Met ⟨p.steps ++ keys.map .key⟩ w) : f.Met p v := by
  obtain ⟨steps, node, ha, hb, hw⟩ := h
  rw [List.append_assoc] at hb
  exact ⟨keys.map .key ++ steps, node, by rw [hr, ha], hb, hr.builtBefore hw⟩

theorem Met.of_index {before after : List Value} {w : Value}
    (hb : ∀ u ∈ before, ∃ item, (({} : Builder).item u).1 = .ok item)
    (h : f.Met (p.index before.length) w) : f.Met p (.list (before ++ w :: after)) := by
  obtain ⟨steps, node, ha, hf, hw⟩ := h
  refine ⟨.index before.length :: steps, node, ?_, by simpa [Position.index] using hf,
    hw.index hb⟩
  rw [Value.at?_element, ha]

end Fault

/-! ### Faults of one value -/

theorem Fields.nameUnder_map_canonical (m : Fields Value) (outer : Option String) :
    (m.map Value.canonical).nameUnder outer = m.nameUnder outer := by
  cases outer <;> simp [nameUnder]

theorem Value.canonical_of_entries {m : Fields Value} {k : String} {v : Value}
    (h : m.canonical.entries = [(k, v)]) : (map m).canonical = .map ⟨[(k, v.canonical)]⟩ := by
  rw [canonical_map, Fields.map, h]
  rfl

namespace Shape

variable {p : Position} {f : Fault}

theorem ofText_eq_error {text : String} {keycode : Option String}
    (h : ofText p text keycode = .error f) :
    CommandText.ofText? text = none ∧ f = .unknownText p.display text := by
  unfold ofText at h
  split at h
  · cases h
  · next hc =>
      cases h
      exact ⟨hc, rfl⟩

theorem actionOfFields_eq_error {m : Fields Value} (h : actionOfFields p m = .error f) :
    m.text? "id" = none ∧ f = .missingId p.display := by
  unfold actionOfFields at h
  split at h
  · cases h
  · next hid =>
      cases h
      exact ⟨hid, rfl⟩

theorem groupOfFields_eq_error {m : Fields Value} (h : groupOfFields p m = .error f) :
    m.text? "name" = none ∧ f = .unnamedGroup p.display := by
  unfold groupOfFields at h
  split at h
  · cases h
  · next hn =>
      cases h
      exact ⟨hn, rfl⟩

/-- The key of a command with a colon always gives an id. -/
theorem actionOfKey_ne_error {key : String} {m : Fields Value} (hq : ':' ∈ Text.firstWord key) :
    actionOfKey p key m ≠ .error f := by
  obtain ⟨c, hc⟩ := CommandText.exists_ofText?_of_colon hq
  unfold actionOfKey
  rw [hc]
  simp

theorem met_of_ofBody {m b : Fields Value} {k : String} (ho : p.outerKey? = none)
    (hm : m.canonical.entries = [(k, .map b)]) (h : ofBody p k b.canonical = .error f) :
    f.Met p (.map m) := by
  have hk : (Value.map m).Route [k] (.map b) := .cons (Fields.get?_of_entries hm) .refl
  unfold ofBody at h
  split at h
  · next hi =>
      obtain ⟨hn, rfl⟩ := groupOfFields_eq_error h
      rw [Fields.text?_under_name] at hn
      refine .of_route hk (.here ?_)
      rw [Value.canonical_map, List.map_singleton]
      exact (p.outerKey?_key k).symm ▸ .groupUnder (by simpa using hi) (by
        rwa [Fields.nameUnder_map_canonical])
  · next hi =>
      have hi : b.canonical.has "items" = false := by simpa using hi
      split at h
      · next hq => exact absurd h (actionOfKey_ne_error ((CommandText.isQualified_iff k).mp hq))
      · next hq =>
          rw [CommandText.isQualified_iff] at hq
          split at h
          · next hp =>
              obtain ⟨hid, rfl⟩ := actionOfFields_eq_error h
              rw [Fields.text?_under_of_ne _ _ (by decide) (by decide)] at hid
              refine .of_route hk (.here ?_)
              rw [Value.canonical_map, List.map_singleton]
              exact (p.outerKey?_key k).symm ▸ .actionUnder (by simpa using hi)
                (by simpa using hp) (by simpa using hid) hq
          · next hp =>
              cases h
              refine .here ?_
              rw [ho, Value.canonical_of_entries hm, Value.canonical_map]
              exact .keyedMap (by simpa using hi) (by simpa using hp) hq

theorem met_of_ofEntry {m : Fields Value} {k : String} {v : Value} (ho : p.outerKey? = none)
    (hm : m.canonical.entries = [(k, v)]) (h : ofEntry p k v = .error f) : f.Met p (.map m) := by
  cases v with
  | list vs =>
      simp only [ofEntry, groupOfKey] at h
      split at h
      · cases h
      · next hk =>
          cases h
          have hr : (Value.map m).Route [k] (.list vs) := .cons (Fields.get?_of_entries hm) .refl
          refine .of_route hr (.here ?_)
          rw [Value.canonical_list, List.map_singleton]
          exact (p.outerKey?_key k).symm ▸ .listUnder _ (by simpa using hk)
  | map b => exact met_of_ofBody ho hm h
  | string t =>
      rw [ofEntry] at h
      obtain ⟨hc, rfl⟩ := ofText_eq_error h
      refine .here ?_
      rw [ho, Value.canonical_of_entries hm]
      exact .keyedText hc
  | null =>
      rw [ofEntry] at h
      obtain ⟨hc, rfl⟩ := ofText_eq_error h
      refine .here ?_
      rw [ho, Value.canonical_of_entries hm]
      exact .bareKey hc
  | bool b =>
      cases h
      refine .here ?_
      rw [ho, Value.canonical_of_entries hm]
      exact .keyedBool k b
  | number n =>
      cases h
      refine .here ?_
      rw [ho, Value.canonical_of_entries hm]
      exact .keyedNumber k n

theorem met_of_ofRecord {m : Fields Value} (ho : p.outerKey? = none)
    (hm : m.canonical.entries.length ≠ 1) (h : ofRecord p m.canonical = .error f) :
    f.Met p (.map m) := by
  have hl : (m.canonical.map Value.canonical).entries.length ≠ 1 := by simpa [Fields.map] using hm
  refine .here ?_
  rw [ho, Value.canonical_map]
  unfold ofRecord at h
  split at h
  · next hi =>
      obtain ⟨hn, rfl⟩ := groupOfFields_eq_error h
      exact .group hl (by simpa using hi) (by simpa using hn)
  · next hi =>
      split at h
      · obtain ⟨hid, rfl⟩ := actionOfFields_eq_error h
        exact .action hl (by simpa using hi) (by simpa using hid)
      · next hp =>
          cases h
          have hid : m.canonical.text? "id" = none := by
            rw [Option.eq_none_iff_forall_ne_some]
            exact fun id hid => hp (Fields.has_of_text? hid)
          exact .action hl (by simpa using hi) (by simpa using hid)

/-- A value that is not accepted breaks a rule, itself or just below its key. -/
theorem met_of_ofValue {v : Value} (ho : p.outerKey? = none) (h : ofValue p v = .error f) :
    f.Met p v := by
  cases v with
  | map m =>
      simp only [ofValue, ofFields] at h
      split at h
      · next hs => exact met_of_ofEntry ho (Fields.single?_eq_some_iff.mp hs) h
      · next hs => exact met_of_ofRecord ho (Fields.single?_eq_none_iff.mp hs) h
  | string t =>
      rw [ofValue] at h
      obtain ⟨hc, rfl⟩ := ofText_eq_error h
      exact .here (ho ▸ .text hc)
  | list vs =>
      cases h
      refine .here ?_
      rw [ho, Value.canonical_list]
      exact .list _
  | null =>
      cases h
      exact .here (ho ▸ .null)
  | bool b =>
      cases h
      exact .here (ho ▸ .bool b)
  | number n =>
      cases h
      exact .here (ho ▸ .number n)

end Shape

/-! ### Faults of a build -/

namespace Item

theorem buildList_eq_error {place : Position} {n : Nat} {vs : List Value} {f : Fault}
    (h : (buildList place n vs).result = .error f) :
    ∃ before w after, vs = before ++ w :: after ∧
      (∀ u ∈ before, ∃ item, (({} : Builder).item u).1 = .ok item) ∧
      (build (place.index (n + before.length)) w).result = .error f := by
  induction vs generalizing n with
  | nil =>
      rw [buildList_nil] at h
      cases h
  | cons v rest ih =>
      cases hv : (build (place.index n) v).result with
      | error f' =>
          rw [buildList_cons_of_error hv] at h
          cases h
          exact ⟨[], v, rest, rfl, by simp, hv⟩
      | ok item =>
          rw [buildList_cons_of_ok hv] at h
          have hr : (buildList place (n + 1) rest).result = .error f := by
            cases hr : (buildList place (n + 1) rest).result <;> simp_all [Except.map]
          obtain ⟨before, w, after, rfl, hb, hw⟩ := ih hr
          refine ⟨v :: before, w, after, rfl, ?_, ?_⟩
          · intro u hu
            rcases List.mem_cons.mp hu with rfl | hu
            · rw [build_eq_ok_iff] at hv
              exact ⟨item, (build_eq_ok_iff u Position.root item).mpr hv⟩
            · exact hb u hu
          · rwa [List.length_cons, Nat.add_comm before.length 1, ← Nat.add_assoc]

theorem buildItems_eq_error {place : Position} {items : Value} {f : Fault}
    (h : (buildItems place (some items)).result = .error f) :
    ∃ before w after, items = .list (before ++ w :: after) ∧
      (∀ u ∈ before, ∃ item, (({} : Builder).item u).1 = .ok item) ∧
      (build (place.index before.length) w).result = .error f := by
  rcases items.flaw_or_elements with ⟨f', hf⟩ | ⟨v, rest, rfl⟩
  · rw [buildItems_of_flaw hf] at h
    cases h
  · rw [buildItems_cons] at h
    obtain ⟨before, w, after, hvs, hb, hw⟩ := buildList_eq_error h
    rw [Nat.zero_add] at hw
    exact ⟨before, w, after, by rw [hvs], hb, hw⟩

/-- **A fault of an item is met within it.** -/
theorem met_of_build {p : Position} {v : Value} {f : Fault} (ho : p.outerKey? = none)
    (h : (build p v).result = .error f) : f.Met p v := by
  induction p, v using Item.induction with
  | refused p v f' hs =>
      rw [build_of_error hs] at h
      cases h
      exact Shape.met_of_ofValue ho hs
  | action p v r a hg =>
      rw [hg.build_action] at h
      cases h
  | group p v r head keys items hg ih =>
      rw [hg.build_group, Except.map_eq_error_iff] at h
      obtain ⟨before, w, after, rfl, hb, hw⟩ := buildItems_eq_error h
      have hm := ih _ rfl w (by simp) _ (Position.outerKey?_index _ _) hw
      exact .of_route hg.route (hm.of_index hb)

end Item

theorem Fault.Blames.path? {path : String} {outer : Option String} {v : Value} {f : Fault}
    (h : Blames path outer v f) : f.path? = some path := by
  cases h <;> rfl

/-- **The fault of a document blames what its path leads to**: a value that breaks the rule of the
fault and no other, behind elements that are built. -/
theorem Builder.document_blames (b : Builder) (v : Value) (f : Fault) (path : String)
    (h : (b.document v).1 = .error f) (hp : f.path? = some path) :
    ∃ (p : Position) (node : Value), p.render = path ∧ v.canonical.at? p.steps = some node ∧
      f.Blames path p.outerKey? node ∧ (∀ f' : Fault, f'.Blames path p.outerKey? node → f' = f) ∧
      v.canonical.BuiltBefore p.steps := by
  have h : (Group.build v).result = .error f := h
  rcases Group.document_or_refuse v with ⟨head, keys, items, hd⟩ | ⟨found, hf⟩
  · rw [Group.build_of_document hd, Except.map_eq_error_iff] at h
    obtain ⟨before, w, after, rfl, hb, hw⟩ := Item.buildItems_eq_error h
    obtain ⟨steps, node, ha, hn, hbs⟩ := Item.met_of_build (Position.outerKey?_index _ _) hw
    have hs : (Position.index ⟨keys.map .key⟩ before.length).steps ++ steps =
        keys.map .key ++ .index before.length :: steps := by simp [Position.index]
    rw [hs] at hn
    -- the position leads through a list, so what is displayed is its text and not `<root>`
    have hr := Position.display_eq_render ⟨keys.map .key ++ .index before.length :: steps⟩
      (i := before.length) (by simp)
    obtain rfl := Option.some.inj (hn.path?.symm.trans hp)
    refine ⟨⟨keys.map .key ++ .index before.length :: steps⟩, node, hr.symm, ?_, hn,
      fun f' hf' => hf'.unique hn, hd.route.builtBefore (hbs.index hb)⟩
    rw [hd.route, Value.at?_element, ha]
  · rw [hf] at h
    cases h
    cases hp

/-- A text in a group that is no command text, behind a command. -/
theorem Builder.document_blames_tools :
    ∃ (p : Position) (node : Value), p.render = "[1].Tools[0]" ∧
      (Value.list [.string "app:quit Quit",
        .map ⟨[("Tools", .list [.string "oops"])]⟩]).canonical.at? p.steps = some node ∧
      (Fault.unknownText "[1].Tools[0]" "oops").Blames "[1].Tools[0]" p.outerKey? node ∧
      (∀ f' : Fault, f'.Blames "[1].Tools[0]" p.outerKey? node →
        f' = .unknownText "[1].Tools[0]" "oops") ∧
      (Value.list [.string "app:quit Quit",
        .map ⟨[("Tools", .list [.string "oops"])]⟩]).canonical.BuiltBefore p.steps := by
  have hq : Item.Means (.string "app:quit Quit") _ :=
    .action (.command (c := ⟨"app:quit", some "Quit"⟩) (by decide))
  have hg : Rule.Gives _ (.map ⟨[("Tools", .list [.string "oops"])]⟩) _ :=
    .namedList rfl (by decide)
  have ho : Shape.ofValue ((Position.root.index 1).key "Tools" |>.index 0) (.string "oops") =
      .error (.unknownText "[1].Tools[0]" "oops") := rfl
  have ht : (Item.build (Position.root.index (0 + 1))
      (.map ⟨[("Tools", .list [.string "oops"])]⟩)).result =
        .error (.unknownText "[1].Tools[0]" "oops") := by
    rw [Item.build_of_group (Shape.ofValue_of_gives hg _), Item.buildItems_cons,
      Item.buildList_cons_of_error (f := .unknownText "[1].Tools[0]" "oops")]
    · rfl
    · exact congrArg Outcome.result (Item.build_of_error ho)
  have hl : (Item.buildList Position.root 0 [.string "app:quit Quit",
      .map ⟨[("Tools", .list [.string "oops"])]⟩]).result =
        .error (.unknownText "[1].Tools[0]" "oops") := by
    rw [Item.buildList_cons_of_ok ((Item.build_eq_ok_iff _ _ _).mpr hq),
      Item.buildList_cons_of_error ht]
    rfl
  refine Builder.document_blames {} _ _ _ ?_ rfl
  show (Group.build _).result = _
  rw [Group.build_of_document (.list _), Item.buildItems_cons]
  exact Except.map_eq_error_iff.mpr hl

end CommandMenu
