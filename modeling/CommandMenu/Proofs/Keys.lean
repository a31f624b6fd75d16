import CommandMenu.Proofs.Conversion

/-! # Keys of a document

A document is refused if a key is repeated in one of its mappings, and a numeral stands for the
number of the format that it is nearest to.  A value that is read thus has the keys that a conversion
relies on.

* `Yaml.Document.sound_valueOf` says what the value of a node owes to those of the nodes in it.
* `Yaml.sound_read` says that no two keys of a mapping are the same value.
* `Value.read_keeps` says which documents are converted without a loss. -/

namespace CommandMenu

/-! ### Folds that may fail -/

/-- What holds at the start and is kept by every step holds at the end. -/
theorem Except.foldlM_invariant {α β ε : Type} {f : β → α → Except ε β} (P : β → Prop)
    (step : ∀ b a b', P b → f b a = .ok b' → P b') {as : List α} {b b' : β} (hb : P b)
    (h : as.foldlM f b = .ok b') : P b' := by
  induction as generalizing b with
  | nil =>
      cases h
      exact hb
  | cons a as ih =>
      rw [List.foldlM_cons] at h
      obtain ⟨b₁, hb₁, h⟩ := bind_eq_ok_iff.mp h
      exact ih (step b a b₁ hb hb₁) h

namespace Yaml

/-! ### Scalars -/

theorem isFormat_floatOfText? {text : String} {x : Binary64} (h : floatOfText? text = some x) :
    x.IsFormat := by
  unfold floatOfText? at h
  dsimp only at h
  split at h
  · cases h
  · split at h
    · cases h
      trivial
    split at h
    · cases h
      trivial
    split at h
    · cases h
      trivial
    exact Binary64.isFormat_readDecimal (Option.filter_eq_some_iff.mp h).1

namespace Value

/-- A value without collections and tags, whose number is one of the format. -/
inductive IsScalar : Value → Prop
  | null : IsScalar .null
  | bool (b : Bool) : IsScalar (.bool b)
  | number {n : Number} (h : n.IsFormat) : IsScalar (.number n)
  | string (s : String) : IsScalar (.string s)

end Value

theorem isScalar_plainValue {text : String} {v : Value} (h : plainValue text = .ok v) :
    v.IsScalar := by
  unfold plainValue at h
  split at h
  · cases h
    exact .null
  split at h
  · cases h
    exact .bool _
  split at h
  · cases h
    exact .number trivial
  · cases h
  split at h
  · cases h
    exact .string _
  split at h
  · next hx =>
      cases h
      exact .number (isFormat_floatOfText? hx)
  · cases h
    exact .string _

theorem isScalar_untaggedValue {text : String} {plain : Bool} {v : Value}
    (h : untaggedValue text plain = .ok v) : v.IsScalar := by
  unfold untaggedValue at h
  split at h
  · exact isScalar_plainValue h
  · cases h
    exact .string _

theorem isScalar_taggedValue {tag : Tag} {text : String} {plain : Bool} {v : Value}
    (h : taggedValue tag text plain = .ok v) : v.IsScalar := by
  unfold taggedValue at h
  split at h
  · split at h
    · cases h
      exact .bool _
    · cases h
  split at h
  · split at h
    · cases h
      exact .number trivial
    · cases h
    · cases h
  split at h
  · split at h
    · next hx =>
        cases h
        exact .number (isFormat_floatOfText? hx)
    · cases h
  split at h
  · split at h
    · cases h
      exact .null
    · cases h
  split at h
  · exact isScalar_untaggedValue h
  · cases h
    exact .string _

theorem isScalar_scalarValue {tag : Option Tag} {text : String} {plain : Bool} {v : Value}
    (h : scalarValue tag text plain = .ok v) : v.IsScalar := by
  unfold scalarValue at h
  split at h
  · exact isScalar_untaggedValue h
  · exact isScalar_taggedValue h

/-! ### Collections -/

namespace Value

/-- A value that a document can denote: the keys of each mapping in it are different, and it may be a
key itself. -/
structure Sound (v : Value) : Prop where
  format : v.IsFormat
  different : v.EntriesPairwise Different

theorem IsScalar.sound {v : Value} (h : v.IsScalar) : v.Sound := by
  cases h with
  | null => exact ⟨nofun, entriesPairwise_null⟩
  | bool b => exact ⟨nofun, entriesPairwise_bool b⟩
  | @number n h =>
      refine ⟨?_, entriesPairwise_number n⟩
      rintro n' ⟨⟩
      exact h
  | string s => exact ⟨nofun, entriesPairwise_string s⟩

theorem sound_sequence {items : List Value} (h : ∀ v ∈ items, v.Sound) :
    (sequence items).Sound :=
  ⟨nofun, entriesPairwise_sequence.mpr fun v hv => (h v hv).different⟩

theorem sound_mapping {entries : List (Value × Value)} (hd : entries.Pairwise Different)
    (h : ∀ e ∈ entries, e.2.Sound) : (mapping entries).Sound :=
  ⟨nofun, entriesPairwise_mapping.mpr ⟨hd, fun e he => (h e he).different⟩⟩

theorem Sound.tagged {v : Value} (h : v.Sound) (tag : Tag) : (tagged tag v).Sound :=
  ⟨nofun, entriesPairwise_tagged.mpr h.different⟩

end Value

namespace Document

theorem sound_wrap {v : Value} (h : v.Sound) (node : Node) : (wrap node v).Sound := by
  unfold wrap
  split
  · exact h.tagged _
  · exact h

/-- Only sound values are found. -/
def Expander.Sound (below : Expander) : Prop :=
  ∀ {route : Route} {node : Node} {used : Nat} {r : Value × Nat},
    below route node used = .ok r → r.1.Sound

variable {below : Expander} {route : Route}

theorem sound_pushItem (hb : below.Sound) {item : Node} {state state' : List Value × Nat}
    (hs : ∀ v ∈ state.1, v.Sound) (h : pushItem below route state item = .ok state') :
    ∀ v ∈ state'.1, v.Sound := by
  obtain ⟨r, hr, h⟩ := Except.bind_eq_ok_iff.mp h
  cases h
  exact List.forall_mem_cons.mpr ⟨hb hr, hs⟩

/-- The entries of a mapping that were found so far, the last one in front. -/
structure Entered (entries : List (Value × Value)) : Prop where
  different : entries.Pairwise fun e' e => Value.Different e e'
  keys : ∀ e ∈ entries, e.1.IsFormat
  values : ∀ e ∈ entries, e.2.Sound

/-- An entry that is found is different from those before it, as a key that is repeated is refused. -/
theorem entered_pushEntry (hb : below.Sound) {mark : Mark} {e : Node × Node}
    {state state' : List (Value × Value) × Nat} (hs : Entered state.1)
    (h : pushEntry below route mark state e = .ok state') : Entered state'.1 := by
  obtain ⟨⟨key, used⟩, hkey, h⟩ := Except.bind_eq_ok_iff.mp h
  have hformat : key.IsFormat := (hb hkey).format
  dsimp only at h
  split at h
  · cases h
  · next hnew =>
      obtain ⟨⟨value, used'⟩, hvalue, h⟩ := Except.bind_eq_ok_iff.mp h
      cases h
      -- the search compared the new key with all those before it
      have hnew := List.find?_eq_none.mp hnew
      refine ⟨List.pairwise_cons.mpr ⟨fun p hp => ?_, hs.different⟩, ?_, ?_⟩
      · exact ⟨Bool.eq_false_iff.mpr (hnew p hp), hs.keys p hp, hformat⟩
      · exact List.forall_mem_cons.mpr ⟨hformat, hs.keys⟩
      · exact List.forall_mem_cons.mpr ⟨hb hvalue, hs.values⟩

/-- The value of a node is sound if those of the nodes in it are. -/
theorem sound_valueOf (d : Document) {below? : Option Expander}
    (hb : ∀ below ∈ below?, below.Sound) {node : Node} {used : Nat} {r : Value × Nat}
    (h : d.valueOf below? route node used = .ok r) : r.1.Sound := by
  unfold valueOf at h
  split at h
  · cases h
  · cases h
  · -- a scalar
    split at h
    · next hv =>
        cases h
        exact sound_wrap (isScalar_scalarValue hv).sound _
    · cases h
  · cases h
  · cases h
  · -- a sequence, whose items were found one by one
    obtain ⟨state, hstate, h⟩ := Except.bind_eq_ok_iff.mp h
    cases h
    have hall := Except.foldlM_invariant (fun state => ∀ v ∈ state.1, v.Sound)
      (fun _ _ _ => sound_pushItem (hb _ rfl)) (by simp) hstate
    exact sound_wrap (Value.sound_sequence fun v hv => hall v (List.mem_reverse.mp hv)) _
  · -- a mapping, whose entries were found one by one
    obtain ⟨state, hstate, h⟩ := Except.bind_eq_ok_iff.mp h
    cases h
    have hall := Except.foldlM_invariant (fun state => Entered state.1)
      (fun _ _ _ => entered_pushEntry (hb _ rfl)) ⟨.nil, by simp, by simp⟩ hstate
    refine sound_wrap (Value.sound_mapping (List.pairwise_reverse.mpr hall.different) ?_) _
    exact fun e he => hall.values e (List.mem_reverse.mp he)

/-- Whatever a node denotes is sound, by induction on the levels of collections. -/
theorem sound_expand (d : Document) (depth : Nat) : (d.expand depth).Sound := by
  induction depth with
  | zero =>
      intro route node used r h
      obtain ⟨⟨node', used'⟩, -, h⟩ := Except.bind_eq_ok_iff.mp h
      exact d.sound_valueOf (fun _ hbelow => by cases hbelow) h
  | succ depth ih =>
      intro route node used r h
      obtain ⟨⟨node', used'⟩, -, h⟩ := Except.bind_eq_ok_iff.mp h
      refine d.sound_valueOf (fun below hbelow => ?_) h
      cases hbelow
      exact ih

theorem sound_value {d : Document} {v : Value} (h : d.value = .ok v) : v.Sound := by
  unfold value at h
  split at h
  · cases h
    exact Value.IsScalar.null.sound
  · obtain ⟨r, hr, h⟩ := Except.bind_eq_ok_iff.mp h
    dsimp only at h
    split at h
    · cases h
    · cases h
      exact d.sound_expand maxDepth hr

end Document

/-- **A document has no mapping in which a key is repeated.** -/
theorem sound_read {text : String} {v : Value} (h : Yaml.read text = .ok v) : v.Sound := by
  obtain ⟨u, hu, h⟩ := Except.bind_eq_ok_iff.mp h
  split at h
  · cases h
  · cases h
    exact Document.sound_value hu

end Yaml

/-- **A document is converted without a loss** if any two keys of a mapping have different texts or
are of one kind. -/
theorem Value.read_keeps {text : String} {w : Value} (h : Value.read text = .ok w) :
    ∃ v, Yaml.read text = .ok v ∧
      (v.EntriesPairwise (fun e e' => e.1.OfOneKind e'.1 ∨ Yaml.Value.Apart e e') → v.Keeps w) := by
  unfold Value.read at h
  split at h
  · cases h
  · next v hv =>
      refine ⟨v, hv, fun hkinds => ?_⟩
      have hc := converts_of_ofYaml v _ w h
      refine (v.keeps_iff w hc).mpr (hc.entriesPairwise_apart fun entries hp => ?_)
      exact ((Yaml.sound_read hv).different entries hp).imp₂ (fun _ _ hd hk => ⟨hd, hk⟩)
        (hkinds entries hp)

end CommandMenu
