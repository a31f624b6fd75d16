import CommandMenu.Proofs.Build
import CommandMenu.Proofs.Lookup
import CommandMenu.Proofs.Numerals
import CommandMenu.Value.OfYaml

/-! # What a conversion keeps

A value of a menu document has the parts of the YAML value that it comes from, in the same order.
Entries of a mapping get lost only where keys have the same text.

* `Fields.Gathers` says what comes of entries that are put into a map one by one.
* `Yaml.Value.Converts` says what a value becomes, at every depth.
* `Value.ofYaml_keeps` says what a conversion keeps. -/

namespace CommandMenu

/-! ### Gathering entries -/

namespace Fields

variable {α : Type}

/-- A map has a key for every entry of a list, at the place of the first such entry and with the
value of the last one. -/
structure Gathers (m : Fields α) (es : List (String × α)) : Prop where
  keys : m.keys = (es.map Prod.fst).eraseDups
  get? : ∀ key, m.get? key = lookup key es.reverse

theorem eraseDups_of_nodup {l : List String} (h : l.Nodup) : l.eraseDups = l := by
  induction l with
  | nil => rfl
  | cons a l ih =>
      obtain ⟨ha, hn⟩ := List.nodup_cons.mp h
      have hf : l.filter (fun b => !b == a) = l := by
        refine List.filter_eq_self.mpr fun b hb => ?_
        rw [Bool.not_eq_true', beq_eq_false_iff_ne]
        rintro rfl
        exact ha hb
      rw [List.eraseDups_cons, hf, ih hn]

theorem nodup_eraseDups (l : List String) : l.eraseDups.Nodup := by
  induction hl : l.length using Nat.strongRecOn generalizing l with
  | ind n ih =>
      cases l with
      | nil => exact .nil
      | cons a l =>
          have hlen : (l.filter (fun b => !b == a)).length < n :=
            lt_of_le_of_lt (List.length_filter_le _ _) (by simp [← hl])
          rw [List.eraseDups_cons, List.nodup_cons, List.mem_eraseDups]
          exact ⟨by simp, ih _ hlen _ rfl⟩

theorem gathers_empty : (empty : Fields α).Gathers [] := ⟨rfl, fun _ => rfl⟩

theorem Gathers.insert {m : Fields α} {es : List (String × α)} (h : m.Gathers es) (key : String)
    (v : α) : (m.insert key v).Gathers (es ++ [(key, v)]) := by
  constructor
  · have hmem : key ∈ m.keys ↔ key ∈ es.map Prod.fst := by rw [h.keys, List.mem_eraseDups]
    rw [List.map_append, List.eraseDups_append, ← h.keys]
    rw [keys_insert]
    by_cases hk : key ∈ es.map Prod.fst
    · rw [if_pos (hmem.mpr hk)]
      simp [List.removeAll, hk]
    · rw [if_neg (mt hmem.mp hk)]
      simp [List.removeAll, hk, List.eraseDups_cons]
  · intro key'
    rw [get?_insert, List.reverse_append, h.get?]
    rfl

/-- Putting entries into a map gathers them behind the ones that are there. -/
theorem Gathers.foldl_insert (fs : List (String × α)) : ∀ {m : Fields α} {es : List (String × α)},
    m.Gathers es → (fs.foldl (fun m e => m.insert e.1 e.2) m).Gathers (es ++ fs) := by
  induction fs with
  | nil => exact fun h => by rwa [List.append_nil]
  | cons f fs ih =>
      intro m es h
      have := ih (h.insert f.1 f.2)
      rwa [List.append_assoc] at this

theorem Gathers.nodup_keys {m : Fields α} {es : List (String × α)} (h : m.Gathers es) :
    m.keys.Nodup := h.keys ▸ nodup_eraseDups _

/-- Entries with distinct keys are known by their keys in order and by their values. -/
theorem eq_of_map_fst_of_lookup {es fs : List (String × α)} (hn : (es.map Prod.fst).Nodup)
    (hk : es.map Prod.fst = fs.map Prod.fst) (hv : ∀ key, lookup key es = lookup key fs) :
    es = fs := by
  induction es generalizing fs with
  | nil => exact (List.map_eq_nil_iff.mp hk.symm).symm
  | cons e es ih =>
      cases fs with
      | nil => cases hk
      | cons f fs =>
          obtain ⟨key, v⟩ := e
          obtain ⟨key', w⟩ := f
          obtain ⟨hkey, htail⟩ := List.cons.inj hk
          obtain rfl : key = key' := hkey
          obtain ⟨hne, hn⟩ := List.nodup_cons.mp hn
          have hvw : v = w := by simpa [lookup] using hv key
          rw [hvw, ih hn htail fun key' => ?_]
          by_cases hkey : key = key'
          · subst hkey
            rw [lookup_eq_none hne, lookup_eq_none (htail ▸ hne)]
          · simpa [lookup, hkey] using hv key'

/-- No entry is lost exactly if no key comes twice. -/
theorem Gathers.entries_eq_iff {m : Fields α} {es : List (String × α)} (h : m.Gathers es) :
    m.entries = es ↔ (es.map Prod.fst).Nodup := by
  constructor
  · rintro rfl
    exact h.nodup_keys
  · intro hn
    have hkeys : m.entries.map Prod.fst = es.map Prod.fst := h.keys.trans (eraseDups_of_nodup hn)
    refine eq_of_map_fst_of_lookup h.nodup_keys hkeys fun key => (h.get? key).trans ?_
    exact lookup_perm hn (List.reverse_perm es) key

end Fields

/-! ### YAML values and their parts -/

namespace Yaml.Value

/-- A value is found in another one, below sequences, mappings and tags. -/
inductive PartOf (u : Value) : Value → Prop
  | self : PartOf u u
  | item {v : Value} {items : List Value} (hv : v ∈ items) (h : PartOf u v) :
      PartOf u (.sequence items)
  | entry {e : Value × Value} {entries : List (Value × Value)} (he : e ∈ entries)
      (h : PartOf u e.2) : PartOf u (.mapping entries)
  | tagged {tag : Tag} {v : Value} (h : PartOf u v) : PartOf u (.tagged tag v)

/-- What a value becomes: tags are gone, and the entries of a mapping go into a map with the texts
of their keys, in a given way. -/
inductive Converts (Enter : Fields CommandMenu.Value → List (String × CommandMenu.Value) → Prop) :
    Value → CommandMenu.Value → Prop
  | null : Converts Enter .null .null
  | bool (b : Bool) : Converts Enter (.bool b) (.bool b)
  | number (n : Number) : Converts Enter (.number n) (.number n)
  | string (s : String) : Converts Enter (.string s) (.string s)
  | sequence {items : List Value} {vs : List CommandMenu.Value}
      (h : List.Forall₂ (Converts Enter) items vs) : Converts Enter (.sequence items) (.list vs)
  | mapping {entries : List (Value × Value)} {es : List (String × CommandMenu.Value)}
      {m : Fields CommandMenu.Value}
      (hk : List.Forall₂ (fun e f => e.1.keyText? = some f.1) entries es)
      (hv : List.Forall₂ (fun e f => Converts Enter e.2 f.2) entries es) (hm : Enter m es) :
      Converts Enter (.mapping entries) (.map m)
  | tagged {tag : Tag} {v : Value} {w : CommandMenu.Value} (h : Converts Enter v w) :
      Converts Enter (.tagged tag v) w

/-- Nothing is lost: a mapping becomes a map of as many entries, in the same order. -/
def Keeps : Value → CommandMenu.Value → Prop := Converts fun m es => m.entries = es

/-- The values directly below a value. -/
def children : Value → List Value
  | .sequence items => items
  | .mapping entries => entries.map Prod.snd
  | .tagged _ v => [v]
  | .null | .bool _ | .number _ | .string _ => []

theorem sizeOf_lt_of_mem_children {u v : Value} (h : u ∈ v.children) : sizeOf u < sizeOf v := by
  cases v with
  | sequence items =>
      have := List.sizeOf_lt_of_mem (show u ∈ items from h)
      simp only [sequence.sizeOf_spec]
      omega
  | mapping entries =>
      obtain ⟨e, he, rfl⟩ := List.mem_map.mp h
      have := List.sizeOf_lt_of_mem he
      have hpair : sizeOf e = 1 + sizeOf e.1 + sizeOf e.2 := by cases e; rfl
      simp only [mapping.sizeOf_spec]
      omega
  | tagged tag v =>
      obtain rfl := List.mem_singleton.mp h
      simp only [tagged.sizeOf_spec]
      omega
  | null => cases h
  | bool b => cases h
  | number n => cases h
  | string s => cases h

/-- What holds of a value if it holds of the values directly below it holds of all values. -/
theorem induction {P : Value → Prop} (step : ∀ v, (∀ u ∈ v.children, P u) → P v) (v : Value) : P v :=
  step v fun u _ => induction step u
termination_by sizeOf v
decreasing_by exact sizeOf_lt_of_mem_children ‹_›

end Yaml.Value

/-! ### Converting -/

namespace Value

theorem ofYamlItems_eq_ok {p : Position} {items : List Yaml.Value} {i : Nat} {vs : List Value}
    (h : ofYamlItems p i items = .ok vs) :
    List.Forall₂ (fun v w => ∃ q, ofYaml q v = .ok w) items vs := by
  induction items generalizing i vs with
  | nil =>
      rw [ofYamlItems] at h
      cases h
      exact .nil
  | cons v rest ih =>
      rw [ofYamlItems] at h
      obtain ⟨w, hw, h⟩ := Except.bind_eq_ok_iff.mp h
      obtain ⟨ws, hws, h⟩ := Except.bind_eq_ok_iff.mp h
      cases h
      exact .cons ⟨_, hw⟩ (ih hws)

theorem ofYamlEntries_eq_ok {p : Position} {entries : List (Yaml.Value × Yaml.Value)}
    {m n : Fields Value} (h : ofYamlEntries p entries m = .ok n) :
    ∃ es : List (String × Value), List.Forall₂ (fun e f => e.1.keyText? = some f.1) entries es ∧
      List.Forall₂ (fun e f => ∃ q, ofYaml q e.2 = .ok f.2) entries es ∧
      n = es.foldl (fun m e => m.insert e.1 e.2) m := by
  induction entries generalizing m with
  | nil =>
      rw [ofYamlEntries] at h
      cases h
      exact ⟨[], .nil, .nil, rfl⟩
  | cons e rest ih =>
      obtain ⟨k, v⟩ := e
      rw [ofYamlEntries] at h
      split at h
      · cases h
      · next key hkey =>
          obtain ⟨w, hw, h⟩ := Except.bind_eq_ok_iff.mp h
          obtain ⟨es, hk, hv, rfl⟩ := ih h
          exact ⟨(key, w) :: es, .cons hkey hk, .cons ⟨_, hw⟩ hv, rfl⟩

/-- What a value is converted to is what it becomes, with the entries of mappings gathered. -/
theorem converts_of_ofYaml (v : Yaml.Value) : ∀ (p : Position) (w : Value),
    ofYaml p v = .ok w → v.Converts Fields.Gathers w := by
  induction v using Yaml.Value.induction with
  | step v ih =>
      intro p w h
      cases v with
      | null =>
          rw [ofYaml] at h
          cases h
          exact .null
      | bool b =>
          rw [ofYaml] at h
          cases h
          exact .bool b
      | number n =>
          rw [ofYaml] at h
          cases h
          exact .number n
      | string s =>
          rw [ofYaml] at h
          cases h
          exact .string s
      | sequence items =>
          rw [ofYaml] at h
          obtain ⟨vs, hvs, h⟩ := Except.bind_eq_ok_iff.mp h
          cases h
          have hall := (List.forall₂_and_left items vs).mpr ⟨ih, ofYamlItems_eq_ok hvs⟩
          exact .sequence (hall.imp fun u w ⟨hu, q, hq⟩ => hu q w hq)
      | mapping entries =>
          rw [ofYaml] at h
          obtain ⟨m, hm, h⟩ := Except.bind_eq_ok_iff.mp h
          cases h
          obtain ⟨es, hk, hv, rfl⟩ := ofYamlEntries_eq_ok hm
          have hall := (List.forall₂_and_left entries es).mpr
            ⟨fun e he => ih e.2 (List.mem_map_of_mem he), hv⟩
          exact .mapping hk (hall.imp fun e f ⟨he, q, hq⟩ => he q f.2 hq)
            (Fields.gathers_empty.foldl_insert es)
      | tagged tag v =>
          rw [ofYaml] at h
          exact .tagged (ih v List.mem_cons_self _ _ h)

end Value

/-! ### What is kept -/

namespace Yaml.Value

/-- Any two entries of a mapping that is found in a value are related, the first one to the second
one. -/
def EntriesPairwise (R : Value × Value → Value × Value → Prop) (v : Value) : Prop :=
  ∀ entries, (mapping entries).PartOf v → entries.Pairwise R

section EntriesPairwise

variable {R : Value × Value → Value × Value → Prop}

theorem entriesPairwise_sequence {items : List Value} :
    (sequence items).EntriesPairwise R ↔ ∀ v ∈ items, v.EntriesPairwise R := by
  constructor
  · exact fun h v hv entries hp => h entries (.item hv hp)
  · intro h entries hp
    cases hp with
    | item hv hp => exact h _ hv entries hp

theorem entriesPairwise_mapping {entries : List (Value × Value)} :
    (mapping entries).EntriesPairwise R ↔
      entries.Pairwise R ∧ ∀ e ∈ entries, e.2.EntriesPairwise R := by
  constructor
  · exact fun h => ⟨h entries .self, fun e he entries' hp => h entries' (.entry he hp)⟩
  · intro h entries' hp
    cases hp with
    | self => exact h.1
    | entry he hp => exact h.2 _ he entries' hp

theorem entriesPairwise_tagged {tag : Tag} {v : Value} :
    (tagged tag v).EntriesPairwise R ↔ v.EntriesPairwise R := by
  constructor
  · exact fun h entries hp => h entries (.tagged hp)
  · intro h entries hp
    cases hp with
    | tagged hp => exact h entries hp

theorem entriesPairwise_null : null.EntriesPairwise R := fun _ hp => by cases hp

theorem entriesPairwise_bool (b : Bool) : (bool b).EntriesPairwise R := fun _ hp => by cases hp

theorem entriesPairwise_number (n : Number) : (number n).EntriesPairwise R :=
  fun _ hp => by cases hp

theorem entriesPairwise_string (s : String) : (string s).EntriesPairwise R :=
  fun _ hp => by cases hp

end EntriesPairwise

/-- The keys of two entries have different texts. -/
def Apart (e e' : Value × Value) : Prop := e.1.keyText? ≠ e'.1.keyText?

theorem map_keyText?_eq {entries : List (Value × Value)} {es : List (String × CommandMenu.Value)}
    (h : List.Forall₂ (fun e f => e.1.keyText? = some f.1) entries es) :
    entries.map (·.1.keyText?) = (es.map Prod.fst).map some := by
  induction h with
  | nil => rfl
  | cons he _ ih => rw [List.map_cons, List.map_cons, List.map_cons, he, ih]

theorem nodup_iff_pairwise_apart {entries : List (Value × Value)}
    {es : List (String × CommandMenu.Value)}
    (h : List.Forall₂ (fun e f => e.1.keyText? = some f.1) entries es) :
    (es.map Prod.fst).Nodup ↔ entries.Pairwise Apart := by
  rw [← List.nodup_map_iff (Option.some_injective _), ← map_keyText?_eq h]
  exact List.pairwise_map

theorem forall₂_iff_forall_mem {α β : Type} {R S : α → β → Prop} {P : α → Prop} {l : List α}
    {u : List β} (h : List.Forall₂ R l u) (hi : ∀ a ∈ l, ∀ b, R a b → (S a b ↔ P a)) :
    List.Forall₂ S l u ↔ ∀ a ∈ l, P a := by
  induction h with
  | nil => simp
  | @cons a b l u hab _ ih =>
      rw [List.forall₂_cons, List.forall_mem_cons, hi a List.mem_cons_self b hab,
        ih fun a ha => hi a (List.mem_cons_of_mem _ ha)]

theorem keeps_sequence {items : List Value} {vs : List CommandMenu.Value} :
    (sequence items).Keeps (.list vs) ↔ List.Forall₂ Keeps items vs := by
  constructor
  · intro h
    cases h with
    | sequence h => exact h
  · exact .sequence

theorem keeps_mapping {entries : List (Value × Value)} {m : Fields CommandMenu.Value} :
    (mapping entries).Keeps (.map m) ↔
      List.Forall₂ (fun e f => e.1.keyText? = some f.1) entries m.entries ∧
      List.Forall₂ (fun e f => e.2.Keeps f.2) entries m.entries := by
  constructor
  · intro h
    cases h with
    | mapping hk hv hm =>
        subst hm
        exact ⟨hk, hv⟩
  · exact fun ⟨hk, hv⟩ => .mapping hk hv rfl

theorem keeps_tagged {tag : Tag} {v : Value} {w : CommandMenu.Value} :
    (tagged tag v).Keeps w ↔ v.Keeps w := by
  constructor
  · intro h
    cases h with
    | tagged h => exact h
  · exact .tagged

/-- Nothing is lost exactly if the keys of each mapping have different texts. -/
theorem keeps_iff (v : Value) : ∀ w : CommandMenu.Value, v.Converts Fields.Gathers w →
    (v.Keeps w ↔ v.EntriesPairwise Apart) := by
  induction v using induction with
  | step v ih =>
      intro w h
      cases h with
      | null => exact iff_of_true .null entriesPairwise_null
      | bool b => exact iff_of_true (.bool b) (entriesPairwise_bool b)
      | number n => exact iff_of_true (.number n) (entriesPairwise_number n)
      | string s => exact iff_of_true (.string s) (entriesPairwise_string s)
      | sequence hs => rw [keeps_sequence, entriesPairwise_sequence, forall₂_iff_forall_mem hs ih]
      | tagged h => rw [keeps_tagged, entriesPairwise_tagged, ih _ List.mem_cons_self _ h]
      | @mapping entries es m hk hv hm =>
          have hall := forall₂_iff_forall_mem hv fun e he f => ih e.2 (List.mem_map_of_mem he) f.2
          rw [keeps_mapping, entriesPairwise_mapping, ← nodup_iff_pairwise_apart hk, ← hm.entries_eq_iff,
            ← hall]
          constructor
          · rintro ⟨hk', hv'⟩
            -- the keys of the map are those of all entries, so none of them comes twice
            have hkeys : es.map Prod.fst = m.keys :=
              (Option.some_injective _).list_map ((map_keyText?_eq hk).symm.trans (map_keyText?_eq hk'))
            have he : m.entries = es := hm.entries_eq_iff.mpr (hkeys ▸ hm.nodup_keys)
            exact ⟨he, he ▸ hv'⟩
          · rintro ⟨rfl, hv'⟩
            exact ⟨hk, hv'⟩

/-! ### Keys with the same text -/

/-- A key of the format, if it is a number. -/
def IsFormat (k : Value) : Prop := ∀ n, k = .number n → n.IsFormat

/-- Two keys are both strings, or none of them is a string; and none of them has a tag. -/
structure OfOneKind (k k' : Value) : Prop where
  strings : (∃ s, k = .string s) ↔ ∃ s, k' = .string s
  plain : ∀ tag v, k ≠ .tagged tag v
  plain' : ∀ tag v, k' ≠ .tagged tag v

/-- The keys of two entries are different values, as they are in every document. -/
structure Different (e e' : Value × Value) : Prop where
  different : e.1.same e'.1 = false
  format : e.1.IsFormat
  format' : e'.1.IsFormat

/-- Two entries can be told apart: their keys are different values, and they have different texts or
are of one kind. -/
structure Discernible (e e' : Value × Value) : Prop extends Different e e' where
  kind : e.1.OfOneKind e'.1 ∨ Apart e e'

/-- **Keys of one kind with the same text are the same.** -/
theorem same_of_keyText?_eq {k k' : Value} {t : String} (hf : k.IsFormat) (hf' : k'.IsFormat)
    (ho : k.OfOneKind k') (hk : k.keyText? = some t) (hk' : k'.keyText? = some t) :
    k.same k' = true := by
  have hboth : k.keyText? = k'.keyText? := hk.trans hk'.symm
  -- among keys that are no strings, the text tells numbers from truth values
  cases k with
  | null => cases hk
  | sequence items => cases hk
  | mapping entries => cases hk
  | tagged tag v => exact absurd rfl (ho.plain tag v)
  | string s =>
      obtain ⟨s', rfl⟩ := ho.strings.mp ⟨s, rfl⟩
      obtain rfl : s = s' := Option.some.inj hboth
      simp [same]
  | bool b =>
      cases k' with
      | null => cases hk'
      | sequence items => cases hk'
      | mapping entries => cases hk'
      | tagged tag v => exact absurd rfl (ho.plain' tag v)
      | string s => exact absurd (ho.strings.mpr ⟨s, rfl⟩) (by simp)
      | number n => exact absurd (Option.some.inj hboth).symm (Number.render_ne_bool (hf' n rfl) b)
      | bool b' =>
          cases b <;> cases b'
          · rfl
          · exact absurd (Option.some.inj hboth) (by decide)
          · exact absurd (Option.some.inj hboth) (by decide)
          · rfl
  | number n =>
      cases k' with
      | null => cases hk'
      | sequence items => cases hk'
      | mapping entries => cases hk'
      | tagged tag v => exact absurd rfl (ho.plain' tag v)
      | string s => exact absurd (ho.strings.mpr ⟨s, rfl⟩) (by simp)
      | bool b => exact absurd (Option.some.inj hboth) (Number.render_ne_bool (hf n rfl) b)
      | number n' =>
          obtain rfl := Number.render_injective (hf n rfl) (hf' n' rfl) (Option.some.inj hboth)
          rw [same, Number.same_self]

/-- What is found in a value is converted as well. -/
theorem Converts.of_partOf {Enter : Fields CommandMenu.Value → List (String × CommandMenu.Value) → Prop}
    {u v : Value} (hp : u.PartOf v) {w : CommandMenu.Value} (h : v.Converts Enter w) :
    ∃ w', u.Converts Enter w' := by
  induction hp generalizing w with
  | self => exact ⟨w, h⟩
  | tagged _ ih =>
      cases h with
      | tagged h => exact ih h
  | item hv _ ih =>
      cases h with
      | sequence h =>
          obtain ⟨w', -, hw'⟩ := exists_mem_of_forall₂ h.flip hv
          exact ih hw'
  | entry he _ ih =>
      cases h with
      | mapping _ h _ =>
          obtain ⟨f, -, hf⟩ := exists_mem_of_forall₂ h.flip he
          exact ih hf

/-- Entries that can be told apart have keys with different texts. -/
theorem Converts.entriesPairwise_apart {Enter : Fields CommandMenu.Value →
    List (String × CommandMenu.Value) → Prop} {v : Value} {w : CommandMenu.Value}
    (hc : v.Converts Enter w) (h : v.EntriesPairwise Discernible) : v.EntriesPairwise Apart := by
  intro entries hp
  -- the mapping was converted as well, so all of its keys have texts
  obtain ⟨w', hw'⟩ := hc.of_partOf hp
  cases hw' with
  | mapping hk _ _ =>
      refine (h entries hp).imp_of_mem fun {e e'} he _ hd heq => ?_
      rcases hd.kind with hkind | hne
      · obtain ⟨f, -, htext⟩ := exists_mem_of_forall₂ hk.flip he
        have hsame := same_of_keyText?_eq hd.format hd.format' hkind htext (heq ▸ htext)
        cases hd.different.symm.trans hsame
      · exact hne heq

end Yaml.Value

/-- **What a conversion keeps.**  A list has the elements of its sequence, and a map has the entries
of its mapping, at every depth and in their order; of entries whose keys have the same text it has
the last one, at the place of the first one.

* Nothing is lost exactly if any two keys of a mapping have different texts.
* Keys that are different values have different texts unless one of them has a tag, or one of them
  is a string and the other one is not. -/
theorem Value.ofYaml_keeps {p : Position} {v : Yaml.Value} {w : Value} (h : ofYaml p v = .ok w) :
    v.Converts Fields.Gathers w ∧
    (v.Keeps w ↔ v.EntriesPairwise Yaml.Value.Apart) ∧
    (v.EntriesPairwise Yaml.Value.Discernible → v.Keeps w) := by
  have hc := converts_of_ofYaml v p w h
  exact ⟨hc, v.keeps_iff w hc, fun hkeys => (v.keeps_iff w hc).mpr (hc.entriesPairwise_apart hkeys)⟩

/-- The number one, as a floating point number. -/
def Yaml.Value.one : Yaml.Value := .number (.real (.finite false 4503599627370496 (-52)))

/-- A mapping in a sequence, whose keys are two numbers and a string. -/
theorem Value.ofYaml_keeps_numbers :
    ofYaml Position.root (.sequence [.mapping [(.number (.integer 1), .string "a"), (.one, .null),
      (.string "x", .bool true)]]) =
      .ok (.list [.map ⟨[("1", .string "a"), ("1.0", .null), ("x", .bool true)]⟩]) ∧
    (Yaml.Value.sequence [.mapping [(.number (.integer 1), .string "a"), (.one, .null),
      (.string "x", .bool true)]]).Keeps
      (.list [.map ⟨[("1", .string "a"), ("1.0", .null), ("x", .bool true)]⟩]) := by
  have hone : Yaml.Value.one.keyText? = some "1.0" := by decide +kernel
  have hformat : Yaml.Value.one.IsFormat := by
    rintro n ⟨⟩
    exact ⟨by norm_num, by norm_num, by norm_num, .inl (by norm_num)⟩
  have hok : ofYaml Position.root (.sequence [.mapping [(.number (.integer 1), .string "a"),
      (.one, .null), (.string "x", .bool true)]]) =
      .ok (.list [.map ⟨[("1", .string "a"), ("1.0", .null), ("x", .bool true)]⟩]) := by
    simp only [ofYaml, ofYamlItems, ofYamlEntries, hone]
    rfl
  have hinteger : (Yaml.Value.number (.integer 1)).IsFormat := by
    rintro n ⟨⟩
    trivial
  have hstring : (Yaml.Value.string "x").IsFormat := nofun
  have hnumbers : (Yaml.Value.number (.integer 1)).OfOneKind .one :=
    ⟨by simp [Yaml.Value.one], nofun, nofun⟩
  have h12 : Yaml.Value.Discernible (.number (.integer 1), .string "a") (.one, .null) :=
    ⟨⟨rfl, hinteger, hformat⟩, .inl hnumbers⟩
  have h13 : Yaml.Value.Discernible (.number (.integer 1), .string "a") (.string "x", .bool true) :=
    ⟨⟨rfl, hinteger, hstring⟩, .inr (show some "1" ≠ some "x" by decide)⟩
  have h23 : Yaml.Value.Discernible (.one, .null) (.string "x", .bool true) :=
    ⟨⟨rfl, hformat, hstring⟩, .inr fun h => absurd (hone.symm.trans h) (by decide)⟩
  refine ⟨hok, (ofYaml_keeps hok).2.2 (Yaml.Value.entriesPairwise_sequence.mpr fun v hv => ?_)⟩
  rw [List.mem_singleton.mp hv, Yaml.Value.entriesPairwise_mapping]
  refine ⟨by simp [h12, h13, h23], ?_⟩
  simp [Yaml.Value.entriesPairwise_string, Yaml.Value.entriesPairwise_null,
    Yaml.Value.entriesPairwise_bool]

/-- **Entries get lost although their keys are different.**  A number and a string have the same
text. -/
theorem Value.not_keeps_of_different :
    ¬ ∀ (p : Position) (v : Yaml.Value) (w : Value),
      v.EntriesPairwise (fun e e' => e.1.same e'.1 = false) → ofYaml p v = .ok w → v.Keeps w := by
  intro h
  have hkeeps := h Position.root
    (.mapping [(.number (.integer 1), .string "a"), (.string "1", .string "b")])
    (.map ⟨[("1", .string "b")]⟩) ?_ ?_
  · cases hkeeps with
    | mapping hk _ hm =>
        subst hm
        cases hk with
        | cons _ hk => cases hk
  · rw [Yaml.Value.entriesPairwise_mapping]
    simp [Yaml.Value.same, Yaml.Value.entriesPairwise_string]
  · simp only [ofYaml, ofYamlEntries]
    rfl

end CommandMenu
