import CommandMenu.Proofs.Conversion

/-! # Keys without a text

A conversion fails only for a key that has no text, and it stops at the first one.

* `Yaml.Value.Unusable` says which keys these are.
* `Yaml.Value.keysMet` lists the keys in a value in the order in which they are met, each with the
  position of its mapping; `Yaml.Value.holds_of_mem_keysMet` says that this position leads there.
* `Value.stopsAt_ofYaml` says that a conversion stops at the first key without a text.
* `Yaml.Value.bare` takes all tags away, and `Value.ofYaml_bare` says that they do not count.
* `Value.ofYaml_unusable` is the result. -/

namespace CommandMenu

/-! ### Keys -/

namespace Yaml.Value

/-- A key that has no text, below its tags. -/
inductive Unusable : Value → Prop
  | null : Unusable .null
  | sequence (items : List Value) : Unusable (.sequence items)
  | mapping (entries : List (Value × Value)) : Unusable (.mapping entries)
  | tagged {tag : Tag} {v : Value} (h : Unusable v) : Unusable (.tagged tag v)

theorem keyText?_eq_none_iff (k : Value) : k.keyText? = none ↔ k.Unusable := by
  induction k using induction with
  | step k ih =>
      cases k with
      | null => exact iff_of_true rfl .null
      | sequence items => exact iff_of_true rfl (.sequence items)
      | mapping entries => exact iff_of_true rfl (.mapping entries)
      | bool b => exact iff_of_false nofun nofun
      | number n => exact iff_of_false nofun nofun
      | string s => exact iff_of_false nofun nofun
      | tagged tag v =>
          rw [keyText?, ih v List.mem_cons_self]
          constructor
          · exact .tagged
          · intro h
            cases h with
            | tagged h => exact h

theorem not_unusable_of_keyText? {k : Value} {text : String} (h : k.keyText? = some text) :
    ¬ k.Unusable := by
  rw [← keyText?_eq_none_iff, h]
  exact nofun

mutual

/-- The keys of the mappings in a value, from left to right and each just before its own value.  With
each key comes the position of its mapping; below a key without a text there are no positions. -/
def keysMet (p : Option Position) : Value → List (Option Position × Value)
  | .null | .bool _ | .number _ | .string _ => []
  | .sequence items => keysMetInItems p 0 items
  | .mapping entries => keysMetInEntries p entries
  | .tagged _ v => keysMet p v

/-- The keys in the items of a sequence from a number on. -/
def keysMetInItems (p : Option Position) : Nat → List Value → List (Option Position × Value)
  | _, [] => []
  | i, v :: rest => keysMet (p.map (·.index i)) v ++ keysMetInItems p (i + 1) rest

/-- The keys in the entries of a mapping. -/
def keysMetInEntries (p : Option Position) :
    List (Value × Value) → List (Option Position × Value)
  | [] => []
  | (k, v) :: rest =>
    (p, k) :: keysMet (p.bind fun p => k.keyText?.map p.key) v ++ keysMetInEntries p rest

end

/-! ### Which keys are met -/

/-- A key of a mapping that is found in a value. -/
def HasKey (v k : Value) : Prop :=
  ∃ entries, (mapping entries).PartOf v ∧ k ∈ entries.map Prod.fst

theorem hasKey_sequence {items : List Value} {k : Value} :
    (sequence items).HasKey k ↔ ∃ v ∈ items, v.HasKey k := by
  constructor
  · rintro ⟨entries, hp, hk⟩
    cases hp with
    | item hv hp => exact ⟨_, hv, entries, hp, hk⟩
  · rintro ⟨v, hv, entries, hp, hk⟩
    exact ⟨entries, .item hv hp, hk⟩

theorem hasKey_mapping {entries : List (Value × Value)} {k : Value} :
    (mapping entries).HasKey k ↔ k ∈ entries.map Prod.fst ∨ ∃ e ∈ entries, e.2.HasKey k := by
  constructor
  · rintro ⟨entries', hp, hk⟩
    cases hp with
    | self => exact .inl hk
    | entry he hp => exact .inr ⟨_, he, entries', hp, hk⟩
  · rintro (hk | ⟨e, he, entries', hp, hk⟩)
    · exact ⟨entries, .self, hk⟩
    · exact ⟨entries', .entry he hp, hk⟩

theorem hasKey_tagged {tag : Tag} {v k : Value} : (tagged tag v).HasKey k ↔ v.HasKey k := by
  constructor
  · rintro ⟨entries, hp, hk⟩
    cases hp with
    | tagged hp => exact ⟨entries, hp, hk⟩
  · rintro ⟨entries, hp, hk⟩
    exact ⟨entries, .tagged hp, hk⟩

theorem mem_keysMetInItems {k : Value} {items : List Value}
    (h : ∀ v ∈ items, ∀ p, k ∈ (v.keysMet p).map Prod.snd ↔ v.HasKey k) (p : Option Position)
    (i : Nat) : k ∈ (keysMetInItems p i items).map Prod.snd ↔ ∃ v ∈ items, v.HasKey k := by
  induction items generalizing i with
  | nil => simp [keysMetInItems]
  | cons v rest ih =>
      obtain ⟨hv, hr⟩ := List.forall_mem_cons.mp h
      rw [keysMetInItems, List.map_append, List.mem_append, hv, ih hr, List.exists_mem_cons_iff]

theorem mem_keysMetInEntries {k : Value} {entries : List (Value × Value)}
    (h : ∀ e ∈ entries, ∀ p, k ∈ (e.2.keysMet p).map Prod.snd ↔ e.2.HasKey k)
    (p : Option Position) : k ∈ (keysMetInEntries p entries).map Prod.snd ↔
      k ∈ entries.map Prod.fst ∨ ∃ e ∈ entries, e.2.HasKey k := by
  induction entries with
  | nil => simp [keysMetInEntries]
  | cons e rest ih =>
      obtain ⟨key, v⟩ := e
      obtain ⟨hv, hr⟩ := List.forall_mem_cons.mp h
      rw [keysMetInEntries, List.cons_append, List.map_cons, List.mem_cons, List.map_append,
        List.mem_append, hv, ih hr, List.exists_mem_cons_iff, List.map_cons, List.mem_cons]
      tauto

/-- **All keys are met, and no others.** -/
theorem mem_keysMet (k v : Value) :
    ∀ p : Option Position, k ∈ (v.keysMet p).map Prod.snd ↔ v.HasKey k := by
  induction v using induction with
  | step v ih =>
      intro p
      cases v with
      | sequence items =>
          have hi : ∀ v ∈ items, ∀ p, k ∈ (v.keysMet p).map Prod.snd ↔ v.HasKey k := ih
          rw [keysMet, mem_keysMetInItems hi, hasKey_sequence]
      | mapping entries =>
          rw [keysMet, mem_keysMetInEntries (fun e he => ih e.2 (List.mem_map_of_mem he)),
            hasKey_mapping]
      | tagged tag v => rw [keysMet, ih v List.mem_cons_self, hasKey_tagged]
      | null => exact iff_of_false (by simp [keysMet]) (fun ⟨_, hp, _⟩ => by cases hp)
      | bool b => exact iff_of_false (by simp [keysMet]) (fun ⟨_, hp, _⟩ => by cases hp)
      | number n => exact iff_of_false (by simp [keysMet]) (fun ⟨_, hp, _⟩ => by cases hp)
      | string s => exact iff_of_false (by simp [keysMet]) (fun ⟨_, hp, _⟩ => by cases hp)

/-! ### Positions of keys -/

/-- Some steps lead from one value to another.  Tags do not count. -/
inductive Reaches (u : Value) : List Step → Value → Prop
  | here : Reaches u [] u
  | index {i : Nat} {steps : List Step} {v : Value} {items : List Value} (hv : items[i]? = some v)
      (h : Reaches u steps v) : Reaches u (.index i :: steps) (.sequence items)
  | key {e : Value × Value} {key : String} {steps : List Step} {entries : List (Value × Value)}
      (he : e ∈ entries) (hk : e.1.keyText? = some key) (h : Reaches u steps e.2) :
      Reaches u (.key key :: steps) (.mapping entries)
  | tagged {tag : Tag} {steps : List Step} {v : Value} (h : Reaches u steps v) :
      Reaches u steps (.tagged tag v)

/-- A position below another one leads to a mapping with a key. -/
def Holds (v k : Value) (p q : Position) : Prop :=
  ∃ steps entries, q = ⟨p.steps ++ steps⟩ ∧ (mapping entries).Reaches steps v ∧
    k ∈ entries.map Prod.fst

theorem Holds.index {v k : Value} {p q : Position} {items : List Value} {i : Nat}
    (h : v.Holds k (p.index i) q) (hv : items[i]? = some v) : (sequence items).Holds k p q := by
  obtain ⟨steps, entries, rfl, hr, hk⟩ := h
  exact ⟨.index i :: steps, entries, by simp [Position.index], .index hv hr, hk⟩

theorem Holds.key {e : Value × Value} {k : Value} {p q : Position} {key : String}
    {entries : List (Value × Value)} (h : e.2.Holds k (p.key key) q) (he : e ∈ entries)
    (ht : e.1.keyText? = some key) : (mapping entries).Holds k p q := by
  obtain ⟨steps, entries', rfl, hr, hk⟩ := h
  exact ⟨.key key :: steps, entries', by simp [Position.key], .key he ht hr, hk⟩

theorem Holds.tagged {tag : Tag} {v k : Value} {p q : Position} (h : v.Holds k p q) :
    (tagged tag v).Holds k p q := by
  obtain ⟨steps, entries, rfl, hr, hk⟩ := h
  exact ⟨steps, entries, rfl, .tagged hr, hk⟩

theorem exists_of_mem_keysMetInItems {q : Position} {k : Value} {p : Option Position}
    {items : List Value} {i : Nat} (h : (some q, k) ∈ keysMetInItems p i items) :
    ∃ (j : Nat) (v : Value), items[j]? = some v ∧
      (some q, k) ∈ v.keysMet (p.map (·.index (i + j))) := by
  induction items generalizing i with
  | nil => cases h
  | cons v rest ih =>
      rw [keysMetInItems] at h
      rcases List.mem_append.mp h with h | h
      · exact ⟨0, v, rfl, h⟩
      · obtain ⟨j, u, hu, hm⟩ := ih h
        exact ⟨j + 1, u, hu, by rwa [Nat.add_assoc, Nat.add_comm 1 j] at hm⟩

theorem exists_of_mem_keysMetInEntries {q : Position} {k : Value} {p : Option Position}
    {entries : List (Value × Value)} (h : (some q, k) ∈ keysMetInEntries p entries) :
    p = some q ∧ k ∈ entries.map Prod.fst ∨
      ∃ e ∈ entries, (some q, k) ∈ e.2.keysMet (p.bind fun p => e.1.keyText?.map p.key) := by
  induction entries with
  | nil => cases h
  | cons e rest ih =>
      obtain ⟨key, v⟩ := e
      rw [keysMetInEntries, List.cons_append] at h
      rcases List.mem_cons.mp h with h | h
      · cases h
        exact .inl ⟨rfl, by simp⟩
      · rcases List.mem_append.mp h with h | h
        · exact .inr ⟨_, List.mem_cons_self, h⟩
        · rcases ih h with ⟨hp, hk⟩ | ⟨e, he, hm⟩
          · exact .inl ⟨hp, List.mem_cons_of_mem _ hk⟩
          · exact .inr ⟨e, List.mem_cons_of_mem _ he, hm⟩

/-- Where there is no position, none is found further down. -/
theorem position_of_mem_keysMet {q : Position} {k : Value} (v : Value) :
    ∀ p : Option Position, (some q, k) ∈ v.keysMet p → p ≠ none := by
  induction v using induction with
  | step v ih =>
      rintro p h rfl
      cases v with
      | sequence items =>
          rw [keysMet] at h
          obtain ⟨j, v, hv, hm⟩ := exists_of_mem_keysMetInItems h
          exact ih v (List.mem_of_getElem? hv) _ hm rfl
      | mapping entries =>
          rw [keysMet] at h
          rcases exists_of_mem_keysMetInEntries h with ⟨hp, -⟩ | ⟨e, he, hm⟩
          · cases hp
          · exact ih e.2 (List.mem_map_of_mem he) _ hm rfl
      | tagged tag v =>
          rw [keysMet] at h
          exact ih v List.mem_cons_self _ h rfl
      | null => cases h
      | bool b => cases h
      | number n => cases h
      | string s => cases h

/-- **The position that comes with a key leads to its mapping.** -/
theorem holds_of_mem_keysMet {q : Position} {k : Value} (v : Value) :
    ∀ p : Position, (some q, k) ∈ v.keysMet (some p) → v.Holds k p q := by
  induction v using induction with
  | step v ih =>
      intro p h
      cases v with
      | sequence items =>
          rw [keysMet] at h
          obtain ⟨j, v, hv, hm⟩ := exists_of_mem_keysMetInItems h
          rw [Nat.zero_add] at hm
          exact (ih v (List.mem_of_getElem? hv) _ hm).index hv
      | mapping entries =>
          rw [keysMet] at h
          rcases exists_of_mem_keysMetInEntries h with ⟨hp, hk⟩ | ⟨e, he, hm⟩
          · obtain rfl := Option.some.inj hp
            exact ⟨[], entries, by simp, .here, hk⟩
          · cases ht : e.1.keyText? with
            | none =>
                rw [ht] at hm
                exact absurd rfl (position_of_mem_keysMet e.2 _ hm)
            | some key =>
                rw [ht] at hm
                exact (ih e.2 (List.mem_map_of_mem he) _ hm).key he ht
      | tagged tag v =>
          rw [keysMet] at h
          exact (ih v List.mem_cons_self p h).tagged
      | null => cases h
      | bool b => cases h
      | number n => cases h
      | string s => cases h

end Yaml.Value

/-! ### Where a conversion stops -/

/-- The fault for the first key without a text, if there is one with a position. -/
def Fault.Stops (keys : List (Option Position × Yaml.Value)) (f : Fault) : Prop :=
  ∃ before q k after, keys = before ++ (some q, k) :: after ∧ (∀ e ∈ before, ¬ e.2.Unusable) ∧
    k.Unusable ∧ f = .unusableKey q.display

/-- A conversion that meets some keys succeeds if all of them have texts, and stops at the first one
that has none. -/
def Value.StopsAt {α : Type} (keys : List (Option Position × Yaml.Value)) : Except Fault α → Prop
  | .ok _ => ∀ e ∈ keys, ¬ e.2.Unusable
  | .error f => f.Stops keys

theorem Fault.Stops.append {keys : List (Option Position × Yaml.Value)} {f : Fault}
    (h : f.Stops keys) (keys' : List (Option Position × Yaml.Value)) : f.Stops (keys ++ keys') := by
  obtain ⟨before, q, k, after, rfl, hb, hk, hf⟩ := h
  exact ⟨before, q, k, after ++ keys', by simp, hb, hk, hf⟩

theorem Fault.Stops.behind {keys keys' : List (Option Position × Yaml.Value)} {f : Fault}
    (h : f.Stops keys') (hu : ∀ e ∈ keys, ¬ e.2.Unusable) : f.Stops (keys ++ keys') := by
  obtain ⟨before, q, k, after, rfl, hb, hk, hf⟩ := h
  refine ⟨keys ++ before, q, k, after, by simp, fun e he => ?_, hk, hf⟩
  rcases List.mem_append.mp he with he | he
  · exact hu e he
  · exact hb e he

theorem Fault.Stops.exists_unusable {keys : List (Option Position × Yaml.Value)} {f : Fault}
    (h : f.Stops keys) : ∃ e ∈ keys, e.2.Unusable := by
  obtain ⟨before, q, k, after, rfl, -, hk, -⟩ := h
  exact ⟨_, List.mem_append_right _ List.mem_cons_self, hk⟩

/-- There is one first key. -/
theorem Fault.Stops.unique {keys : List (Option Position × Yaml.Value)} {f f' : Fault}
    (h : f.Stops keys) (h' : f'.Stops keys) : f = f' := by
  obtain ⟨before, q, k, after, rfl, hb, hk, rfl⟩ := h
  obtain ⟨before', q', k', after', he, hb', hk', rfl⟩ := h'
  rcases List.append_eq_append_iff.mp he with ⟨as, rfl, has⟩ | ⟨as, rfl, has⟩
  · cases as with
    | nil =>
        cases has
        rfl
    | cons e as =>
        cases has
        exact absurd hk (hb' (some q, k) (by simp))
  · cases as with
    | nil =>
        cases has
        rfl
    | cons e as =>
        cases has
        exact absurd hk' (hb (some q', k') (by simp))

namespace Value

variable {α β : Type} {keys keys' : List (Option Position × Yaml.Value)}

theorem StopsAt.bind {r : Except Fault α} {g : α → Except Fault β} (h : StopsAt keys r)
    (hg : ∀ a, r = .ok a → StopsAt keys' (g a)) : StopsAt (keys ++ keys') (r >>= g) := by
  cases r with
  | error f => exact h.append keys'
  | ok a =>
      show StopsAt (keys ++ keys') (g a)
      have ha := hg a rfl
      cases hr : g a with
      | error f =>
          rw [hr] at ha
          exact ha.behind h
      | ok b =>
          rw [hr] at ha
          exact fun e he => (List.mem_append.mp he).elim (h e) (ha e)

theorem StopsAt.cons {e : Option Position × Yaml.Value} {r : Except Fault α} (hu : ¬ e.2.Unusable)
    (h : StopsAt keys r) : StopsAt (e :: keys) r := by
  cases r with
  | error f =>
      have hb : ∀ e' ∈ [e], ¬ e'.2.Unusable := fun e' he => List.mem_singleton.mp he ▸ hu
      exact h.behind hb
  | ok a => exact List.forall_mem_cons.mpr ⟨hu, h⟩

theorem StopsAt.map {r : Except Fault α} (h : StopsAt keys r) (g : α → β) :
    StopsAt keys (r >>= fun a => .ok (g a)) := by
  cases r <;> exact h

theorem stopsAt_ofYamlItems {items : List Yaml.Value}
    (h : ∀ v ∈ items, ∀ p, StopsAt (v.keysMet (some p)) (ofYaml p v)) (p : Position) (i : Nat) :
    StopsAt (Yaml.Value.keysMetInItems (some p) i items) (ofYamlItems p i items) := by
  induction items generalizing i with
  | nil =>
      rw [ofYamlItems]
      exact fun e he => by cases he
  | cons v rest ih =>
      obtain ⟨hv, hr⟩ := List.forall_mem_cons.mp h
      rw [ofYamlItems, Yaml.Value.keysMetInItems]
      exact (hv (p.index i)).bind fun w _ => (ih hr (i + 1)).map _

theorem stopsAt_ofYamlEntries {entries : List (Yaml.Value × Yaml.Value)}
    (h : ∀ e ∈ entries, ∀ p, StopsAt (e.2.keysMet (some p)) (ofYaml p e.2)) (p : Position)
    (m : Fields Value) :
    StopsAt (Yaml.Value.keysMetInEntries (some p) entries) (ofYamlEntries p entries m) := by
  induction entries generalizing m with
  | nil =>
      rw [ofYamlEntries]
      exact fun e he => by cases he
  | cons e rest ih =>
      obtain ⟨k, v⟩ := e
      obtain ⟨hv, hr⟩ := List.forall_mem_cons.mp h
      rw [ofYamlEntries, Yaml.Value.keysMetInEntries, List.cons_append]
      split
      · next hk =>
          -- the key comes before its own value, so nothing of the mapping is looked at behind it
          exact ⟨[], p, k, _, rfl, by simp, (Yaml.Value.keyText?_eq_none_iff k).mp hk, rfl⟩
      · next key hk =>
          have hu : ¬ k.Unusable := Yaml.Value.not_unusable_of_keyText? hk
          rw [hk]
          exact .cons (e := (some p, k)) hu
            ((hv (p.key key)).bind fun w _ => ih hr (m.insert key w))

/-- **A conversion stops at the first key without a text.** -/
theorem stopsAt_ofYaml (v : Yaml.Value) :
    ∀ p : Position, StopsAt (v.keysMet (some p)) (ofYaml p v) := by
  induction v using Yaml.Value.induction with
  | step v ih =>
      intro p
      cases v with
      | sequence items =>
          have hi : ∀ v ∈ items, ∀ p, StopsAt (v.keysMet (some p)) (ofYaml p v) := ih
          rw [ofYaml, Yaml.Value.keysMet]
          exact (stopsAt_ofYamlItems hi p 0).map _
      | mapping entries =>
          rw [ofYaml, Yaml.Value.keysMet]
          exact (stopsAt_ofYamlEntries (fun e he => ih e.2 (List.mem_map_of_mem he)) p _).map _
      | tagged tag v =>
          rw [ofYaml, Yaml.Value.keysMet]
          exact ih v List.mem_cons_self p
      | null => exact fun e he => by cases he
      | bool b => exact fun e he => by cases he
      | number n => exact fun e he => by cases he
      | string s => exact fun e he => by cases he

/-- The fault of a conversion is the one for the first key without a text. -/
theorem ofYaml_eq_error_iff {p : Position} {v : Yaml.Value} {f : Fault} :
    ofYaml p v = .error f ↔ f.Stops (v.keysMet (some p)) := by
  have h := stopsAt_ofYaml v p
  constructor
  · intro he
    rwa [he] at h
  · intro hs
    cases hr : ofYaml p v with
    | error f' =>
        rw [hr] at h
        rw [hs.unique h]
    | ok w =>
        rw [hr] at h
        obtain ⟨e, he, hu⟩ := hs.exists_unusable
        exact absurd hu (h e he)

end Value

/-! ### Tags -/

namespace Yaml.Value

mutual

/-- A value without its tags, and without those of its keys and of all values in it. -/
def bare : Value → Value
  | .null => .null
  | .bool b => .bool b
  | .number n => .number n
  | .string s => .string s
  | .sequence items => .sequence (bareItems items)
  | .mapping entries => .mapping (bareEntries entries)
  | .tagged _ v => v.bare

/-- The items of a sequence without their tags. -/
def bareItems : List Value → List Value
  | [] => []
  | v :: rest => v.bare :: bareItems rest

/-- The entries of a mapping without the tags of their keys and values. -/
def bareEntries : List (Value × Value) → List (Value × Value)
  | [] => []
  | (k, v) :: rest => (k.bare, v.bare) :: bareEntries rest

end

/-- The text of a key does not depend on its tags. -/
theorem keyText?_bare (k : Value) : k.bare.keyText? = k.keyText? := by
  induction k using induction with
  | step k ih =>
      cases k with
      | tagged tag v => exact ih v List.mem_cons_self
      | _ => rfl

end Yaml.Value

namespace Value

theorem ofYamlItems_bare {items : List Yaml.Value}
    (h : ∀ v ∈ items, ∀ p, ofYaml p v.bare = ofYaml p v) (p : Position) (i : Nat) :
    ofYamlItems p i (Yaml.Value.bareItems items) = ofYamlItems p i items := by
  induction items generalizing i with
  | nil => rfl
  | cons v rest ih =>
      obtain ⟨hv, hr⟩ := List.forall_mem_cons.mp h
      simp only [Yaml.Value.bareItems, ofYamlItems, hv, ih hr]

theorem ofYamlEntries_bare {entries : List (Yaml.Value × Yaml.Value)}
    (h : ∀ e ∈ entries, ∀ p, ofYaml p e.2.bare = ofYaml p e.2) (p : Position) (m : Fields Value) :
    ofYamlEntries p (Yaml.Value.bareEntries entries) m = ofYamlEntries p entries m := by
  induction entries generalizing m with
  | nil => rfl
  | cons e rest ih =>
      obtain ⟨k, v⟩ := e
      obtain ⟨hv, hr⟩ := List.forall_mem_cons.mp h
      simp only [Yaml.Value.bareEntries, ofYamlEntries, Yaml.Value.keyText?_bare, hv, ih hr]

/-- **Tags do not count**, neither those of values nor those of keys. -/
theorem ofYaml_bare (v : Yaml.Value) : ∀ p : Position, ofYaml p v.bare = ofYaml p v := by
  induction v using Yaml.Value.induction with
  | step v ih =>
      intro p
      cases v with
      | sequence items =>
          have hi : ∀ v ∈ items, ∀ p, ofYaml p v.bare = ofYaml p v := ih
          simp only [Yaml.Value.bare, ofYaml, ofYamlItems_bare hi]
      | mapping entries =>
          have he : ∀ e ∈ entries, ∀ p, ofYaml p e.2.bare = ofYaml p e.2 :=
            fun e he => ih e.2 (List.mem_map_of_mem he)
          simp only [Yaml.Value.bare, ofYaml, ofYamlEntries_bare he]
      | tagged tag v =>
          rw [Yaml.Value.bare, ofYaml]
          exact ih v List.mem_cons_self p
      | _ => rfl

/-- **When a conversion fails.**

* It fails exactly if some mapping in the value has a key that is null, a sequence or a mapping below
  its tags.
* Then the fault names the position of the mapping that has the first such key, of all keys from left
  to right and each just before its own value.
* The positions of keys lead to their mappings.
* What a value is converted to does not change if all tags are taken away. -/
theorem ofYaml_unusable (p : Position) (v : Yaml.Value) :
    ((∃ f, ofYaml p v = .error f) ↔ ∃ entries, (Yaml.Value.mapping entries).PartOf v ∧
      ∃ e ∈ entries, e.1.Unusable) ∧
    (∀ f, ofYaml p v = .error f ↔ ∃ before q k after,
      v.keysMet (some p) = before ++ (some q, k) :: after ∧ (∀ e ∈ before, ¬ e.2.Unusable) ∧
      k.Unusable ∧ f = .unusableKey q.display) ∧
    (∀ q k, (some q, k) ∈ v.keysMet (some p) → ∃ steps entries, q = ⟨p.steps ++ steps⟩ ∧
      (Yaml.Value.mapping entries).Reaches steps v ∧ k ∈ entries.map Prod.fst) ∧
    ∀ w, ofYaml p v = .ok w → ofYaml p v.bare = .ok w := by
  refine ⟨?_, fun f => ofYaml_eq_error_iff, fun q k => Yaml.Value.holds_of_mem_keysMet v p, ?_⟩
  · have h := stopsAt_ofYaml v p
    constructor
    · rintro ⟨f, hf⟩
      obtain ⟨e, he, hu⟩ := (ofYaml_eq_error_iff.mp hf).exists_unusable
      obtain ⟨entries, hp, hk⟩ := (Yaml.Value.mem_keysMet e.2 v _).mp (List.mem_map_of_mem he)
      obtain ⟨e', he', heq⟩ := List.mem_map.mp hk
      exact ⟨entries, hp, e', he', heq ▸ hu⟩
    · rintro ⟨entries, hp, e, he, hu⟩
      cases hr : ofYaml p v with
      | error f => exact ⟨f, rfl⟩
      | ok w =>
          have hk := (Yaml.Value.mem_keysMet e.1 v (some p)).mpr
            ⟨entries, hp, List.mem_map_of_mem he⟩
          obtain ⟨e', he', heq⟩ := List.mem_map.mp hk
          rw [hr] at h
          exact absurd (heq ▸ hu) (h e' he')
  · intro w hw
    rw [ofYaml_bare, hw]

/-- The value of a key is looked at before the next key of its mapping, and below its tags. -/
example : ofYaml .root (.mapping [(.string "items", .sequence [.null, .tagged .empty
      (.mapping [(.string "id", .mapping [(.null, .null)]), (.sequence [], .null)])])]) =
    .error (.unusableKey "items[1].id") := rfl

end Value
end CommandMenu
