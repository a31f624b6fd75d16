/-! # Fields in order of insertion

A finite map from texts to values that remembers the order in which its keys came in.  A key that
is inserted again keeps its place; a key that was removed and comes back goes to the end.

* `Fields.get?`, `Fields.has` look a key up, `Fields.insert` and `Fields.erase` change one key.
* `Fields.ofEntries` inserts entries one by one.
* `Fields.single?` is the only entry of a map that has exactly one.
* `Fields.keys` are the keys in order; `insert` and `erase` keep them distinct.
-/

namespace CommandMenu

/-- A map with text keys, as the list of its entries in order of insertion. -/
structure Fields (α : Type) where
  entries : List (String × α)
deriving Repr, BEq, DecidableEq

namespace Fields

variable {α : Type}

/-- The map without entries. -/
def empty : Fields α := ⟨[]⟩

instance : Inhabited (Fields α) := ⟨empty⟩

/-- The keys in order. -/
def keys (m : Fields α) : List String := m.entries.map (·.1)

/-- The number of entries. -/
def size (m : Fields α) : Nat := m.entries.length

/-- The value of the first entry with this key. -/
def lookup (key : String) : List (String × α) → Option α
  | [] => none
  | (k, v) :: rest => if k = key then some v else lookup key rest

/-- Puts the value at the first entry with this key, or behind all entries. -/
def place (key : String) (value : α) : List (String × α) → List (String × α)
  | [] => [(key, value)]
  | (k, v) :: rest => if k = key then (k, value) :: rest else (k, v) :: place key value rest

/-- Drops the first entry with this key. -/
def drop (key : String) : List (String × α) → List (String × α)
  | [] => []
  | (k, v) :: rest => if k = key then rest else (k, v) :: drop key rest

/-- The value of a key. -/
def get? (m : Fields α) (key : String) : Option α := lookup key m.entries

/-- Whether the key is present, whatever its value. -/
def has (m : Fields α) (key : String) : Bool := (m.get? key).isSome

/-- Sets the value of a key; a key that is present keeps its place. -/
def insert (m : Fields α) (key : String) (value : α) : Fields α := ⟨place key value m.entries⟩

/-- Removes a key; the entries behind it move up. -/
def erase (m : Fields α) (key : String) : Fields α := ⟨drop key m.entries⟩

/-- Inserts entries one by one, so that the last value of a repeated key counts and its first
place. -/
def ofEntries (es : List (String × α)) : Fields α :=
  es.foldl (fun m e => m.insert e.1 e.2) empty

/-- The only entry, if there is exactly one. -/
def single? (m : Fields α) : Option (String × α) :=
  match m.entries with
  | [e] => some e
  | _ => none

/-! ### Small facts -/

theorem mem_of_lookup {key : String} {v : α} :
    ∀ {es : List (String × α)}, lookup key es = some v → (key, v) ∈ es
  | [], h => by simp [lookup] at h
  | (k, w) :: rest, h => by
    by_cases hk : k = key
    · simp only [lookup, hk, if_true, Option.some.injEq] at h
      simp [hk, h]
    · simp only [lookup, hk, if_false] at h
      exact List.mem_cons_of_mem _ (mem_of_lookup h)

theorem mem_of_mem_drop {key : String} {e : String × α} :
    ∀ {es : List (String × α)}, e ∈ drop key es → e ∈ es
  | [], h => h
  | (k, w) :: rest, h => by
    by_cases hk : k = key
    · simp only [drop, hk, if_true] at h
      exact List.mem_cons_of_mem _ h
    · simp only [drop, hk, if_false, List.mem_cons] at h
      rcases h with h | h
      · simp [h]
      · exact List.mem_cons_of_mem _ (mem_of_mem_drop h)

theorem eq_or_mem_of_mem_place {key : String} {value : α} {e : String × α} :
    ∀ {es : List (String × α)}, e ∈ place key value es → e.2 = value ∨ e ∈ es
  | [], h => by simp only [place, List.mem_singleton] at h; simp [h]
  | (k, w) :: rest, h => by
    by_cases hk : k = key
    · simp only [place, hk, if_true, List.mem_cons] at h
      rcases h with h | h
      · simp [h]
      · exact Or.inr (List.mem_cons_of_mem _ h)
    · simp only [place, hk, if_false, List.mem_cons] at h
      rcases h with h | h
      · simp [h]
      · exact (eq_or_mem_of_mem_place h).imp_right (List.mem_cons_of_mem _)

theorem has_iff {m : Fields α} {key : String} : m.has key = true ↔ ∃ v, m.get? key = some v :=
  Option.isSome_iff_exists

theorem has_eq_false_iff {m : Fields α} {key : String} : m.has key = false ↔ m.get? key = none := by
  simp [has]

theorem single?_eq_some_iff {m : Fields α} {e : String × α} :
    m.single? = some e ↔ m.entries = [e] := by
  unfold single?
  split <;> simp_all

theorem single?_eq_none_iff {m : Fields α} : m.single? = none ↔ m.entries.length ≠ 1 := by
  unfold single?
  split
  · next he => simp [he]
  · next he =>
      refine iff_of_true rfl fun hl => ?_
      obtain ⟨e, he'⟩ := List.length_eq_one_iff.mp hl
      exact he e he'

theorem mem_of_single? {m : Fields α} {e : String × α} (h : m.single? = some e) :
    e ∈ m.entries := by
  simp [single?_eq_some_iff.mp h]

theorem lookup_place (key key' : String) (value : α) : ∀ es : List (String × α),
    lookup key' (place key value es) = if key = key' then some value else lookup key' es
  | [] => rfl
  | (k, w) :: rest => by
    have ih := lookup_place key key' value rest
    by_cases hk : k = key
    · subst hk
      simp only [place, lookup, if_true]
      split <;> rfl
    · by_cases hk' : k = key'
      · subst hk'
        simp [place, lookup, hk, Ne.symm hk]
      · simp [place, lookup, hk, hk', ih]

/-- An inserted key has its value, and the other keys keep theirs. -/
theorem get?_insert (m : Fields α) (key key' : String) (value : α) :
    (m.insert key value).get? key' = if key = key' then some value else m.get? key' :=
  lookup_place key key' value m.entries

theorem lookup_drop_of_ne {key key' : String} (h : key ≠ key') :
    ∀ es : List (String × α), lookup key' (drop key es) = lookup key' es
  | [] => rfl
  | (k, w) :: rest => by
    by_cases hk : k = key
    · subst hk
      simp [drop, lookup, h]
    · simp only [drop, hk, if_false, lookup, lookup_drop_of_ne h rest]

/-- Removing a key leaves the other keys alone. -/
theorem get?_erase_of_ne {key key' : String} (h : key ≠ key') (m : Fields α) :
    (m.erase key).get? key' = m.get? key' :=
  lookup_drop_of_ne h m.entries

theorem lookup_eq_none {key : String} {es : List (String × α)} (h : key ∉ es.map Prod.fst) :
    lookup key es = none := by
  induction es with
  | nil => rfl
  | cons e rest ih =>
      obtain ⟨k, v⟩ := e
      simp only [List.map_cons, List.mem_cons, not_or] at h
      rw [lookup, if_neg (Ne.symm h.1), ih h.2]

theorem place_of_not_mem {key : String} {value : α} {es : List (String × α)}
    (h : key ∉ es.map Prod.fst) : place key value es = es ++ [(key, value)] := by
  induction es with
  | nil => rfl
  | cons e rest ih =>
      obtain ⟨k, v⟩ := e
      simp only [List.map_cons, List.mem_cons, not_or] at h
      rw [place, if_neg (Ne.symm h.1), ih h.2, List.cons_append]

/-- Entries with distinct keys that no key so far clashes with go behind the others. -/
theorem foldl_insert_of_nodup (before : List (String × α)) {es : List (String × α)}
    (hn : ((before ++ es).map Prod.fst).Nodup) :
    es.foldl (fun m e => m.insert e.1 e.2) (⟨before⟩ : Fields α) = ⟨before ++ es⟩ := by
  induction es generalizing before with
  | nil => simp
  | cons e rest ih =>
      have hk : e.1 ∉ before.map Prod.fst := by
        rw [List.map_append, List.nodup_append] at hn
        exact fun hm => hn.2.2 _ hm _ (by simp) rfl
      have hb : before ++ e :: rest = before ++ [e] ++ rest := by simp
      rw [List.foldl_cons, insert, place_of_not_mem hk, hb, ih _ (by rwa [← hb])]

/-- Entries with distinct keys are taken as they are. -/
theorem ofEntries_of_nodup {es : List (String × α)} (h : (es.map Prod.fst).Nodup) :
    ofEntries es = ⟨es⟩ :=
  foldl_insert_of_nodup [] h

end Fields
end CommandMenu
