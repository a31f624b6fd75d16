import CommandMenu.Value.Aliases

/-! # Changing a map

A map is changed in place: a key gets a value, or is taken out, or older field names are replaced.

* `Fields.remove` takes a key out and hands back its value; `Fields.toSingle` turns a map into its
  only entry, if it has exactly one.
* `Fields.Change` is a change, `Fields.change` makes one and `Fields.changes` makes several in a
  row, with the values that are handed back.
-/

namespace CommandMenu
namespace Fields

variable {α : Type}

/-- Takes out the first entry with this key, and hands back its value. -/
def remove (m : Fields α) (key : String) : Option α × Fields α :=
  match m.entries.findIdx? fun e => e.1 == key with
  | none => (none, m)
  | some i => (m.entries[i]?.map Prod.snd, ⟨m.entries.eraseIdx i⟩)

/-- The only entry, if there is exactly one, and else the map. -/
def toSingle (m : Fields α) : Except (Fields α) (String × α) :=
  match m.entries with
  | [e] => .ok e
  | _ => .error m

/-- What can be done to a map. -/
inductive Change (α : Type) where
  | insert (key : String) (value : α)
  | remove (key : String)
  | canonical
deriving Repr

/-- Makes a change.  Only a removal hands something back. -/
def change (m : Fields α) : Change α → Option α × Fields α
  | .insert key value => (none, m.insert key value)
  | .remove key => m.remove key
  | .canonical => (none, m.canonical)

/-- Makes changes in a row. -/
def changes (m : Fields α) : List (Change α) → List (Option α) × Fields α
  | [] => ([], m)
  | c :: rest =>
    let (value, m) := m.change c
    let (values, m) := m.changes rest
    (value :: values, m)

/-! ### Small facts -/

theorem lookup_eq_findIdx? (key : String) (es : List (String × α)) :
    lookup key es =
      (es.findIdx? fun e => e.1 == key).bind fun i => es[i]?.map Prod.snd := by
  induction es with
  | nil => rfl
  | cons e rest ih =>
      obtain ⟨k, v⟩ := e
      by_cases hk : k = key
      · simp [lookup, List.findIdx?_cons, hk]
      · rw [lookup, if_neg hk, ih]
        simp only [List.findIdx?_cons, beq_eq_false_iff_ne.mpr hk, Bool.false_eq_true, if_false,
          Option.bind_map]
        rfl

theorem drop_eq_findIdx? (key : String) (es : List (String × α)) :
    drop key es = ((es.findIdx? fun e => e.1 == key).map es.eraseIdx).getD es := by
  induction es with
  | nil => rfl
  | cons e rest ih =>
      obtain ⟨k, v⟩ := e
      by_cases hk : k = key
      · simp [drop, List.findIdx?_cons, hk]
      · rw [drop, if_neg hk, ih]
        simp only [List.findIdx?_cons, beq_eq_false_iff_ne.mpr hk, Bool.false_eq_true, if_false,
          Option.map_map]
        cases rest.findIdx? fun e => e.1 == key <;> rfl

/-- A removal hands back what a lookup finds, and leaves what the other entries make. -/
theorem remove_eq (m : Fields α) (key : String) : m.remove key = (m.get? key, m.erase key) := by
  rw [remove, get?, erase, lookup_eq_findIdx?, drop_eq_findIdx?]
  cases m.entries.findIdx? fun e => e.1 == key <;> rfl

/-- A map turns into the entry that it has alone. -/
theorem toSingle_eq_ok_iff {m : Fields α} {e : String × α} :
    m.toSingle = .ok e ↔ m.single? = some e := by
  rw [single?_eq_some_iff, toSingle]
  split <;> simp_all

theorem toSingle_eq_error_iff {m m' : Fields α} :
    m.toSingle = .error m' ↔ m' = m ∧ m.single? = none := by
  rw [single?_eq_none_iff, toSingle]
  split
  · next he => simp [he]
  · next hne =>
      have hlength : m.entries.length ≠ 1 := fun hl => by
        obtain ⟨e, he⟩ := List.length_eq_one_iff.mp hl
        exact hne e he
      simp [hlength, eq_comm]

end Fields
end CommandMenu
