import CommandMenu.Value.Fields

/-! # Older field names

Two fields have an older name.  A field under its older name is moved to the end of the map under
its canonical name, unless the canonical field is there already; then both stay.

* `Alias.table` lists the older names, `Fields.canonical` renames them in one map.
-/

namespace CommandMenu

/-- An older field name with its canonical name. -/
structure Alias where
  old : String
  canonical : String

/-- The fields with an older name. -/
def Alias.table : List Alias := [⟨"command", "id"⟩, ⟨"description", "name"⟩]

variable {α : Type}

/-- Moves one field from its older name to its canonical name, if that name is free. -/
def Alias.apply (a : Alias) (m : Fields α) : Fields α :=
  if m.has a.canonical then m
  else match m.get? a.old with
    | none => m
    | some v => (m.erase a.old).insert a.canonical v

/-- The map with canonical field names wherever they were free. -/
def Fields.canonical (m : Fields α) : Fields α := Alias.table.foldl (fun m a => a.apply m) m

/-! ### Renaming adds no value -/

theorem Alias.mem_of_mem_apply {a : Alias} {m : Fields α} {e : String × α}
    (h : e ∈ (a.apply m).entries) : ∃ k, (k, e.2) ∈ m.entries := by
  unfold Alias.apply at h
  split at h
  · exact ⟨e.1, h⟩
  · split at h
    · exact ⟨e.1, h⟩
    · next v hv =>
      rcases Fields.eq_or_mem_of_mem_place h with he | he
      · exact ⟨a.old, he ▸ Fields.mem_of_lookup hv⟩
      · exact ⟨e.1, Fields.mem_of_mem_drop he⟩

theorem Fields.mem_of_mem_canonical {m : Fields α} {e : String × α}
    (h : e ∈ m.canonical.entries) : ∃ k, (k, e.2) ∈ m.entries := by
  simp only [Fields.canonical, Alias.table, List.foldl] at h
  obtain ⟨k, hk⟩ := Alias.mem_of_mem_apply h
  exact Alias.mem_of_mem_apply (e := (k, e.2)) hk

end CommandMenu
