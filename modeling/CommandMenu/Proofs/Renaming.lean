import CommandMenu.Proofs.Lookup

/-! # Renaming without a loss

A field goes on under its canonical name if it has its older name and the canonical one is free.
That is all that happens to the fields of a map.

* `Alias.entries_apply` says what becomes of a map when one field is renamed, and
  `Alias.entries_foldl_apply` what becomes of it when those of a table are, one after the other: the
  entries that keep their names stay in front, and the renamed ones stand behind them.
* `Fields.keepsName` tells the entries that keep their names, and `Fields.get?_canonical_eq_some_iff`
  says where the value of a field comes from.
* `Fields.Renamed` is what a map owes to the one that it was renamed from, and
  `Fields.canonical_lossless` says that it is so of every map. -/

namespace CommandMenu

variable {α : Type}

namespace Fields

theorem drop_eq_filter {key : String} {es : List (String × α)} (hn : (es.map Prod.fst).Nodup) :
    drop key es = es.filter fun e => e.1 != key := by
  induction es with
  | nil => rfl
  | cons e rest ih =>
      obtain ⟨k, v⟩ := e
      obtain ⟨hnot, hrest⟩ := List.nodup_cons.mp hn
      rw [drop, List.filter_cons]
      by_cases hk : k = key
      · have hall : ∀ e ∈ rest, (e.1 != key) = true := fun e he =>
          bne_iff_ne.mpr fun hek => hnot (List.mem_map.mpr ⟨e, he, hek.trans hk.symm⟩)
        rw [if_pos hk, if_neg (by simp [hk]), List.filter_eq_self.mpr hall]
      · rw [if_neg hk, if_pos (bne_iff_ne.mpr hk), ih hrest]

end Fields

/-! ### One field -/

namespace Alias

variable {a b : Alias} {m : Fields α}

/-- Whether the entry with a key keeps its name when the field is renamed. -/
def keepsName (a : Alias) (m : Fields α) (key : String) : Bool := key != a.old || m.has a.canonical

/-- The entry that goes on under the canonical name, as it is then. -/
def renamed? (a : Alias) (m : Fields α) : Option (String × α) :=
  (a.moved? m).map fun v => (a.canonical, v)

theorem renamed?_eq_some_iff {e : String × α} :
    a.renamed? m = some e ↔ a.canonical = e.1 ∧ a.moved? m = some e.2 := by
  obtain ⟨key, v⟩ := e
  rw [renamed?, Option.map_eq_some_iff]
  constructor
  · rintro ⟨w, hw, ⟨⟩⟩
    exact ⟨rfl, hw⟩
  · rintro ⟨rfl, hv⟩
    exact ⟨v, hv, rfl⟩

theorem nodup_apply (hn : m.keys.Nodup) : (a.apply m).keys.Nodup := by
  rcases a.apply_cases m with ⟨-, h⟩ | ⟨v, hv, -⟩
  · rwa [h]
  · have hfree : a.canonical ∉ m.keys := by
      rw [Fields.mem_keys_iff, Fields.has_eq_false_iff.mp (moved?_eq_some_iff.mp hv).1]
      exact nofun
    rw [Fields.keys, entries_apply_of_moved? hv, List.map_append, Fields.map_fst_drop]
    refine (hn.erase a.old).append (List.nodup_singleton _) ?_
    exact List.disjoint_singleton.mpr (mt List.mem_of_mem_erase hfree)

theorem keepsName_of_settled (h : a.Settled m) {e : String × α} (he : e ∈ m.entries) :
    a.keepsName m e.1 = true := by
  rcases h with hc | ho
  · rw [keepsName, hc, Bool.or_true]
  · have hne : e.1 ≠ a.old := fun hold => by
      obtain ⟨v, hv⟩ := Fields.mem_keys_iff.mp (List.mem_map.mpr ⟨e, he, hold⟩)
      rw [ho] at hv
      cases hv
    rw [keepsName, bne_iff_ne.mpr hne, Bool.true_or]

theorem keepsName_of_moved? {v : α} (h : a.moved? m = some v) (key : String) :
    a.keepsName m key = (key != a.old) := by
  rw [keepsName, (moved?_eq_some_iff.mp h).1, Bool.or_false]

/-- **Renaming one field** leaves the entries that keep their names where they are, and puts the one
that does not behind them. -/
theorem entries_apply (hn : m.keys.Nodup) :
    (a.apply m).entries = (m.entries.filter fun e => a.keepsName m e.1) ++ (a.renamed? m).toList := by
  rw [renamed?]
  cases h : a.moved? m with
  | none =>
      have hs := moved?_eq_none_iff.mp h
      rw [apply_of_settled hs, List.filter_eq_self.mpr fun e he => keepsName_of_settled hs he]
      exact (List.append_nil _).symm
  | some v =>
      simp only [keepsName_of_moved? h]
      rw [entries_apply_of_moved? h, Fields.drop_eq_filter hn]
      rfl

/-! ### A table of fields -/

theorem Apart.renamed?_apply (h : a.Apart b) (m : Fields α) :
    b.renamed? (a.apply m) = b.renamed? m := by
  rw [renamed?, renamed?, moved?, moved?, h.has_apply, h.get?_apply m (by simp)]

theorem Apart.keepsName_apply (h : a.Apart b) (m : Fields α) (key : String) :
    b.keepsName (a.apply m) key = b.keepsName m key := by
  rw [keepsName, keepsName, h.has_apply]

/-- **Renaming the fields of a table** that have no names in common leaves the entries that keep their
names where they are, and puts the others behind them in the order of the table. -/
theorem entries_foldl_apply {table : List Alias} (ht : table.Pairwise Apart) (hn : m.keys.Nodup) :
    (table.foldl (fun m a => a.apply m) m).entries =
      (m.entries.filter fun e => table.all fun a => a.keepsName m e.1) ++
        table.filterMap fun a => a.renamed? m := by
  induction table generalizing m with
  | nil => simp
  | cons a rest ih =>
      obtain ⟨ha, hrest⟩ := List.pairwise_cons.mp ht
      have hkeeps : ∀ key, (rest.all fun b => b.keepsName (a.apply m) key) =
          rest.all fun b => b.keepsName m key := by
        intro key
        rw [Bool.eq_iff_iff, List.all_eq_true, List.all_eq_true]
        exact forall₂_congr fun b hb => by rw [(ha b hb).keepsName_apply]
      have hrenamed : (rest.filterMap fun b => b.renamed? (a.apply m)) =
          rest.filterMap fun b => b.renamed? m :=
        List.filterMap_congr fun b hb => (ha b hb).renamed?_apply m
      -- the canonical name of this field is no older name of another one
      have hnew : ∀ e ∈ (a.renamed? m).toList, (rest.all fun b => b.keepsName m e.1) = true := by
        intro e he
        have hname := (renamed?_eq_some_iff.mp (Option.mem_toList.mp he)).1
        refine List.all_eq_true.mpr fun b hb => ?_
        have hne : e.1 ≠ b.old := hname ▸ ha b hb _ (by simp) _ (by simp)
        rw [keepsName, bne_iff_ne.mpr hne, Bool.true_or]
      rw [List.foldl_cons, ih hrest (nodup_apply hn), hrenamed, entries_apply hn]
      simp only [hkeeps]
      rw [List.filter_append, List.filter_filter, List.filter_eq_self.mpr hnew, List.append_assoc,
        List.filterMap_cons]
      simp only [List.all_cons, Bool.and_comm]
      cases a.renamed? m with
      | none => rfl
      | some e => rfl

end Alias

/-! ### All fields with an older name -/

namespace Fields

variable {m : Fields α} {key : String} {v : α}

/-- Whether the entry with a key keeps its name. -/
def keepsName (m : Fields α) (key : String) : Bool := Alias.table.all fun a => a.keepsName m key

theorem nodup_canonical (hn : m.keys.Nodup) : m.canonical.keys.Nodup :=
  List.foldlRecOn (motive := fun n : Fields α => n.keys.Nodup) Alias.table _ hn
    fun _ hn _ _ => Alias.nodup_apply hn

theorem entries_canonical (hn : m.keys.Nodup) :
    m.canonical.entries = (m.entries.filter fun e => m.keepsName e.1) ++
      Alias.table.filterMap fun a => a.renamed? m :=
  Alias.entries_foldl_apply (by decide) hn

/-- The value of a field comes from the entry with its key, if it keeps its name, or else from the
entry that has taken this key. -/
theorem get?_canonical_eq_some_iff (hn : m.keys.Nodup) :
    m.canonical.get? key = some v ↔ m.keepsName key = true ∧ m.get? key = some v ∨
      ∃ a ∈ Alias.table, a.canonical = key ∧ a.moved? m = some v := by
  rw [get?, lookup_eq_some_iff (nodup_canonical hn), entries_canonical hn, List.mem_append,
    List.mem_filter, List.mem_filterMap, ← lookup_eq_some_iff hn, and_comm]
  simp only [Alias.renamed?_eq_some_iff]
  rfl

theorem get?_canonical_old {a : Alias} (ha : a ∈ Alias.table) (hn : m.keys.Nodup) :
    m.canonical.get? a.old = some v ↔ m.get? a.old = some v ∧ m.has a.canonical = true := by
  have hnew : ∀ b ∈ Alias.table, b.canonical ≠ a.old :=
    (show ∀ a ∈ Alias.table, ∀ b ∈ Alias.table, b.canonical ≠ a.old by decide) a ha
  have hkeeps : m.keepsName a.old = m.has a.canonical := by
    simp only [Alias.table, List.mem_cons, List.not_mem_nil, or_false] at ha
    rcases ha with rfl | rfl
    · simp [keepsName, Alias.table, Alias.keepsName]
    · simp [keepsName, Alias.table, Alias.keepsName]
  rw [get?_canonical_eq_some_iff hn, hkeeps, and_comm]
  refine or_iff_left ?_
  rintro ⟨b, hb, hname, -⟩
  exact hnew b hb hname

/-- The second map is the first one under canonical field names. -/
structure Renamed (m n : Fields α) : Prop where
  get?_id : n.get? "id" = (m.get? "id").or (m.get? "command")
  get?_name : n.get? "name" = (m.get? "name").or (m.get? "description")
  get?_command : ∀ v, n.get? "command" = some v ↔ m.get? "command" = some v ∧ m.has "id" = true
  get?_description : ∀ v, n.get? "description" = some v ↔
    m.get? "description" = some v ∧ m.has "name" = true
  get?_other : ∀ key ∉ ["command", "id", "description", "name"], n.get? key = m.get? key
  nodup : n.keys.Nodup
  size : n.size = m.size
  values : (n.entries.map Prod.snd).Perm (m.entries.map Prod.snd)
  /-- The entries that keep their names are in front, in the order in which they were. -/
  order : (m.entries.filter fun e => m.keepsName e.1) <+: n.entries

/-- **Renaming loses nothing, and a second time it does nothing.**

* The fields `id` and `name` have the values that they had, or else those of `command` and
  `description`; these stay where they were not needed, and all other fields stay.
* There are as many entries as before, with the same values, and those that keep their names keep
  their order. -/
theorem canonical_lossless (hn : m.keys.Nodup) :
    Renamed m m.canonical ∧ m.canonical.canonical = m.canonical := by
  refine ⟨?_, m.canonical_canonical⟩
  exact {
    get?_id := m.get?_canonical_id
    get?_name := m.get?_canonical_name
    get?_command := fun v => get?_canonical_old (a := ⟨"command", "id"⟩) (by simp [Alias.table]) hn
    get?_description := fun v =>
      get?_canonical_old (a := ⟨"description", "name"⟩) (by simp [Alias.table]) hn
    get?_other := fun _ hother => m.get?_canonical_of_ne hother
    nodup := nodup_canonical hn
    size := m.size_canonical
    values := m.values_canonical
    order := by
      rw [entries_canonical hn]
      exact List.prefix_append _ _ }

/-- A command that stays, as there is an id, and a description that becomes the name. -/
theorem canonical_lossless_stays :
    ∃ m n : Fields Nat, m.entries = [("command", 1), ("description", 2), ("icon", 3), ("id", 4)] ∧
      n.entries = [("command", 1), ("icon", 3), ("id", 4), ("name", 2)] ∧
      m.keys.Nodup ∧ Renamed m n ∧ n.canonical = n := by
  have hn : (⟨[("command", 1), ("description", 2), ("icon", 3), ("id", 4)]⟩ :
    Fields Nat).keys.Nodup := by decide
  exact ⟨_, _, rfl, by decide, hn, canonical_lossless hn⟩

end Fields
end CommandMenu
