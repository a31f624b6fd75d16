import CommandMenu.Proofs.Canonical
import Mathlib.Data.List.Forall2
import Mathlib.Data.List.Nodup
import Mathlib.Data.Option.Basic

/-! # Looking up fields

What a field is found to be does not depend on where it stands.

* `Fields.rel_lookup_of_perm` compares the lookups in two lists of entries whose values correspond
  up to order; `Fields.lookup_filter` passes over entries with other keys.
* `Fields.get?_canonical_id` and the like look up a field under its canonical name.
* `Alias.moved?` is a value that goes on under another name, and `Fields.values_canonical` says that
  no value is lost by that. -/

namespace CommandMenu

variable {α β : Type}

namespace Fields

/-! ### Entries in another order, and fewer of them -/

theorem lookup_of_mem {key : String} {v : α} {es : List (String × α)} (hn : (es.map Prod.fst).Nodup)
    (h : (key, v) ∈ es) : lookup key es = some v := by
  induction es with
  | nil => cases h
  | cons e rest ih =>
      obtain ⟨k, w⟩ := e
      rw [List.map_cons, List.nodup_cons] at hn
      rcases List.mem_cons.mp h with h | h
      · cases h
        rw [lookup, if_pos rfl]
      · have hm : key ∈ rest.map Prod.fst := List.mem_map_of_mem (f := Prod.fst) h
        have hk : k ≠ key := fun hk => hn.1 (hk ▸ hm)
        rw [lookup, if_neg hk]
        exact ih hn.2 h

theorem lookup_eq_some_iff {key : String} {v : α} {es : List (String × α)}
    (hn : (es.map Prod.fst).Nodup) : lookup key es = some v ↔ (key, v) ∈ es :=
  ⟨mem_of_lookup, lookup_of_mem hn⟩

theorem lookup_perm {es es' : List (String × α)} (hn : (es'.map Prod.fst).Nodup)
    (hp : es.Perm es') (key : String) : lookup key es = lookup key es' := by
  have hn' : (es.map Prod.fst).Nodup := (hp.map Prod.fst).nodup_iff.mpr hn
  refine Option.ext fun v => ?_
  rw [lookup_eq_some_iff hn', lookup_eq_some_iff hn]
  exact hp.mem_iff

/-- Entries with the same keys in the same order, whose values correspond, have corresponding
lookups. -/
theorem rel_lookup {R : α → β → Prop} {es : List (String × α)} {fs : List (String × β)}
    (hk : es.map Prod.fst = fs.map Prod.fst)
    (hv : List.Forall₂ R (es.map Prod.snd) (fs.map Prod.snd)) (key : String) :
    Option.Rel R (lookup key es) (lookup key fs) := by
  induction es generalizing fs with
  | nil =>
      cases fs with
      | nil => exact .none
      | cons f fs => cases hv
  | cons e es ih =>
      cases fs with
      | nil => cases hv
      | cons f fs =>
          obtain ⟨k, v⟩ := e
          obtain ⟨l, w⟩ := f
          rw [List.map_cons, List.map_cons] at hk hv
          obtain ⟨hkl, hrest⟩ := List.cons.inj hk
          obtain ⟨hvw, hvs⟩ := List.forall₂_cons.mp hv
          obtain rfl : k = l := hkl
          rw [lookup, lookup]
          split
          · exact .some hvw
          · exact ih hrest hvs

theorem rel_lookup_of_perm {R : α → β → Prop} {es es' : List (String × α)} {fs : List (String × β)}
    (hn : (es.map Prod.fst).Nodup) (hp : es'.Perm es) (hk : es'.map Prod.fst = fs.map Prod.fst)
    (hv : List.Forall₂ R (es'.map Prod.snd) (fs.map Prod.snd)) (key : String) :
    Option.Rel R (lookup key es) (lookup key fs) := by
  rw [← lookup_perm hn hp]
  exact rel_lookup hk hv key

/-- Entries with other keys do not matter. -/
theorem lookup_filter {keep : String → Bool} {key : String} (hk : keep key = true)
    (es : List (String × α)) : lookup key (es.filter fun e => keep e.1) = lookup key es := by
  induction es with
  | nil => rfl
  | cons e rest ih =>
      obtain ⟨k, v⟩ := e
      rw [List.filter_cons]
      by_cases hkey : k = key
      · subst hkey
        rw [if_pos hk, lookup, lookup, if_pos rfl, if_pos rfl]
      · rw [lookup, if_neg hkey]
        split
        · rw [lookup, if_neg hkey, ih]
        · exact ih

/-! ### Keys -/

theorem map_fst_place (key : String) (v : α) (es : List (String × α)) :
    (place key v es).map Prod.fst =
      if key ∈ es.map Prod.fst then es.map Prod.fst else es.map Prod.fst ++ [key] := by
  induction es with
  | nil => rfl
  | cons e rest ih =>
      obtain ⟨k, w⟩ := e
      by_cases hk : k = key
      · simp [place, hk]
      · rw [place, if_neg hk, List.map_cons, ih, List.map_cons]
        by_cases hr : key ∈ rest.map Prod.fst
        · rw [if_pos hr, if_pos (List.mem_cons_of_mem _ hr)]
        · rw [if_neg hr, if_neg, List.cons_append]
          exact fun h => (List.mem_cons.mp h).elim (fun he => hk he.symm) hr

/-- A key that is inserted goes behind the others, unless it is there. -/
theorem keys_insert (m : Fields α) (key : String) (v : α) :
    (m.insert key v).keys = if key ∈ m.keys then m.keys else m.keys ++ [key] :=
  map_fst_place key v m.entries

theorem map_fst_drop (key : String) (es : List (String × α)) :
    (drop key es).map Prod.fst = (es.map Prod.fst).erase key := by
  induction es with
  | nil => rfl
  | cons e rest ih =>
      obtain ⟨k, v⟩ := e
      by_cases hk : k = key
      · rw [drop, if_pos hk, List.map_cons, hk, List.erase_cons_head]
      · rw [drop, if_neg hk, List.map_cons, List.map_cons, ih,
          List.erase_cons_tail (by simpa using hk)]

theorem keys_erase (m : Fields α) (key : String) : (m.erase key).keys = m.keys.erase key :=
  map_fst_drop key m.entries

theorem mem_map_fst_iff {key : String} {es : List (String × α)} :
    key ∈ es.map Prod.fst ↔ ∃ v, lookup key es = some v := by
  induction es with
  | nil => simp [lookup]
  | cons e rest ih =>
      obtain ⟨k, v⟩ := e
      by_cases hk : k = key
      · simp [lookup, hk]
      · rw [List.map_cons, List.mem_cons, ih, lookup, if_neg hk]
        exact or_iff_right (Ne.symm hk)

theorem mem_keys_iff {m : Fields α} {key : String} : key ∈ m.keys ↔ ∃ v, m.get? key = some v :=
  mem_map_fst_iff

end Fields

/-! ### Fields under their canonical names -/

/-- The canonical name finds what it has found before, or else what the older name has. -/
theorem Alias.get?_apply_canonical (a : Alias) (m : Fields α) :
    (a.apply m).get? a.canonical = (m.get? a.canonical).or (m.get? a.old) := by
  rcases a.apply_cases m with ⟨hs, h⟩ | ⟨v, hv, h⟩
  · rw [h]
    rcases hs with hc | ho
    · obtain ⟨w, hw⟩ := Fields.has_iff.mp hc
      rw [hw, Option.some_or]
    · rw [ho, Option.or_none]
  · obtain ⟨hc, ho⟩ := moved?_eq_some_iff.mp hv
    rw [h, Fields.get?_insert, if_pos rfl, Fields.has_eq_false_iff.mp hc, ho, Option.none_or]

namespace Fields

variable (m : Fields α)

theorem get?_canonical_id : m.canonical.get? "id" = (m.get? "id").or (m.get? "command") := by
  show (Alias.apply ⟨"description", "name"⟩ (Alias.apply ⟨"command", "id"⟩ m)).get? "id" = _
  rw [Alias.get?_apply_of_ne (by decide) (by decide)]
  exact Alias.get?_apply_canonical ⟨"command", "id"⟩ m

theorem get?_canonical_name :
    m.canonical.get? "name" = (m.get? "name").or (m.get? "description") := by
  show (Alias.apply ⟨"description", "name"⟩ (Alias.apply ⟨"command", "id"⟩ m)).get? "name" = _
  have h := Alias.get?_apply_canonical ⟨"description", "name"⟩ (Alias.apply ⟨"command", "id"⟩ m)
  rw [h, Alias.get?_apply_of_ne (by decide) (by decide),
    Alias.get?_apply_of_ne (by decide) (by decide)]

theorem get?_canonical_of_ne {key : String}
    (h : key ∉ ["command", "id", "description", "name"]) : m.canonical.get? key = m.get? key := by
  simp only [List.mem_cons, List.not_mem_nil, or_false, not_or] at h
  obtain ⟨hc, hi, hd, hn⟩ := h
  show (Alias.apply ⟨"description", "name"⟩ (Alias.apply ⟨"command", "id"⟩ m)).get? key = _
  rw [Alias.get?_apply_of_ne (Ne.symm hd) (Ne.symm hn),
    Alias.get?_apply_of_ne (Ne.symm hc) (Ne.symm hi)]

/-! ### The values of a map -/

theorem perm_cons_drop {key : String} {v : α} {es : List (String × α)}
    (h : lookup key es = some v) : es.Perm ((key, v) :: drop key es) := by
  induction es with
  | nil => cases h
  | cons e rest ih =>
      obtain ⟨k, w⟩ := e
      rw [lookup] at h
      rw [drop]
      split at h
      · next hk => rw [if_pos hk, hk, Option.some.inj h]
      · next hk =>
          rw [if_neg hk]
          exact ((ih h).cons (k, w)).trans (.swap (key, v) (k, w) _)

end Fields

/-- A value that goes on under the canonical name goes behind all others. -/
theorem Alias.entries_apply_of_moved? {a : Alias} {m : Fields α} {v : α} (h : a.moved? m = some v) :
    (a.apply m).entries = Fields.drop a.old m.entries ++ [(a.canonical, v)] := by
  have hfree : a.canonical ∉ (m.erase a.old).keys := by
    intro hmem
    rw [Fields.keys_erase] at hmem
    obtain ⟨w, hw⟩ := Fields.mem_keys_iff.mp (List.mem_of_mem_erase hmem)
    rw [Fields.has_eq_false_iff.mp (moved?_eq_some_iff.mp h).1] at hw
    cases hw
  rw [apply_of_moved? h]
  exact Fields.place_of_not_mem hfree

theorem Alias.values_apply (a : Alias) (m : Fields α) :
    ((a.apply m).entries.map Prod.snd).Perm (m.entries.map Prod.snd) := by
  rcases a.apply_cases m with ⟨-, h⟩ | ⟨v, hv, -⟩
  · rw [h]
  · have hold := (Fields.perm_cons_drop (moved?_eq_some_iff.mp hv).2).map Prod.snd
    rw [entries_apply_of_moved? hv, List.map_append]
    exact (List.perm_append_singleton v _).trans hold.symm

namespace Fields

/-- Renaming neither adds values nor drops any. -/
theorem values_canonical (m : Fields α) :
    (m.canonical.entries.map Prod.snd).Perm (m.entries.map Prod.snd) :=
  List.foldlRecOn Alias.table _ (.refl _) fun n hn a _ => (a.values_apply n).trans hn

theorem size_canonical (m : Fields α) : m.canonical.size = m.size := by
  have hlength := m.values_canonical.length_eq
  rwa [List.length_map, List.length_map] at hlength

end Fields
end CommandMenu
