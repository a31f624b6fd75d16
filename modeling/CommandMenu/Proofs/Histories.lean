import CommandMenu.Proofs.Lookup
import CommandMenu.Value.Changes
import Mathlib.Data.Set.Card

/-! # A map and its history

A map looks keys up by scanning its entries, and a change touches the first entry with a key.  This
comes to a finite map in order of insertion, whatever has been done to it.

* `Fields.History` is what has been done.  `History.value?` is the last value that a key was given
  and that was not taken out since, `History.since?` the time from which on the key has been there.
* `Fields.Mirrors` compares a map with a history; `Mirrors.insert`, `Mirrors.erase` and
  `Mirrors.canonical` say that each change keeps the two alike, `Mirrors.changes` says it of changes
  in a row.
* `Fields.insertion_ordered` says what a map shows after any changes. -/

namespace CommandMenu
namespace Fields

variable {α : Type}

/-! ### Histories -/

/-- What has been done to a map that was empty at first. -/
inductive History (α : Type) where
  | start
  | put (before : History α) (key : String) (value : α)
  | gone (before : History α) (key : String)

namespace History

/-- The number of things that have been done. -/
def time : History α → Nat
  | start => 0
  | put h _ _ => h.time + 1
  | gone h _ => h.time + 1

/-- The last value of a key, if it has not been taken out since. -/
def value? (key : String) : History α → Option α
  | start => none
  | put h k v => if k = key then some v else h.value? key
  | gone h k => if k = key then none else h.value? key

/-- The time of the first insertion of a key since it was last taken out. -/
def since? (key : String) : History α → Option Nat
  | start => none
  | put h k _ => if k = key then (h.since? key).or (some h.time) else h.since? key
  | gone h k => if k = key then none else h.since? key

/-- The keys that are there. -/
def present (h : History α) : Set String := {key | ∃ v, h.value? key = some v}

/-- Both keys are there, and the first one has been there for longer. -/
def Earlier (h : History α) (k l : String) : Prop :=
  ∃ i j, h.since? k = some i ∧ h.since? l = some j ∧ i < j

/-- The history of a map that entries were put into one by one. -/
def ofEntries (es : List (String × α)) : History α :=
  es.foldl (fun h e => h.put e.1 e.2) start

/-- A value under an older name, if the canonical name is free, is taken out and put there. -/
def rename (h : History α) (a : Alias) : History α :=
  match h.value? a.canonical, h.value? a.old with
  | none, some v => (h.gone a.old).put a.canonical v
  | _, _ => h

/-- Adds a change to a history.  A removal hands back the value that was there. -/
def change (h : History α) : Change α → Option α × History α
  | .insert key v => (none, h.put key v)
  | .remove key => (h.value? key, h.gone key)
  | .canonical => (none, Alias.table.foldl rename h)

/-- Adds changes in a row. -/
def changes (h : History α) : List (Change α) → List (Option α) × History α
  | [] => ([], h)
  | c :: rest =>
    let (value, h) := h.change c
    let (values, h) := h.changes rest
    (value :: values, h)

variable {h : History α} {key k l : String} {v w : α}

theorem since?_lt {i : Nat} (hi : h.since? key = some i) : i < h.time := by
  induction h with
  | start => cases hi
  | put h k v ih =>
      rw [time]
      rw [since?] at hi
      split at hi
      · cases ho : h.since? key with
        | none =>
            rw [ho, Option.none_or, Option.some.injEq] at hi
            omega
        | some j =>
            rw [ho, Option.some_or] at hi
            have := ih (ho.trans hi)
            omega
      · have := ih hi
        omega
  | gone h k ih =>
      rw [time]
      rw [since?] at hi
      split at hi
      · cases hi
      · have := ih hi
        omega

/-- A key has been there for some time exactly if it has a value. -/
theorem isSome_since? (h : History α) (key : String) :
    (h.since? key).isSome = (h.value? key).isSome := by
  induction h with
  | start => rfl
  | put h k v ih =>
      rw [since?, value?]
      split
      · rw [Option.isSome_or, Option.isSome_some, Bool.or_true, Option.isSome_some]
      · exact ih
  | gone h k ih =>
      rw [since?, value?]
      split
      · rfl
      · exact ih

theorem exists_since? (hv : h.value? key = some v) : ∃ i, h.since? key = some i := by
  rw [← Option.isSome_iff_exists, isSome_since?, hv, Option.isSome_some]

/-- A key that is there does not become newer when keys are given values. -/
theorem since?_put_of_eq_some {i : Nat} (hi : h.since? l = some i) :
    (h.put key v).since? l = some i := by
  rw [since?]
  split
  · rw [hi, Option.some_or]
  · exact hi

theorem Earlier.put (hb : h.Earlier k l) : (h.put key v).Earlier k l := by
  obtain ⟨i, j, hi, hj, hlt⟩ := hb
  exact ⟨i, j, since?_put_of_eq_some hi, since?_put_of_eq_some hj, hlt⟩

/-- A key that was not there comes after those that are. -/
theorem earlier_put (hk : h.value? k = some w) (hn : h.value? key = none) :
    (h.put key v).Earlier k key := by
  obtain ⟨i, hi⟩ := exists_since? hk
  have hs : h.since? key = none := by
    rw [← Option.not_isSome_iff_eq_none, isSome_since?, hn]
    exact Bool.false_ne_true
  refine ⟨i, h.time, since?_put_of_eq_some hi, ?_, since?_lt hi⟩
  rw [since?, if_pos rfl, hs, Option.none_or]

theorem Earlier.gone (hb : h.Earlier k l) (hk : key ≠ k) (hl : key ≠ l) :
    (h.gone key).Earlier k l := by
  obtain ⟨i, j, hi, hj, hlt⟩ := hb
  refine ⟨i, j, ?_, ?_, hlt⟩
  · rwa [since?, if_neg hk]
  · rwa [since?, if_neg hl]

end History

/-! ### One change -/

/-- A map has distinct keys, in the order in which they came in, and the values that its history
gives them. -/
structure Mirrors (m : Fields α) (h : History α) : Prop where
  nodup : m.keys.Nodup
  get? : ∀ key, m.get? key = h.value? key
  earlier : m.keys.Pairwise h.Earlier

namespace Mirrors

variable {m : Fields α} {h : History α}

theorem mem_keys (hm : m.Mirrors h) {key : String} :
    key ∈ m.keys ↔ ∃ v, h.value? key = some v := by
  rw [mem_keys_iff, hm.get?]

theorem empty : (empty : Fields α).Mirrors .start := ⟨.nil, fun _ => rfl, .nil⟩

theorem insert (hm : m.Mirrors h) (key : String) (v : α) :
    (m.insert key v).Mirrors (h.put key v) := by
  have hget : ∀ key', (m.insert key v).get? key' = (h.put key v).value? key' := fun key' => by
    rw [get?_insert, hm.get?, History.value?]
  have hearlier : m.keys.Pairwise (h.put key v).Earlier := hm.earlier.imp History.Earlier.put
  by_cases hk : key ∈ m.keys
  · have hkeys : (m.insert key v).keys = m.keys := by rw [keys_insert, if_pos hk]
    exact ⟨hkeys ▸ hm.nodup, hget, hkeys ▸ hearlier⟩
  · have hkeys : (m.insert key v).keys = m.keys ++ [key] := by rw [keys_insert, if_neg hk]
    have hnone : h.value? key = none :=
      Option.eq_none_iff_forall_ne_some.mpr fun w hw => hk (hm.mem_keys.mpr ⟨w, hw⟩)
    refine ⟨?_, hget, ?_⟩
    · rw [hkeys, List.nodup_append]
      refine ⟨hm.nodup, List.nodup_singleton key, fun k hmem l hl hkl => hk ?_⟩
      rwa [← List.mem_singleton.mp hl, ← hkl]
    · rw [hkeys, List.pairwise_append]
      refine ⟨hearlier, List.pairwise_singleton _ key, fun k hmem l hl => ?_⟩
      obtain ⟨w, hw⟩ := hm.mem_keys.mp hmem
      rw [List.mem_singleton.mp hl]
      exact History.earlier_put hw hnone

theorem erase (hm : m.Mirrors h) (key : String) : (m.erase key).Mirrors (h.gone key) := by
  have hkeys : (m.erase key).keys = m.keys.erase key := keys_erase m key
  refine ⟨hkeys ▸ hm.nodup.erase key, fun key' => ?_, ?_⟩
  · rw [History.value?]
    split
    · next hk =>
        -- only because the keys are distinct, a second entry does not come to light
        have hnot : key' ∉ (m.erase key).keys := by
          rw [hkeys, ← hk]
          exact hm.nodup.not_mem_erase
        exact lookup_eq_none hnot
    · next hk => rw [get?_erase_of_ne hk, hm.get?]
  · rw [hkeys]
    have hsub : (m.keys.erase key).Pairwise h.Earlier := hm.earlier.sublist List.erase_sublist
    refine hsub.imp_of_mem fun hk hl hb => ?_
    have hne : ∀ k ∈ m.keys.erase key, key ≠ k := fun k hmem =>
      Ne.symm (hm.nodup.mem_erase_iff.mp hmem).1
    exact hb.gone (hne _ hk) (hne _ hl)

theorem apply (hm : m.Mirrors h) (a : Alias) : (a.apply m).Mirrors (h.rename a) := by
  unfold Alias.apply History.rename
  rw [has, hm.get?, hm.get?]
  cases hc : h.value? a.canonical with
  | some w => exact hm
  | none =>
      cases ho : h.value? a.old with
      | none => exact hm
      | some v => exact (hm.erase a.old).insert a.canonical v

theorem canonical (hm : m.Mirrors h) :
    m.canonical.Mirrors (Alias.table.foldl History.rename h) := by
  unfold Fields.canonical
  induction Alias.table generalizing m h with
  | nil => exact hm
  | cons a rest ih => exact ih (hm.apply a)

/-- **A change keeps map and history alike**, and hands back what the history says. -/
theorem change (hm : m.Mirrors h) (c : Change α) :
    (m.change c).1 = (h.change c).1 ∧ (m.change c).2.Mirrors (h.change c).2 := by
  cases c with
  | insert key v => exact ⟨rfl, hm.insert key v⟩
  | remove key =>
      rw [Fields.change, remove_eq]
      exact ⟨hm.get? key, hm.erase key⟩
  | canonical => exact ⟨rfl, hm.canonical⟩

/-! ### Changes in a row -/

theorem changes (hm : m.Mirrors h) (cs : List (Change α)) :
    (m.changes cs).1 = (h.changes cs).1 ∧ (m.changes cs).2.Mirrors (h.changes cs).2 := by
  induction cs generalizing m h with
  | nil => exact ⟨rfl, hm⟩
  | cons c rest ih =>
      obtain ⟨hvalue, hnext⟩ := hm.change c
      obtain ⟨hvalues, hlast⟩ := ih hnext
      exact ⟨congrArg₂ List.cons hvalue hvalues, hlast⟩

theorem ofEntries (es : List (String × α)) : (ofEntries es).Mirrors (History.ofEntries es) := by
  have hfold : ∀ {m : Fields α} {h : History α}, m.Mirrors h →
      (es.foldl (fun m e => m.insert e.1 e.2) m).Mirrors
        (es.foldl (fun h e => h.put e.1 e.2) h) := by
    induction es with
    | nil => exact id
    | cons e rest ih => exact fun hm => ih (hm.insert e.1 e.2)
  exact hfold empty

/-! ### What a map shows -/

theorem mem_entries (hm : m.Mirrors h) {key : String} {v : α} :
    (key, v) ∈ m.entries ↔ h.value? key = some v := by
  rw [← hm.get?]
  exact (lookup_eq_some_iff hm.nodup).symm

theorem present_eq (hm : m.Mirrors h) : h.present = {key | key ∈ m.keys} :=
  Set.ext fun _ => hm.mem_keys.symm

theorem encard_present (hm : m.Mirrors h) : h.present.encard = m.size := by
  have hset : h.present = (m.keys.toFinset : Set String) := by
    rw [hm.present_eq, List.coe_toFinset]
  rw [hset, Set.encard_coe_eq_coe_finsetCard, List.toFinset_card_of_nodup hm.nodup, keys, size,
    List.length_map]

theorem toSingle_eq_ok_iff (hm : m.Mirrors h) {key : String} {v : α} :
    m.toSingle = .ok (key, v) ↔ h.value? key = some v ∧ h.present = {key} := by
  rw [Fields.toSingle_eq_ok_iff, single?_eq_some_iff]
  constructor
  · intro he
    have hmem : (key, v) ∈ m.entries := by rw [he]; exact List.mem_singleton_self _
    have hkeys : m.keys = [key] := by rw [keys, he]; rfl
    refine ⟨hm.mem_entries.mp hmem, ?_⟩
    rw [hm.present_eq, hkeys]
    exact Set.ext fun k => List.mem_singleton
  · rintro ⟨hv, hp⟩
    have hsize : ((1 : ℕ) : ℕ∞) = m.size := by
      rw [← hm.encard_present, hp, Set.encard_singleton, Nat.cast_one]
    obtain ⟨e, he⟩ := List.length_eq_one_iff.mp (Nat.cast_injective hsize).symm
    have hmem : (key, v) ∈ m.entries := hm.mem_entries.mpr hv
    rw [he, List.mem_singleton] at hmem
    rw [he, hmem]

theorem toSingle_eq_error_iff (hm : m.Mirrors h) {m' : Fields α} :
    m.toSingle = .error m' ↔ m' = m ∧ h.present.encard ≠ 1 := by
  rw [Fields.toSingle_eq_error_iff, single?_eq_none_iff, hm.encard_present, size]
  norm_cast

end Mirrors

/-! ### Replacing a value -/

theorem place_eq_map {key : String} {es : List (String × α)} (hn : (es.map Prod.fst).Nodup)
    (hk : key ∈ es.map Prod.fst) (v : α) :
    place key v es = es.map fun e => if e.1 = key then (key, v) else e := by
  induction es with
  | nil => cases hk
  | cons e rest ih =>
      obtain ⟨k, w⟩ := e
      obtain ⟨hnot, hrest⟩ := List.nodup_cons.mp hn
      rw [place, List.map_cons]
      by_cases hkey : k = key
      · subst hkey
        have hother : ∀ e ∈ rest, (if e.1 = k then (k, v) else e) = id e := by
          intro e he
          have hne : e.1 ≠ k := fun hek => hnot (List.mem_map.mpr ⟨e, he, hek⟩)
          rw [if_neg hne, id]
        rw [if_pos rfl, if_pos rfl, List.map_congr_left hother, List.map_id]
      · rw [if_neg hkey, if_neg hkey, ih hrest]
        exact (List.mem_cons.mp hk).resolve_left (Ne.symm hkey)

/-- A replaced value leaves every entry at its position, and the other values as they are. -/
theorem entries_insert {m : Fields α} (hn : m.keys.Nodup) {key : String} (hk : key ∈ m.keys)
    (v : α) : (m.insert key v).entries = m.entries.map fun e => if e.1 = key then (key, v) else e :=
  place_eq_map hn hk v

/-! ### Maps in order of insertion -/

/-- **A map is a finite map in order of insertion.**  It may start with entries that are put into it
one by one, none of them for an empty map, and go through changes of all kinds in a row.

* What removals hand back is what its history says, and so are the values of its keys.
* It has an entry for each key that is there, and no other one; they are in the order in which
  their keys came in, since they were last taken out.
* A value that is replaced leaves every entry at its position.
* It turns into its entry if one key is there, and into itself otherwise. -/
theorem insertion_ordered (es : List (String × α)) (cs : List (Change α)) :
    ∃ values m h, (ofEntries es).changes cs = (values, m) ∧
      (History.ofEntries es).changes cs = (values, h) ∧
      m.keys.Nodup ∧
      (∀ key, m.get? key = h.value? key) ∧
      (∀ key, m.has key = true ↔ key ∈ h.present) ∧
      m.size = h.present.encard ∧
      (∀ key v, (key, v) ∈ m.entries ↔ h.value? key = some v) ∧
      m.keys.Pairwise h.Earlier ∧
      (∀ key v, m.has key = true →
        (m.insert key v).entries = m.entries.map fun e => if e.1 = key then (key, v) else e) ∧
      (∀ key v, m.toSingle = .ok (key, v) ↔ h.value? key = some v ∧ h.present = {key}) ∧
      ∀ m', m.toSingle = .error m' ↔ m' = m ∧ h.present.encard ≠ 1 := by
  obtain ⟨hvalues, hm⟩ := (Mirrors.ofEntries es).changes cs
  refine ⟨_, _, _, rfl, Prod.ext hvalues.symm rfl, hm.nodup, hm.get?, fun key => ?_,
    hm.encard_present.symm, fun _ _ => hm.mem_entries, hm.earlier, fun key v hk => ?_,
    fun _ _ => hm.toSingle_eq_ok_iff, fun _ => hm.toSingle_eq_error_iff⟩
  · rw [has_iff, hm.get?]
    rfl
  · exact entries_insert hm.nodup (mem_keys_iff.mpr (has_iff.mp hk)) v

example : (ofEntries [("command", 1), ("icon", 2), ("color", 3)]).changes
      [.insert "icon" 4, .canonical, .remove "icon", .insert "icon" 5] =
    ([none, none, some 4, none], ⟨[("color", 3), ("id", 1), ("icon", 5)]⟩) := by
  decide

end Fields
end CommandMenu
