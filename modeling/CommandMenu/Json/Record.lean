import CommandMenu.Json.Reader

/-! # Records written as JSON

A record with named fields is written as an object, or as a list of its fields in order.  In an
object, members with other names are passed over, and no field may come twice.  A list may break off
before the fields that have a default.

* `Tree.fields?` are the trees of the fields of a record.
* `Tree.text?`, `Tree.flag?` and the like read the value of one field.
-/

namespace CommandMenu.Json.Tree

/-! ### Fields -/

/-- The trees of the members with a name. -/
def membersNamed (name : String) : List (Option String × Tree) → List Tree
  | [] => []
  | (key, t) :: rest =>
    if key = some name then t :: membersNamed name rest else membersNamed name rest

/-- The tree of the only member with a name; `none` if there are several. -/
def onlyMember (ms : List (Option String × Tree)) (name : String) : Option (Option Tree) :=
  match membersNamed name ms with
  | [] => some none
  | [t] => some (some t)
  | _ => none

/-- The trees of the fields of a record.  A list must hold the first `required` fields at least, and
no more than all. -/
def fields? (names : List String) (required : Nat) : Tree → Option (List (Option Tree))
  | .object ms => if ms.any (·.1.isNone) then none else names.mapM (onlyMember ms)
  | .array items =>
    if required ≤ items.length && items.length ≤ names.length then
      some (items.map some ++ List.replicate (names.length - items.length) none)
    else none
  | _ => none

/-! ### Values of fields -/

/-- A text. -/
def text? : Tree → Option String
  | .string s => s
  | _ => none

/-- A truth value. -/
def flag? : Tree → Option Bool
  | .bool b => some b
  | _ => none

/-- A number of 16 bits. -/
def word? : Tree → Option Nat
  | .number n =>
    match n.number? with
    | some (.integer i) => if 0 ≤ i && i < 65536 then some i.toNat else none
    | _ => none
  | _ => none

/-- The name of a choice without further data: a text, or an object whose only member has it as its
key and null as its value. -/
def choice? : Tree → Option String
  | .string s => s
  | .object [(key, .null)] => key
  | _ => none

/-- A field that must be there. -/
def needed {α : Type} (read : Tree → Option α) (t : Option Tree) : Option α := t.bind read

/-- A field that may be left out or null. -/
def optional {α : Type} (read : Tree → Option α) : Option Tree → Option (Option α)
  | none => some none
  | some .null => some none
  | some t => (read t).map some

/-- A field with a default for the case that it is left out. -/
def defaulted {α : Type} (read : Tree → Option α) (default : α) : Option Tree → Option α
  | none => some default
  | some t => read t

/-! ### Fields are smaller than their record -/

theorem sizeOf_lt_of_mem_membersNamed {name : String} {t : Tree} :
    ∀ {ms : List (Option String × Tree)}, t ∈ membersNamed name ms → sizeOf t < sizeOf ms
  | [], h => by simp [membersNamed] at h
  | (key, u) :: rest, h => by
    simp only [List.cons.sizeOf_spec, Prod.mk.sizeOf_spec]
    unfold membersNamed at h
    split at h
    · rcases List.mem_cons.1 h with h | h
      · subst h
        omega
      · have := sizeOf_lt_of_mem_membersNamed h
        omega
    · have := sizeOf_lt_of_mem_membersNamed h
      omega

theorem sizeOf_lt_of_onlyMember {ms : List (Option String × Tree)} {name : String} {t : Tree}
    (h : onlyMember ms name = some (some t)) : sizeOf t < sizeOf ms := by
  unfold onlyMember at h
  split at h
  · simp at h
  · next u hu =>
    simp only [Option.some.injEq] at h
    subst h
    have hm : u ∈ membersNamed name ms := by simp [hu]
    exact sizeOf_lt_of_mem_membersNamed hm
  · simp at h

theorem mem_of_mapM {α β : Type} {f : α → Option β} :
    ∀ {as : List α} {bs : List β}, as.mapM f = some bs → ∀ b ∈ bs, ∃ a ∈ as, f a = some b
  | [], bs, h, b, hb => by
    simp only [List.mapM_nil, Option.pure_def, Option.some.injEq] at h
    simp [← h] at hb
  | a :: as, bs, h, b, hb => by
    simp only [List.mapM_cons, Option.pure_def, Option.bind_eq_bind, Option.bind_eq_some_iff] at h
    obtain ⟨c, hc, cs, hcs, he⟩ := h
    simp only [Option.some.injEq] at he
    rw [← he] at hb
    rcases List.mem_cons.1 hb with hb | hb
    · exact ⟨a, by simp, hb ▸ hc⟩
    · obtain ⟨a', ha', hf⟩ := mem_of_mapM hcs b hb
      exact ⟨a', List.mem_cons_of_mem _ ha', hf⟩

theorem sizeOf_lt_of_mem_fields? {names : List String} {required : Nat} {t u : Tree}
    {ts : List (Option Tree)} (h : t.fields? names required = some ts) (hu : some u ∈ ts) :
    sizeOf u < sizeOf t := by
  cases t with
  | object ms =>
    simp only [fields?] at h
    split at h
    · simp at h
    · obtain ⟨name, _, hn⟩ := mem_of_mapM h _ hu
      have := sizeOf_lt_of_onlyMember hn
      simp only [Tree.object.sizeOf_spec]
      omega
  | array items =>
    simp only [fields?] at h
    split at h
    · simp only [Option.some.injEq] at h
      subst h
      simp only [List.mem_append, List.mem_map, Option.some.injEq, exists_eq_right,
        List.mem_replicate, reduceCtorEq, and_false, or_false] at hu
      have := List.sizeOf_lt_of_mem hu
      simp only [Tree.array.sizeOf_spec]
      omega
    · simp at h
  | _ => simp [fields?] at h

end CommandMenu.Json.Tree
