import CommandMenu.Menu.Session
import CommandMenu.Proofs.Build

/-! # One builder for several builds

A builder that has been used builds as a fresh one does.

* `Builder.Work.Follows` says that work with a builder comes to an outcome, with its warnings put
  behind those that the builder has.  Steps in a row follow outcomes in a row.
* `Builder.follows_buildItem` and `Builder.follows_buildDocument` say it of items and of documents.
* `Builder.exists_looked` says which elements of a list are looked at.
* `Builder.served_alone` says all this of requests in a row. -/

namespace CommandMenu
namespace Builder

variable {α β : Type}

/-! ### Work that comes to an outcome -/

/-- Whatever builder it gets, the work comes to this outcome, and adds its warnings. -/
def Work.Follows (x : Work α) (o : Outcome α) : Prop := ∀ b : Builder, x b = b.after o

namespace Work

theorem follows_ok (a : α) : (ok a).Follows (.ok a) := by
  intro b
  rw [Builder.after]
  show _ = (_, Builder.mk (b.warnings ++ []))
  rw [List.append_nil]
  rfl

theorem follows_refuse (f : Fault) : (refuse f : Work α).Follows (.refuse f) := by
  intro b
  show _ = (_, Builder.mk (b.warnings ++ []))
  rw [List.append_nil]
  rfl

theorem follows_warn (w : Warning) : (warn w).Follows (.warn w) := fun _ => rfl

theorem Follows.alone_eq {x : Work α} {o : Outcome α} (h : x.Follows o) :
    x.alone = (o.result, o.warnings) := by
  unfold alone
  rw [h {}]
  rfl

/-- **Steps in a row follow outcomes in a row.** -/
theorem Follows.bind {x : Work α} {o : Outcome α} {f : α → Work β} {g : α → Outcome β}
    (hx : x.Follows o) (hf : ∀ a, (f a).Follows (g a)) : (x >>= f).Follows (o >>= g) := by
  intro b
  show x.andThen f b = _
  unfold andThen
  rw [hx b, Builder.after]
  cases ho : o.result with
  | error e => rw [Outcome.bind_of_error ho, Builder.after]
  | ok a =>
      show f a _ = _
      rw [Outcome.bind_of_ok ho, hf a, Builder.after, Builder.after, List.append_assoc]

end Work

/-! ### Items -/

theorem follows_buildElements {place : Position} {vs : List Value}
    (ih : ∀ v ∈ vs, ∀ p, (buildItem p v).Follows (Item.build p v)) (n : Nat) :
    (buildElements place n vs).Follows (Item.buildList place n vs) := by
  induction vs generalizing n with
  | nil =>
      rw [buildElements, Item.buildList]
      exact Work.follows_ok []
  | cons v rest ihr =>
      rw [buildElements, Item.buildList]
      refine (ih v List.mem_cons_self _).bind fun item => ?_
      exact (ihr (fun w hw => ih w (List.mem_cons_of_mem _ hw)) (n + 1)).bind
        fun items => Work.follows_ok _

theorem follows_buildList {place : Position} {vs : List Value}
    (ih : ∀ v ∈ vs, ∀ p, (buildItem p v).Follows (Item.build p v)) :
    (buildList place vs).Follows (Item.buildItems place (some (.list vs))) := by
  rw [buildList]
  cases vs with
  | nil =>
      rw [buildElements, Item.buildItems]
      exact (Work.follows_warn _).bind fun _ => Work.follows_ok []
  | cons v rest =>
      rw [Item.buildItems_cons]
      exact follows_buildElements ih 0

theorem follows_buildItems {place : Position} {items : Option Value}
    (ih : ∀ vs, items = some (.list vs) →
      ∀ v ∈ vs, ∀ p, (buildItem p v).Follows (Item.build p v)) :
    (buildItems place items).Follows (Item.buildItems place items) := by
  cases items with
  | none =>
      rw [buildItems, Item.buildItems]
      exact (Work.follows_warn _).bind fun _ => Work.follows_ok []
  | some items =>
      by_cases hl : ∃ vs, items = .list vs
      · obtain ⟨vs, rfl⟩ := hl
        rw [buildItems]
        exact follows_buildList (ih vs rfl)
      · have hne : ∀ vs, items ≠ .list vs := fun vs h => hl ⟨vs, h⟩
        rw [buildItems, Item.buildItems]
        · exact (Work.follows_warn _).bind fun _ => Work.follows_ok []
        · exact hne []
        · exact fun v rest => hne (v :: rest)
        · exact hne

/-- **Building an item with a builder in hand** comes to what the item is built to. -/
theorem follows_buildItem (p : Position) (v : Value) : (buildItem p v).Follows (Item.build p v) := by
  induction v using Value.induction generalizing p with
  | step v ih =>
      rw [buildItem, Item.build]
      cases hs : Shape.ofValue p v with
      | error f => exact Work.follows_refuse f
      | ok s =>
          cases s with
          | action a => exact Work.follows_ok _
          | group head items place =>
              refine (follows_buildItems fun vs hvs w hw q => ?_).bind fun built => Work.follows_ok _
              exact ih p head vs place (by rw [hs, hvs]) w hw q

theorem follows_buildDocument (v : Value) : (buildDocument v).Follows (Group.build v) := by
  cases v with
  | list vs =>
      refine (follows_buildList fun v _ p => follows_buildItem p v).bind fun items =>
        Work.follows_ok _
  | map m =>
      rw [buildDocument, Group.build]
      split
      · exact (follows_buildItems fun _ _ v _ p => follows_buildItem p v).bind fun built =>
          Work.follows_ok _
      · exact Work.follows_refuse _
  | string s => exact Work.follows_refuse _
  | null => exact Work.follows_refuse _
  | bool b => exact Work.follows_refuse _
  | number n => exact Work.follows_refuse _

/-! ### The elements of a list -/

/-- Each value of a list is built by a builder of its own, at the position that its number from a
start on gives. -/
def AllBuilt (place : Position) (start : Nat) (vs : List Value) (items : List Item) : Prop :=
  List.Forall₂ (fun e item => (buildItem (place.index e.2) e.1).alone.1 = .ok item)
    (vs.zipIdx start) items

/-- **The elements of a list are looked at up to the first one that is refused.**  The warnings of
the list are those of the elements that are looked at, each of them built on its own. -/
theorem exists_looked (place : Position) (start : Nat) (vs : List Value) :
    ∃ looked rest, vs = looked ++ rest ∧
      (Item.buildList place start vs).warnings =
        (looked.zipIdx start).flatMap (fun e => (buildItem (place.index e.2) e.1).alone.2) ∧
      ((rest = [] ∧ ∃ items, AllBuilt place start looked items ∧
          (Item.buildList place start vs).result = .ok items) ∨
        ∃ before v items f, looked = before ++ [v] ∧ AllBuilt place start before items ∧
          (buildItem (place.index (start + before.length)) v).alone.1 = .error f ∧
          (Item.buildList place start vs).result = .error f) := by
  simp only [AllBuilt, (follows_buildItem _ _).alone_eq]
  induction vs generalizing start with
  | nil =>
      rw [Item.buildList_nil]
      exact ⟨[], [], rfl, rfl, .inl ⟨rfl, [], .nil, rfl⟩⟩
  | cons v rest ih =>
      cases hv : (Item.build (place.index start) v).result with
      | error f =>
          rw [Item.buildList_cons_of_error hv]
          exact ⟨[v], rest, rfl, by simp, .inr ⟨[], v, [], f, rfl, .nil, hv, rfl⟩⟩
      | ok item =>
          rw [Item.buildList_cons_of_ok hv]
          obtain ⟨looked, left, rfl, hw, hcases⟩ := ih (start + 1)
          refine ⟨v :: looked, left, rfl, ?_, ?_⟩
          · rw [hw, List.zipIdx_cons, List.flatMap_cons]
          · rcases hcases with ⟨rfl, items, hb, hr⟩ | ⟨before, u, items, f, rfl, hb, hu, hr⟩
            · exact .inl ⟨rfl, item :: items, .cons hv hb, by rw [hr]; rfl⟩
            · refine .inr ⟨v :: before, u, item :: items, f, rfl, .cons hv hb, ?_, by rw [hr]; rfl⟩
              rwa [List.length_cons, Nat.add_comm before.length 1, ← Nat.add_assoc]

/-- What one builder makes of a list: warnings behind those it has, and the items or a fault. -/
theorem buildList_looked (b : Builder) (place : Position) (vs : List Value) :
    ∃ looked rest, vs = looked ++ rest ∧
      (buildList place vs b).2.warnings = b.warnings ++
        (if vs.isEmpty then [⟨place, .noItems⟩] else
          looked.zipIdx.flatMap fun e => (buildItem (place.index e.2) e.1).alone.2) ∧
      ((rest = [] ∧ ∃ items, AllBuilt place 0 looked items ∧
          (buildList place vs b).1 = .ok items) ∨
        ∃ before v items f, looked = before ++ [v] ∧ AllBuilt place 0 before items ∧
          (buildItem (place.index before.length) v).alone.1 = .error f ∧
          (buildList place vs b).1 = .error f) := by
  rw [follows_buildList (fun v _ p => follows_buildItem p v) b, Builder.after]
  cases vs with
  | nil =>
      rw [Item.buildItems_of_flaw .noItems]
      exact ⟨[], [], rfl, rfl, .inl ⟨rfl, [], .nil, rfl⟩⟩
  | cons v rest =>
      rw [Item.buildItems_cons]
      have h := exists_looked place 0 (v :: rest)
      simp only [Nat.zero_add] at h
      obtain ⟨looked, left, hvs, hw, hcases⟩ := h
      exact ⟨looked, left, hvs, congrArg (b.warnings ++ ·) hw, hcases⟩

/-! ### Requests -/

theorem serve_item (b : Builder) (v : Value) :
    b.serve (.item v) = (.item (b.item v).1, (b.item v).2) := by
  rw [serve, follows_buildItem Position.root v b]
  rfl

theorem serve_document (b : Builder) (v : Value) :
    b.serve (.document v) = (.document (b.document v).1, (b.document v).2) := by
  rw [serve, follows_buildDocument v b]
  rfl

/-- A request is answered as by a fresh builder, and its warnings go behind the others. -/
theorem serve_alone (b : Builder) (request : Request) :
    b.serve request = ((({} : Builder).serve request).1,
      ⟨b.warnings ++ (({} : Builder).serve request).2.warnings⟩) := by
  cases request with
  | item v =>
      rw [serve_item, serve_item]
      rfl
  | document v =>
      rw [serve_document, serve_document]
      rfl

theorem serveAll_alone (b : Builder) (requests : List Request) :
    b.serveAll requests = (requests.map fun r => (({} : Builder).serve r).1,
      ⟨b.warnings ++ requests.flatMap fun r => (({} : Builder).serve r).2.warnings⟩) := by
  induction requests generalizing b with
  | nil => simp [serveAll]
  | cons request rest ih =>
      rw [serveAll, serve_alone b request]
      show (_ :: (serveAll _ rest).1, (serveAll _ rest).2) = _
      rw [ih, List.map_cons, List.flatMap_cons, ← List.append_assoc]

/-- **A builder can be used again.**  Requests in a row, refused ones included, are answered as by
fresh builders, and the warnings are those of the fresh builders in a row.

* So do `Builder.item` and `Builder.document`, which have the outcomes of builds, answer requests.
* A list has a warning of its own if it is empty.  Else its warnings are those of its elements, each
  built on its own at its position, up to the first one that is refused; nothing is made of the
  elements behind it. -/
theorem served_alone (b : Builder) (requests : List Request) :
    (b.serveAll requests).1 = requests.map (fun r => (({} : Builder).serve r).1) ∧
    (b.serveAll requests).2.warnings =
      b.warnings ++ requests.flatMap (fun r => (({} : Builder).serve r).2.warnings) ∧
    (∀ v, b.serve (.item v) = (.item (b.item v).1, (b.item v).2)) ∧
    (∀ v, b.serve (.document v) = (.document (b.document v).1, (b.document v).2)) ∧
    ∀ place vs, ∃ looked rest, vs = looked ++ rest ∧
      (buildList place vs b).2.warnings = b.warnings ++
        (if vs.isEmpty then [⟨place, .noItems⟩] else
          looked.zipIdx.flatMap fun e => (buildItem (place.index e.2) e.1).alone.2) ∧
      ((rest = [] ∧ ∃ items, AllBuilt place 0 looked items ∧
          (buildList place vs b).1 = .ok items) ∨
        ∃ before v items f, looked = before ++ [v] ∧ AllBuilt place 0 before items ∧
          (buildItem (place.index before.length) v).alone.1 = .error f ∧
          (buildList place vs b).1 = .error f) := by
  have hall := serveAll_alone b requests
  exact ⟨by rw [hall], by rw [hall], serve_item b, serve_document b, buildList_looked b⟩

end Builder
end CommandMenu
