import CommandMenu.Value.Position
import CommandMenu.Fault.Basic

/-! # Outcomes with warnings

Building a menu may warn about groups that stay empty.  Warnings are kept in order, also when the
menu is refused in the end.

* `Warning` is a place with what is odd about it.
* `Outcome` is a result or a fault, with the warnings raised on the way.
-/

namespace CommandMenu

/-- Why a group stays empty. -/
inductive Warning.Flaw where
  | noItems
  | notAList (kind : String)
  | missing
deriving DecidableEq, Repr

/-- A group that stays empty, by the place of its items. -/
structure Warning where
  place : Position
  flaw : Warning.Flaw
deriving DecidableEq, Repr

namespace Warning

/-- The wording of a warning. -/
def message (w : Warning) : String :=
  match w.flaw with
  | .noItems => "group has no items"
  | .notAList kind => "`items` is " ++ kind ++ ", not a list; the group is left empty"
  | .missing => "group has no `items`"

/-- The place of a warning in words. -/
def path (w : Warning) : String := w.place.display

/-- A warning in one line. -/
def display (w : Warning) : String := w.path ++ ": " ++ w.message

end Warning

/-- A result or a fault, with the warnings raised on the way. -/
structure Outcome (α : Type) where
  result : Except Fault α
  warnings : List Warning
deriving Repr

namespace Outcome

variable {α β : Type}

/-- A result without warnings. -/
def ok (a : α) : Outcome α := ⟨.ok a, []⟩

/-- A fault without warnings. -/
def refuse (f : Fault) : Outcome α := ⟨.error f, []⟩

/-- One warning. -/
def warn (w : Warning) : Outcome Unit := ⟨.ok (), [w]⟩

/-- Goes on with a result.  Behind a fault nothing is looked at any more. -/
def andThen (x : Outcome α) (f : α → Outcome β) : Outcome β :=
  match x.result with
  | .error e => ⟨.error e, x.warnings⟩
  | .ok a => ⟨(f a).result, x.warnings ++ (f a).warnings⟩

instance : Monad Outcome where
  pure := ok
  bind := andThen

/-- A result or fault that raises no warning. -/
def ofExcept (x : Except Fault α) : Outcome α := ⟨x, []⟩

/-! ### What a sequence of steps comes to -/

theorem bind_of_ok {x : Outcome α} {a : α} (h : x.result = .ok a) (f : α → Outcome β) :
    x >>= f = ⟨(f a).result, x.warnings ++ (f a).warnings⟩ := by
  show x.andThen f = _
  unfold andThen
  rw [h]

theorem bind_of_error {x : Outcome α} {e : Fault} (h : x.result = .error e) (f : α → Outcome β) :
    x >>= f = ⟨.error e, x.warnings⟩ := by
  show x.andThen f = _
  unfold andThen
  rw [h]

/-- A last step that only changes the result raises no warning. -/
theorem bind_pure_comp (x : Outcome α) (g : α → β) :
    (x >>= fun a => pure (g a)) = ⟨x.result.map g, x.warnings⟩ := by
  cases h : x.result with
  | ok a =>
      rw [bind_of_ok h]
      simp [pure, ok, Except.map]
  | error e =>
      rw [bind_of_error h]
      rfl

end Outcome
end CommandMenu
