import CommandMenu.Files.Path
import CommandMenu.Files.Source
import CommandMenu.Menu.Document

/-! # The published configuration

A store publishes one configuration at a time.  What was published before stays as it was, so that
a reader may go on with it; a failed update changes nothing.

* `Store.publish`, `Store.clear`, `Store.apply` and `Store.load` change what is published.
* `Store.isStale` asks whether a file has changed since, `Store.reloadIfStale` loads it then.
* All times are given: `now` is the time of the operation.
-/

namespace CommandMenu

/-- All configurations published so far, and the number of the current one. -/
structure Store where
  published : List Configuration := []
  current : Option Nat := none
deriving Repr

namespace Store

/-- The configuration that was published with a number. -/
def held? (s : Store) (number : Nat) : Option Configuration := s.published[number]?

/-- The current configuration. -/
def current? (s : Store) : Option Configuration := s.current.bind s.held?

/-- Publishes a configuration and tells its number. -/
def publish (s : Store) (c : Configuration) : Nat × Store :=
  let number := s.published.length
  (number, ⟨s.published ++ [c], some number⟩)

/-- Withdraws the current configuration. -/
def clear (s : Store) : Store := { s with current := none }

/-- Publishes what some contents of a file say. -/
def apply (s : Store) (path contents : String) (now : Instant) : Except Fault Nat × Store :=
  match Reading.ofContents (Path.nameForFormat path) contents now with
  | .error f => (.error f, s)
  | .ok reading =>
    let (number, s) := s.publish reading.configuration
    (.ok number, s)

/-- Publishes what a file says. -/
def load (s : Store) (files : Source) (path : String) (now : Instant) :
    Except Fault Nat × Store :=
  match files.contents path with
  | .error cause => (.error (.unreadable cause), s)
  | .ok contents => s.apply path contents now

/-- Whether a file has changed since the current configuration was built.  A file whose time is not
known counts as changed, and so does every file as long as nothing is published. -/
def isStale (s : Store) (files : Source) (path : String) : Except Fault Bool :=
  match s.current? with
  | none => .ok true
  | some c =>
    match files.modified path with
    | .error cause => .error (.unreadable cause)
    | .ok none => .ok true
    | .ok (some time) => .ok (c.updatedAt.before time)

/-- Loads a file if it has changed. -/
def reloadIfStale (s : Store) (files : Source) (path : String) (now : Instant) :
    Except Fault (Option Nat) × Store :=
  match s.isStale files path with
  | .error f => (.error f, s)
  | .ok false => (.ok none, s)
  | .ok true =>
    let (result, s) := s.load files path now
    (result.map some, s)

/-! ### What is current -/

theorem current?_publish (s : Store) (c : Configuration) : (s.publish c).2.current? = some c := by
  simp [publish, current?, held?]

theorem apply_of_ok {path text : String} {now : Instant} {r : Reading}
    (h : Reading.ofContents (Path.nameForFormat path) text now = .ok r) (s : Store) :
    (s.apply path text now).2 = (s.publish r.configuration).2 := by
  unfold apply
  rw [h]

theorem apply_of_error {path text : String} {now : Instant} {f : Fault}
    (h : Reading.ofContents (Path.nameForFormat path) text now = .error f) (s : Store) :
    (s.apply path text now).2 = s := by
  unfold apply
  rw [h]

end Store
end CommandMenu
