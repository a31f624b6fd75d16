import CommandMenu.Menu.Store

/-! # Calls of a store

A store is used by one call after another.  Before each call the files may have changed in any way,
and so may the reasons for which they cannot be read.

* `Scene` is what a call finds, `Call` is what can be asked of a store, `Answer` is what it answers.
* `Call.perform` answers a call, `Store.run` answers calls in a row and records them as `Entry`.
-/

namespace CommandMenu

/-- What a call finds: the files of the store's own source, those on disk, and the time. -/
structure Scene where
  source : Source
  disk : Source
  now : Instant

/-- What can be asked of a store. -/
inductive Call where
  | load (path : String)
  | loadAsync (path : String)
  | apply (path text : String)
  | publish (c : Configuration)
  | clear
  | isStale (path : String)
  | reloadIfStale (path : String)
  | current

/-- What a store answers.  A configuration is handed out by its number. -/
inductive Answer where
  | loaded (result : Except Fault Nat)
  | reloaded (result : Except Fault (Option Nat))
  | published (number : Nat)
  | cleared
  | checked (result : Except Fault Bool)
  | found (current : Option Nat)

namespace Answer

/-- The number of the configuration that was published by a call with this answer. -/
def published? : Answer → Option Nat
  | .loaded (.ok n) => some n
  | .reloaded (.ok n) => n
  | .published n => some n
  | _ => none

/-- The number of the configuration that is handed out by an answer, just published or not. -/
def handed? : Answer → Option Nat
  | .found n => n
  | a => a.published?

end Answer

/-- Answers a call.  A load that does not block reads the disk, whatever source the store has. -/
def Call.perform (w : Scene) (s : Store) : Call → Answer × Store
  | .load path =>
    let (result, s) := s.load w.source path w.now
    (.loaded result, s)
  | .loadAsync path =>
    let (result, s) := s.load w.disk path w.now
    (.loaded result, s)
  | .apply path text =>
    let (result, s) := s.apply path text w.now
    (.loaded result, s)
  | .publish c =>
    let (number, s) := s.publish c
    (.published number, s)
  | .clear => (.cleared, s.clear)
  | .isStale path => (.checked (s.isStale w.source path), s)
  | .reloadIfStale path =>
    let (result, s) := s.reloadIfStale w.source path w.now
    (.reloaded result, s)
  | .current => (.found s.current, s)

/-- A call with what it found and what was answered. -/
structure Entry where
  scene : Scene
  call : Call
  answer : Answer

/-- Answers calls in a row. -/
def Store.run (s : Store) : List (Scene × Call) → List Entry × Store
  | [] => ([], s)
  | (w, c) :: rest =>
    let (answer, s) := c.perform w s
    let (entries, s) := s.run rest
    (⟨w, c, answer⟩ :: entries, s)

/-- What a call gets to read: the path of a file, and the text that is taken for its contents. -/
inductive Call.Obtains (w : Scene) : Call → (path text : String) → Prop
  | load {path text : String} (h : w.source.contents path = .ok text) :
      Obtains w (.load path) path text
  | loadAsync {path text : String} (h : w.disk.contents path = .ok text) :
      Obtains w (.loadAsync path) path text
  | apply (path text : String) : Obtains w (.apply path text) path text
  | reloadIfStale {path text : String} (h : w.source.contents path = .ok text) :
      Obtains w (.reloadIfStale path) path text

end CommandMenu
