import CommandMenu.Fault.Reading
import CommandMenu.Time.Instant

/-! # Sources of files

What the library needs to know about files.  A source answers from the state in which the files are
at the moment it is asked; contents are handed out only where the time of the last change could be
asked for as well.

* `Source` is such a state, by path; `Source.write` is the state after a file was written.
-/

namespace CommandMenu

/-- The state of files, by path. -/
structure Source where
  isThere : String → Bool
  contents : String → Except ReadFailure String
  modified : String → Except ReadFailure (Option Instant)

namespace Source

/-- The source without files. -/
def empty : Source where
  isThere _ := false
  contents _ := .error .noSuchFile
  modified _ := .error .noSuchFile

instance : Inhabited Source := ⟨empty⟩

/-- The files after one of them was written. -/
def write (files : Source) (path text : String) (now : Instant) : Source where
  isThere p := p == path || files.isThere p
  contents p := if p = path then .ok text else files.contents p
  modified p := if p = path then .ok (some now) else files.modified p

@[simp] theorem contents_write (files : Source) (path text : String) (now : Instant) :
    (files.write path text now).contents path = .ok text := if_pos rfl

@[simp] theorem modified_write (files : Source) (path text : String) (now : Instant) :
    (files.write path text now).modified path = .ok (some now) := if_pos rfl

end Source
end CommandMenu
