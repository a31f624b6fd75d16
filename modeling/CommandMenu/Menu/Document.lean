import CommandMenu.Markdown.Fence
import CommandMenu.Menu.Build
import CommandMenu.Menu.Builtin
import CommandMenu.Menu.Format
import CommandMenu.Time.Instant

/-! # Menu documents

The contents of a menu file denote a menu.  A YAML file is built as a whole; in a Markdown file the
first block with an accepted tag is built, and a file without such a block holds the empty menu.

* `Configuration` is a menu with the format of its file and the time at which it was built.
* `Reading` is what a file says: a configuration with the warnings of its build.
-/

namespace CommandMenu

/-- A menu with the format of its file and the time at which it was built. -/
structure Configuration where
  actions : Group
  format : Format
  updatedAt : Instant
deriving Repr, BEq, Inhabited

/-- The menu of the program itself, as of some time. -/
def Configuration.builtin (now : Instant) : Configuration := ⟨Builtin.menu, .yaml, now⟩

/-- What a menu file says.  `blockFound` is false for a Markdown file without a menu. -/
structure Reading where
  configuration : Configuration
  warnings : List Warning
  blockFound : Bool
deriving Repr

namespace Reading

/-- The menu of some contents in a format, and whether the contents hold a menu. -/
def build (format : Format) (contents : String) : Outcome (Group × Bool) :=
  match format with
  | .yaml => do return (← Group.ofYamlText contents, true)
  | .markdown =>
    match Markdown.Block.find? contents with
    | some block => do return (← Group.ofYamlText block.body, true)
    | none => return (Group.root [], false)

/-- What a file with this name and these contents says at some time. -/
def ofContents (file contents : String) (now : Instant) : Except Fault Reading :=
  let format := Format.ofFileName file
  let outcome := build format contents
  outcome.result.map fun (menu, found) => ⟨⟨menu, format, now⟩, outcome.warnings, found⟩

end Reading

/-- The menu of a Markdown document, if it has one. -/
def Group.ofMarkdown? (contents : String) : Except Fault (Option Group) :=
  match Markdown.Block.find? contents with
  | none => .ok none
  | some block => (Group.ofYamlText block.body).result.map some

end CommandMenu
