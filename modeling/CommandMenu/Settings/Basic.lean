import CommandMenu.Files.Path
import CommandMenu.Menu.Encoding

/-! # Settings

What a user may set: the menu file, and two sizes of the menu on the screen.

* `Settings` are the values that are set, `Settings.orElse` lays one layer over another.
* `Settings.menuPath?` and `Settings.format?` tell where the menu is and how it is written.
* `Settings.style` are the sizes as properties of a style sheet.
-/

namespace CommandMenu

/-- The sizes of the menu on the screen. -/
structure Sizes where
  radius : Option String := none
  buttonSize : Option String := none
deriving DecidableEq, Repr, Inhabited

/-- What a user has set. -/
structure Settings where
  menuFile : Option String := none
  sizes : Sizes := {}
deriving DecidableEq, Repr, Inhabited

namespace Settings

/-- A layer over another one: what the upper layer leaves open, the lower one decides. -/
def orElse (upper lower : Settings) : Settings where
  menuFile := upper.menuFile.or lower.menuFile
  sizes :=
    { radius := upper.sizes.radius.or lower.sizes.radius
      buttonSize := upper.sizes.buttonSize.or lower.sizes.buttonSize }

/-- The path of the menu file in a project. -/
def menuPath? (s : Settings) (root : String) : Option String := s.menuFile.map (Path.join root)

/-- The format of the menu file, if it has a name. -/
def format? (s : Settings) : Option Format :=
  (s.menuFile.bind Path.fileName?).map Format.ofFileName

/-- The sizes that are set, as properties of a style sheet. -/
def style (s : Settings) : List (String × String) :=
  [("--radial-menu-radius-config", s.sizes.radius),
    ("--radial-button-diameter-config", s.sizes.buttonSize)].filterMap fun (name, value) =>
      value.map (name, ·)

/-! ### The JSON form -/

/-- The JSON form of settings. -/
def json (s : Settings) : Json.Value :=
  .ofMembers
    [Json.textMember "configuration_path" s.menuFile,
      ("radial_menu", some (.ofMembers
        [Json.textMember "radius" s.sizes.radius,
          Json.textMember "button_size" s.sizes.buttonSize]))]

/-- The sizes of a tree. -/
def sizesOfJson? (t : Json.Tree) : Option Sizes := do
  match ← t.fields? ["radius", "button_size"] 0 with
  | [radius, buttonSize] =>
    return { radius := ← Json.Tree.optional Json.Tree.text? radius,
             buttonSize := ← Json.Tree.optional Json.Tree.text? buttonSize }
  | _ => none

/-- The settings of a tree. -/
def ofJson? (t : Json.Tree) : Option Settings := do
  match ← t.fields? ["configuration_path", "radial_menu"] 0 with
  | [menuFile, sizes] =>
    return { menuFile := ← Json.Tree.optional Json.Tree.text? menuFile,
             sizes := ← Json.Tree.defaulted sizesOfJson? {} sizes }
  | _ => none

end Settings
end CommandMenu
