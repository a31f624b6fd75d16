/-! # The two formats of a menu file

A menu is written as a YAML document, or inside a Markdown document.  The name of the file decides:
its ending `.yaml` or `.yml`, in letters of either case, means YAML, and everything else Markdown.
-/

namespace CommandMenu

/-- How a menu file is written. -/
inductive Format where
  | markdown
  | yaml
deriving DecidableEq, Repr, Inhabited

namespace Format

/-- The name of a format. -/
def name : Format → String
  | .markdown => "markdown"
  | .yaml => "yaml"

/-- The format with this name. -/
def ofName? : String → Option Format
  | "markdown" => some .markdown
  | "yaml" => some .yaml
  | _ => none

/-- The endings of YAML files. -/
def yamlEndings : List (List Char) := [".yaml".toList, ".yml".toList]

/-- The format of a file with this name.  Only the letters of ASCII have two cases here. -/
def ofFileName (file : String) : Format :=
  let lower := file.toList.map Char.toLower
  if yamlEndings.any fun ending => ending.isSuffixOf lower then .yaml else .markdown

end Format
end CommandMenu
