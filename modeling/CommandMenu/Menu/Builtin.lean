import CommandMenu.Menu.Tree

/-! # The menu of the program itself

The menu that is shown when no menu file is configured: frequent commands, and two groups of
commands on panes and tabs.
-/

namespace CommandMenu.Builtin

/-- The commands of the outermost level. -/
def frequent : List String :=
  ["command-palette:open", "editor:focus", "global-search:open", "editor:context-menu",
    "switcher:open", "app:go-back", "app:go-forward", "spacekeys:repeat-last"]

/-- The commands of the group on panes and tabs. -/
def workspace : List String :=
  ["editor:focus", "workspace:close", "file-explorer:open", "editor:focus-left",
    "editor:focus-right", "editor:focus-top", "editor:focus-bottom", "workspace:next-tab",
    "workspace:new-tab", "outline:open", "workspace:previous-tab", "workspace:toggle-pin",
    "workspace:split-horizontal", "workspace:toggle-stacked-tabs", "tag-pane:open",
    "workspace:undo-close-pane", "workspace:split-vertical", "app:toggle-left-sidebar",
    "app:toggle-right-sidebar", "app:toggle-ribbon", "workspace:open-in-new-window",
    "workspace:move-to-new-window"]

/-- The commands of the group on closing tabs. -/
def close : List String := ["workspace:close-tab-group", "workspace:close-others-tab-group"]

/-- Actions without any attribute. -/
def bare (ids : List String) : List Item := ids.map fun id => .action { id := id }

/-- The menu. -/
def menu : Group :=
  Group.root (bare frequent ++
    [.group { name := "Workspace", items := bare workspace },
      .group { name := "Close", items := bare close }])

end CommandMenu.Builtin
