import CommandMenu.Proofs.Agreement
import CommandMenu.Proofs.Skipping

/-! # The announced format

The settings tell how the menu file is written before it is read, by the name with which the
configured path ends.  A store tells it again when it loads the file, by the name of the path that it
is given.

* `Call.format_of_published` says which format the configuration has that a call publishes.
* `Context.publishes_announced` says that it is the announced one, wherever the project is. -/

namespace CommandMenu

theorem Call.format_of_published {w : Scene} {s : Store} {call : Call} {path : String} {n : Nat}
    (hp : call.file? = some path) (hn : (call.perform w s).1.published? = some n) :
    (call.perform w s).2.current = some n ∧ ∃ conf, (call.perform w s).2.held? n = some conf ∧
      conf.format = Format.ofFileName (Path.nameForFormat path) := by
  obtain ⟨rfl, conf, ho, hs⟩ := (call.leads w s).eq_of_published hn
  obtain ⟨text, r, -, hr, rfl⟩ := ho.obtains hp
  rw [hs, Store.publish_eq]
  exact ⟨rfl, r.configuration, List.getElem?_concat_length, Reading.format_of_ofContents hr⟩

/-- **The announced format is the one that is used.**  If the settings announce a format, they have
a path that ends in a name, and the name tells the format.  Followed from the project, wherever that
is, the path ends in the same name; it is the path of the menu file, by the settings and by the
command line; and whatever a call publishes from the file has the announced format. -/
theorem Context.publishes_announced (c : Context) {format : Format}
    (h : c.settings.format? = some format) :
    ∃ file name path, c.settings.menuFile = some file ∧ Path.EndsIn file name ∧
      Format.ofFileName name = format ∧ path = Path.join c.root file ∧ Path.EndsIn path name ∧
      c.settings.menuPath? c.root = some path ∧ c.menuPath? none = some path ∧
      ∀ (w : Scene) (s : Store) (call : Call) (n : Nat), call.file? = some path →
        (call.perform w s).1.published? = some n →
        (call.perform w s).2.current = some n ∧
          ∃ conf, (call.perform w s).2.held? n = some conf ∧ conf.format = format := by
  obtain ⟨name, hname, rfl⟩ := Option.map_eq_some_iff.mp h
  obtain ⟨file, hfile, hn⟩ := Option.bind_eq_some_iff.mp hname
  have hmenu : c.settings.menuPath? c.root = some (Path.join c.root file) := by
    rw [Settings.menuPath?, hfile]
    rfl
  have hjoin : Path.fileName? (Path.join c.root file) = some name := Path.fileName?_join hn c.root
  refine ⟨file, name, Path.join c.root file, hfile, Path.fileName?_eq_some_iff.mp hn, rfl, rfl,
    Path.fileName?_eq_some_iff.mp hjoin, hmenu, hmenu, ?_⟩
  intro w s call n hp hpub
  have hformat := Call.format_of_published hp hpub
  rw [Path.nameForFormat_join hn] at hformat
  exact hformat

/-- A path that goes up, and in which slashes and a point stand behind the name. -/
def pointedPath : String := "/vault/menus/../Radial.YAML/.//"

theorem Context.publishes_announced_pointed :
    let c : Context := ⟨"/vault/", { menuFile := some "menus/../Radial.YAML/.//" }, .human⟩
    let w : Scene := ⟨Source.empty.write pointedPath "- a:b\n" ⟨3, 0⟩, .empty, ⟨5, 0⟩⟩
    let next := (Call.load pointedPath).perform w {}
    c.settings.format? = some .yaml ∧ c.menuPath? none = some pointedPath ∧
      next.1.published? = some 0 ∧ next.2.current = some 0 ∧
      ∃ conf, next.2.held? 0 = some conf ∧ conf.format = .yaml := by
  intro c w next
  have hf : c.settings.format? = some .yaml := by decide +kernel
  have hread : Command.readMenu w.source pointedPath w.now = .ok _ :=
    Command.readMenu_write (s := "a:b") (c := ⟨"a:b", none⟩) (by decide +kernel)
      (by decide +kernel) (by decide) Source.empty ⟨3, 0⟩ ⟨5, 0⟩
  have hn : next.1.published? = some 0 := by
    simp only [next, Call.perform, Command.load_of_ok hread]
    rfl
  obtain ⟨file, name, _, hfile, -, -, rfl, -, -, hmenu, hload⟩ := c.publishes_announced hf
  obtain rfl : file = "menus/../Radial.YAML/.//" := (Option.some.inj hfile).symm
  have hpath : Path.join c.root "menus/../Radial.YAML/.//" = pointedPath := by decide +kernel
  rw [hpath] at hmenu hload
  exact ⟨hf, hmenu, hn, hload w {} (.load pointedPath) 0 rfl hn⟩

end CommandMenu
