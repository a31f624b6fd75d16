import CommandMenu.CommandLine.Run
import CommandMenu.Proofs.Build
import CommandMenu.Proofs.Fences
import CommandMenu.Proofs.Paths

/-! # Commands that agree

All commands read the menu file on ways of their own, one of them through a store.  On one file they
come to the same result, whenever they are run and whatever else is set.

* `Command.readMenu_cases` says what a file comes to, and `Command.shown_eq` that a store comes to
  the same.
* `Occasion.agree` says what the commands write about one file. -/

namespace CommandMenu

/-! ### Output for programs -/

/-- The value of a member of a JSON object. -/
def Json.Value.member? (v : Json.Value) (key : String) : Option Json.Value :=
  match v with
  | .object members => members.lookup key
  | _ => none

/-- The value that some keys lead to, from object to object. -/
def Json.Value.at? (v : Json.Value) (keys : List String) : Option Json.Value :=
  keys.foldlM member? v

/-- What a run prints is a JSON value. -/
def Output.Prints (o : Output) (v : Json.Value) : Prop := o.out = Output.line v.pretty

/-! ### Occasions -/

/-- An occasion on which a command line is run: the variables of the environment, the directory of
the user's settings if there is one, the time, and whether the output has colours. -/
structure Occasion where
  invocation : Invocation
  env : Environment
  userDirectory : Option String
  now : Instant
  colours : Bool

namespace Occasion

/-- What is written on an occasion. -/
def run (x : Occasion) (files : Source) (root : String) : Output :=
  x.invocation.run files x.env x.userDirectory root x.now x.colours

/-- Whether the output is for a program. -/
def IsMachine (x : Occasion) : Prop := x.invocation.audience = .machine

/-- A command is run, and the settings for it can be loaded. -/
structure Runs (x : Occasion) (files : Source) (root : String) (c : Command) (s : Settings) :
    Prop where
  command : x.invocation.command = c
  settings : Settings.load files x.invocation.settingsFile root x.userDirectory x.env = .ok s

variable {x : Occasion} {files : Source} {root : String} {c : Command} {s : Settings}

/-- The context of an occasion. -/
def context (x : Occasion) (root : String) (s : Settings) : Context :=
  ⟨root, s, x.invocation.audience⟩

theorem Runs.outcome_eq (h : x.Runs files root c s) :
    (do
      let context ← Context.ofInvocation files x.env x.userDirectory root x.invocation
      x.invocation.command.run context files x.now x.colours) =
    c.run (x.context root s) files x.now x.colours := by
  rw [Context.ofInvocation, h.settings, h.command]
  rfl

theorem Runs.run_of_ok {o : Output} (h : x.Runs files root c s)
    (ho : c.run (x.context root s) files x.now x.colours = .ok o) : x.run files root = o := by
  simp only [run, Invocation.run, h.outcome_eq, ho]

theorem Runs.run_of_error {f : Fault} (h : x.Runs files root c s)
    (hf : c.run (x.context root s) files x.now x.colours = .error f) :
    x.run files root = .ofFault x.colours x.invocation.audience f := by
  simp only [run, Invocation.run, h.outcome_eq, hf]

end Occasion

/-! ### What a file comes to -/

namespace Command

theorem readMenu_of_contents {files : Source} {path text : String}
    (h : files.contents path = .ok text) (now : Instant) :
    readMenu files path now = Reading.ofContents (Path.nameForFormat path) text now := by
  rw [readMenu, h]

/-- A YAML file that was written as a list of one command holds this command. -/
theorem readMenu_write {path text s : String} {c : CommandText}
    (hf : Format.ofFileName (Path.nameForFormat path) = .yaml)
    (hr : (match Value.read text with
      | .ok (.list [.string s']) => s' == s
      | _ => false) = true)
    (hc : CommandText.ofText? s = some c) (files : Source) (time now : Instant) :
    readMenu (files.write path text time) path now =
      .ok ⟨⟨Group.root [.action { id := c.id, name := c.name }], .yaml, now⟩, [], true⟩ := by
  rw [readMenu_of_contents (Source.contents_write files path text time)]
  exact Reading.ofContents_command hf hr hc now

theorem readMenu_cases (files : Source) (path : String) :
    (∃ f, ∀ now, readMenu files path now = .error f) ∨
      ∃ text menu warnings found, files.contents path = .ok text ∧
        Reading.build (Format.ofFileName (Path.nameForFormat path)) text =
          ⟨.ok (menu, found), warnings⟩ ∧
        ∀ now, readMenu files path now =
          .ok ⟨⟨menu, Format.ofFileName (Path.nameForFormat path), now⟩, warnings, found⟩ := by
  cases hc : files.contents path with
  | error cause => exact .inl ⟨.unreadable cause, fun now => by rw [readMenu, hc]⟩
  | ok text =>
      cases hb : Reading.build (Format.ofFileName (Path.nameForFormat path)) text with
      | mk result warnings =>
          cases result with
          | error f =>
              refine .inl ⟨f, fun now => ?_⟩
              rw [readMenu_of_contents hc]
              simp only [Reading.ofContents, hb]
              rfl
          | ok built =>
              refine .inr ⟨text, built.1, warnings, built.2, rfl, hb, fun now => ?_⟩
              rw [readMenu_of_contents hc]
              simp only [Reading.ofContents, hb]
              rfl

theorem load_of_ok {files : Source} {path : String} {now : Instant} {r : Reading}
    (h : readMenu files path now = .ok r) (s : Store) :
    s.load files path now = (.ok s.published.length, (s.publish r.configuration).2) := by
  cases hc : files.contents path with
  | error cause =>
      rw [readMenu, hc] at h
      cases h
  | ok text =>
      rw [readMenu_of_contents hc] at h
      rw [Store.load, hc]
      show s.apply path text now = _
      unfold Store.apply
      rw [h]
      rfl

theorem load_of_error {files : Source} {path : String} {now : Instant} {f : Fault}
    (h : readMenu files path now = .error f) (s : Store) :
    s.load files path now = (.error f, s) := by
  cases hc : files.contents path with
  | error cause =>
      rw [readMenu, hc] at h
      rw [Store.load, hc]
      obtain rfl := Except.error.inj h
      rfl
  | ok text =>
      rw [readMenu_of_contents hc] at h
      rw [Store.load, hc]
      show s.apply path text now = _
      unfold Store.apply
      rw [h]

/-- A store that loads a file holds what the file says, or fails as reading the file does. -/
theorem load_eq (files : Source) (path : String) (now : Instant) :
    (({} : Store).load files path now).1.map (fun number =>
        ((({} : Store).load files path now).2.held? number).getD default) =
      (readMenu files path now).map (·.configuration) := by
  cases h : readMenu files path now with
  | error f =>
      rw [load_of_error h]
      rfl
  | ok r =>
      rw [load_of_ok h]
      rfl

/-- What is shown is what is read, although it goes through a store. -/
theorem shown_eq {c : Context} {path : String} (h : c.settings.menuFile = some path)
    (files : Source) (now : Instant) :
    shown c files now false =
      (readMenu files (Path.join c.root path) now).map fun r =>
        (Path.join c.root path, r.configuration) := by
  have hp : c.menuPath? none = some (Path.join c.root path) := by
    rw [Context.menuPath?, Settings.menuPath?, h]
    rfl
  have hs : shown c files now false =
      ((({} : Store).load files (Path.join c.root path) now).1.map fun number =>
        ((({} : Store).load files (Path.join c.root path) now).2.held? number).getD default).map
        fun m => (Path.join c.root path, m) := by
    unfold shown
    rw [if_neg Bool.false_ne_true, hp]
    show (({} : Store).load files (Path.join c.root path) now).1.bind _ = _
    cases (({} : Store).load files (Path.join c.root path) now).1 <;> rfl
  rw [hs, load_eq]
  cases readMenu files (Path.join c.root path) now <;> rfl

variable (c : Context) (files : Source) (now : Instant) (colours : Bool) (file : String)

theorem readAndWrite_eq (write : Reading → Output) : readAndWrite c files now file write =
    (readMenu files (Path.join c.root file) now).map write := by
  show (readMenu files (Path.join c.root file) now).bind _ = _
  cases readMenu files (Path.join c.root file) now <;> rfl

theorem run_show {c : Context} {file : String} (h : c.settings.menuFile = some file) :
    (Command.show false).run c files now colours =
      (readMenu files (Path.join c.root file) now).map fun r =>
        showOutput c colours (Path.join c.root file) r.configuration := by
  show (shown c files now false).bind _ = _
  rw [shown_eq h]
  cases readMenu files (Path.join c.root file) now <;> rfl

theorem run_extract {text : String} (h : files.contents (Path.join c.root file) = .ok text) :
    (Command.extract file).run c files now colours = .ok (extractOutput c file text) := by
  simp only [run, h]

end Command

theorem Reading.ofContents_markdown {file contents : String} {b : Markdown.Block}
    (hf : Format.ofFileName file = .markdown) (hb : Markdown.Block.find? contents = some b)
    (now : Instant) :
    ofContents file contents now = (Group.ofYamlText b.body).result.map fun menu =>
      ⟨⟨menu, .markdown, now⟩, (Group.ofYamlText b.body).warnings, true⟩ := by
  rw [ofContents, hf]
  simp only [build, hb, Outcome.bind_pure_comp]
  cases (Group.ofYamlText b.body).result <;> rfl

/-- What a Markdown document comes to is decided by its block. -/
theorem Reading.build_markdown_cases {text : String} {menu : Group} {found : Bool}
    {warnings : List Warning} (h : build .markdown text = ⟨.ok (menu, found), warnings⟩) :
    (∃ b, Markdown.Block.find? text = some b ∧ found = true ∧
      (Group.ofYamlText b.body).result = .ok menu) ∨
    Markdown.Block.find? text = none ∧ found = false ∧ menu = Group.root [] := by
  cases hb : Markdown.Block.find? text with
  | none =>
      simp only [build, hb] at h
      cases h
      exact .inr ⟨rfl, rfl, rfl⟩
  | some b =>
      simp only [build, hb, Outcome.bind_pure_comp] at h
      obtain ⟨menu', hm, he⟩ := Except.map_eq_ok_iff.mp (congrArg Outcome.result h)
      cases he
      exact .inl ⟨b, rfl, rfl, hm⟩

/-- The text of a block is what the document holds between its places, octet by octet. -/
theorem Markdown.Block.StandsIn.extract_eq {text : String} {b : Block} (h : b.StandsIn text) :
    text.toByteArray.extract b.start b.stop = b.body.toByteArray := by
  obtain ⟨before, after, rfl, hs, he⟩ := h.place
  have hsplit := ByteArray.extract_append_size_add (a := before.toByteArray)
    (b := b.body.toByteArray ++ after.toByteArray) (i := 0) (j := b.body.utf8ByteSize)
  rw [Nat.add_zero, String.size_toByteArray] at hsplit
  rw [hs, he, String.utf8ByteSize_append, String.toByteArray_append, String.toByteArray_append,
    ByteArray.append_assoc, hsplit]
  exact ByteArray.extract_append_eq_left String.size_toByteArray.symm

/-! ### What commands write about a file -/

namespace Occasion

variable {x : Occasion} {files : Source} {root file : String} {s : Settings} {f : Fault}

/-- A run fails with a fault: the exit code is 1, and programs find the report of the fault in the
output. -/
structure Fails (x : Occasion) (files : Source) (root : String) (f : Fault) : Prop where
  exitCode : (x.run files root).exitCode = 1
  report : x.IsMachine → (x.run files root).Prints f.report.json

theorem Runs.fails {c : Command} (h : x.Runs files root c s)
    (hf : c.run (x.context root s) files x.now x.colours = .error f) : x.Fails files root f := by
  constructor
  · rw [h.run_of_error hf]
    cases x.invocation.audience <;> rfl
  · intro hm
    rw [h.run_of_error hf, hm]
    rfl

end Occasion

namespace Output

/-- A menu is printed with its warnings, and with whether the file holds one. -/
def PrintsReading (o : Output) (menu : Group) (warnings : List Warning) (found : Bool) : Prop :=
  ∃ v, o.Prints v ∧ v.at? ["configuration", "actions"] = some (Group.json menu) ∧
    v.at? ["block_found"] = some (.bool found) ∧
    v.at? ["warnings"] = some (.array (warnings.map Warning.json))

/-- A menu is printed. -/
def PrintsMenu (o : Output) (menu : Group) : Prop :=
  ∃ v, o.Prints v ∧ v.at? ["configuration", "actions"] = some (Group.json menu)

/-- The measures of a menu are printed with its warnings, and with whether the file holds one. -/
def PrintsMeasures (o : Output) (menu : Group) (warnings : List Warning) (found : Bool) : Prop :=
  ∃ v, o.Prints v ∧ v.at? ["items"] = some (Json.count menu.items.length) ∧
    v.at? ["actions"] = some (Json.count (Group.actions menu).length) ∧
    v.at? ["depth"] = some (Json.count (Group.depth menu)) ∧
    v.at? ["block_found"] = some (.bool found) ∧
    v.at? ["warnings"] = some (.array (warnings.map Warning.json))

/-- The block of a text is printed from which a menu is built, or that there is none. -/
def PrintsBlock (o : Output) (text : String) (menu : Group) (found : Bool) : Prop :=
  ∃ v, o.Prints v ∧ v.at? ["found"] = some (.bool found) ∧
    (found = true → ∃ start stop body, v.at? ["start"] = some (Json.count start) ∧
      v.at? ["end"] = some (Json.count stop) ∧ v.at? ["body"] = some (.string body) ∧
      text.toByteArray.extract start stop = body.toByteArray ∧
      (Group.ofYamlText body).result = .ok menu) ∧
    (found = false → menu = Group.root [])

end Output

namespace Command

variable {c : Context} {colours : Bool} {file : String}

theorem printsReading_parseOutput (hc : c.isMachine = true) (r : Reading) :
    (parseOutput c colours file r).PrintsReading r.configuration.actions r.warnings
      r.blockFound := by
  rw [parseOutput, if_pos hc]
  exact ⟨_, rfl, rfl, rfl, rfl⟩

theorem printsMenu_showOutput (hc : c.isMachine = true) (origin : String) (m : Configuration) :
    (showOutput c colours origin m).PrintsMenu m.actions := by
  rw [showOutput, if_pos hc]
  exact ⟨_, rfl, rfl⟩

theorem printsMeasures_validateOutput (hc : c.isMachine = true) (r : Reading) :
    (validateOutput c colours file r).PrintsMeasures r.configuration.actions r.warnings
      r.blockFound := by
  rw [validateOutput, if_pos hc]
  exact ⟨_, rfl, rfl, rfl, rfl, rfl, rfl⟩

theorem printsBlock_extractOutput (hc : c.isMachine = true) {text : String} {menu : Group}
    {found : Bool} {warnings : List Warning}
    (h : Reading.build .markdown text = ⟨.ok (menu, found), warnings⟩) :
    (extractOutput c file text).PrintsBlock text menu found := by
  rcases Reading.build_markdown_cases h with ⟨b, hb, rfl, hm⟩ | ⟨hb, rfl, rfl⟩
  · have hs := (Markdown.Block.standsIn_of_find? hb).extract_eq
    simp only [extractOutput, hb, hc]
    exact ⟨_, rfl, rfl, fun _ => ⟨b.start, b.stop, b.body, rfl, rfl, rfl, hs, hm⟩, nofun⟩
  · simp only [extractOutput, hb, hc]
    exact ⟨_, rfl, rfl, nofun, fun _ => rfl⟩

theorem exitCode_parseOutput (r : Reading) : (parseOutput c colours file r).exitCode = 0 := by
  unfold parseOutput
  split <;> rfl

theorem exitCode_validateOutput (r : Reading) :
    (validateOutput c colours file r).exitCode = 0 := by
  unfold validateOutput
  dsimp only
  split <;> rfl

theorem exitCode_showOutput (origin : String) (m : Configuration) :
    (showOutput c colours origin m).exitCode = 0 := by
  unfold showOutput
  dsimp only
  split <;> rfl

theorem exitCode_extractOutput (text : String) : (extractOutput c file text).exitCode = 0 := by
  unfold extractOutput
  split <;> rfl

end Command

namespace Occasion

theorem IsMachine.isMachine_context {x : Occasion} (h : x.IsMachine) (root : String)
    (s : Settings) : (x.context root s).isMachine = true := decide_eq_true h

/-- **Commands agree on one file.**  Four command lines are run on one file at any times, the last
one with the file as the menu that is configured; the settings of each can be loaded.

* The name by which the format of the file is told is its own name, if it has one.
* `parse`, `validate` and `show` fail with the same fault, or they all succeed with the same menu, the
  same warnings and the same answer to whether the file holds a menu.
* In a Markdown document, `extract` finds a block exactly if the file holds a menu; the menu is then
  built from this block, and it is empty otherwise. -/
theorem agree {files : Source} {root file : String}
    {parsing validation extraction showing : Occasion} {sp sv se ss : Settings}
    (hp : parsing.Runs files root (.parse file) sp)
    (hv : validation.Runs files root (.validate file) sv)
    (he : extraction.Runs files root (.extract file) se)
    (hs : showing.Runs files root (.show false) ss) (hm : ss.menuFile = some file) :
    (∀ name, Path.fileName? file = some name →
      Path.nameForFormat (Path.join root file) = name) ∧
    ((∃ f, parsing.Fails files root f ∧ validation.Fails files root f ∧
        showing.Fails files root f) ∨
    ∃ text menu warnings found, files.contents (Path.join root file) = .ok text ∧
      (parsing.run files root).exitCode = 0 ∧ (validation.run files root).exitCode = 0 ∧
      (showing.run files root).exitCode = 0 ∧
      (parsing.IsMachine → (parsing.run files root).PrintsReading menu warnings found) ∧
      (validation.IsMachine → (validation.run files root).PrintsMeasures menu warnings found) ∧
      (showing.IsMachine → (showing.run files root).PrintsMenu menu) ∧
      (Format.ofFileName (Path.nameForFormat (Path.join root file)) = .markdown →
        (extraction.run files root).exitCode = 0 ∧
        (extraction.IsMachine → (extraction.run files root).PrintsBlock text menu found))) := by
  refine ⟨fun name hn => Path.nameForFormat_join hn root, ?_⟩
  rcases Command.readMenu_cases files (Path.join root file) with
    ⟨f, hf⟩ | ⟨text, menu, warnings, found, hc, hb, hr⟩
  · refine .inl ⟨f, hp.fails ?_, hv.fails ?_, hs.fails ?_⟩
    · exact (Command.readAndWrite_eq ..).trans (congrArg (Except.map _) (hf _))
    · exact (Command.readAndWrite_eq ..).trans (congrArg (Except.map _) (hf _))
    · exact (Command.run_show _ _ _ hm).trans (congrArg (Except.map _) (hf _))
  · have hparse := hp.run_of_ok
      ((Command.readAndWrite_eq ..).trans (congrArg (Except.map _) (hr _)))
    have hvalidate := hv.run_of_ok
      ((Command.readAndWrite_eq ..).trans (congrArg (Except.map _) (hr _)))
    have hshow := hs.run_of_ok ((Command.run_show _ _ _ hm).trans (congrArg (Except.map _) (hr _)))
    have hextract := he.run_of_ok (Command.run_extract _ _ _ _ _ hc)
    refine .inr ⟨text, menu, warnings, found, hc, ?_, ?_, ?_, ?_, ?_, ?_, fun hmd => ⟨?_, ?_⟩⟩
    · rw [hparse, Command.exitCode_parseOutput]
    · rw [hvalidate, Command.exitCode_validateOutput]
    · rw [hshow, Command.exitCode_showOutput]
    · intro h
      rw [hparse]
      exact Command.printsReading_parseOutput (h.isMachine_context ..) _
    · intro h
      rw [hvalidate]
      exact Command.printsMeasures_validateOutput (h.isMachine_context ..) _
    · intro h
      rw [hshow]
      exact Command.printsMenu_showOutput (h.isMachine_context ..) _ _
    · rw [hextract, Command.exitCode_extractOutput]
    · intro h
      rw [hextract]
      exact Command.printsBlock_extractOutput (h.isMachine_context ..) (hmd ▸ hb)

/-- A vault with one Markdown document, whose second block is a menu. -/
def vault : Source :=
  Source.empty.write "/vault/menu.md" "```js\n```\n```yaml\n- a:b\n```\n" ⟨3, 0⟩

/-- An environment that names the document. -/
def vaultEnvironment : Environment :=
  fun name => if name = "RADIAL_MENU_FILE" then some " menu.md " else none

/-- A command that is run in the vault for a program. -/
def inVault (c : Command) : Occasion where
  invocation := { command := c, audience := .machine }
  env := vaultEnvironment
  userDirectory := some "/home/.config"
  now := ⟨5, 0⟩
  colours := false

theorem runs_inVault (c : Command) :
    (inVault c).Runs vault "/vault" c { menuFile := some "menu.md" } :=
  ⟨rfl, show Settings.load vault none "/vault" (some "/home/.config") vaultEnvironment = _ by
    decide +kernel⟩

/-- The commands agree on the document in the vault. -/
theorem agree_vault :
    ∃ menu warnings found,
      ((inVault (.parse "menu.md")).run vault "/vault").PrintsReading menu warnings found ∧
      ((inVault (.validate "menu.md")).run vault "/vault").PrintsMeasures menu warnings found ∧
      ((inVault (.show false)).run vault "/vault").PrintsMenu menu ∧
      ((inVault (.extract "menu.md")).run vault "/vault").PrintsBlock
        "```js\n```\n```yaml\n- a:b\n```\n" menu found := by
  have hmd : Format.ofFileName (Path.nameForFormat (Path.join "/vault" "menu.md")) = .markdown := by
    decide +kernel
  have hblock : Markdown.Block.find? "```js\n```\n```yaml\n- a:b\n```\n" =
      some ⟨"yaml", 17, 24, "\n- a:b\n"⟩ := by decide +kernel
  have hmenu : Reading.ofContents "menu.yaml" "\n- a:b\n" ⟨5, 0⟩ = .ok _ :=
    Reading.ofContents_command (s := "a:b") (c := ⟨"a:b", none⟩) (by decide +kernel)
      (by decide +kernel) (by decide) ⟨5, 0⟩
  rw [Reading.ofContents_yaml (by decide +kernel)] at hmenu
  obtain ⟨m, hm, -⟩ := Except.map_eq_ok_iff.mp hmenu
  have hdoc : vault.contents (Path.join "/vault" "menu.md") =
      .ok "```js\n```\n```yaml\n- a:b\n```\n" := by
    rw [show Path.join "/vault" "menu.md" = "/vault/menu.md" by decide +kernel]
    exact Source.contents_write ..
  have hread := Reading.ofContents_markdown hmd hblock ⟨5, 0⟩
  rw [hm, ← Command.readMenu_of_contents hdoc] at hread
  have hrun := (runs_inVault (.parse "menu.md")).run_of_ok
    ((Command.readAndWrite_eq ..).trans (congrArg (Except.map _) hread))
  obtain ⟨-, ⟨f, hf, -, -⟩ | ⟨text, menu, warnings, found, hc, -, -, -, hp, hv, hs, he⟩⟩ :=
    agree (runs_inVault (.parse "menu.md")) (runs_inVault (.validate "menu.md"))
      (runs_inVault (.extract "menu.md")) (runs_inVault (.show false)) rfl
  · have h0 := congrArg Output.exitCode hrun
    rw [Command.exitCode_parseOutput] at h0
    cases h0.symm.trans hf.exitCode
  · obtain rfl := Except.ok.inj (hdoc.symm.trans hc)
    exact ⟨menu, warnings, found, hp rfl, hv rfl, hs rfl, (he hmd).2 rfl⟩

end Occasion
end CommandMenu
