import CommandMenu.Proofs.Build
import CommandMenu.Settings.Load
import Mathlib.Data.List.Induction

/-! # Layers of settings

Which settings are in force is said here without laying one layer over another: file by file, and
then field by field.

* `Settings.HasValue` says what a variable is worth, `Settings.Sets` and `Settings.Refuses` what a
  file comes to.
* `Settings.LastSet` and `Settings.InForce` say what the value of a field is.
* `Settings.load_layered` says that these settings are loaded, and when there are none. -/

namespace CommandMenu

/-! ### Results of all, or the first failure -/

namespace Except

variable {α β ε : Type} {f g : α → Except ε β} {as : List α}

theorem mapM_cons_of_error {a : α} {e : ε} (h : f a = .error e) (as : List α) :
    (a :: as).mapM f = .error e := by
  rw [List.mapM_cons, h]
  rfl

theorem mapM_cons_of_ok {a : α} {b : β} (h : f a = .ok b) (as : List α) :
    (a :: as).mapM f = (as.mapM f).map (b :: ·) := by
  rw [List.mapM_cons, h]
  show (as.mapM f).bind _ = _
  cases as.mapM f <;> rfl

theorem mapM_eq_ok_iff {bs : List β} :
    as.mapM f = .ok bs ↔ List.Forall₂ (fun a b => f a = .ok b) as bs := by
  induction as generalizing bs with
  | nil => simp [pure, Except.pure, eq_comm]
  | cons a as ih =>
      rw [List.forall₂_cons_left_iff]
      cases h : f a with
      | error e => simp [mapM_cons_of_error h]
      | ok b =>
          rw [mapM_cons_of_ok h, map_eq_ok_iff]
          simp only [ih, Except.ok.injEq, exists_and_left, exists_eq_left', eq_comm]

/-- The failure of a list is that of the first element that fails. -/
theorem mapM_eq_error_iff {e : ε} :
    as.mapM f = .error e ↔ ∃ before a after, as = before ++ a :: after ∧
      (∀ a' ∈ before, ∃ b, f a' = .ok b) ∧ f a = .error e := by
  induction as with
  | nil => simp [pure, Except.pure]
  | cons a as ih =>
      constructor
      · intro h
        cases ha : f a with
        | error e' =>
            rw [mapM_cons_of_error ha] at h
            cases h
            exact ⟨[], a, as, rfl, by simp, ha⟩
        | ok b =>
            rw [mapM_cons_of_ok ha, map_eq_error_iff, ih] at h
            obtain ⟨before, x, after, rfl, hb, hx⟩ := h
            refine ⟨a :: before, x, after, rfl, ?_, hx⟩
            exact List.forall_mem_cons.mpr ⟨⟨b, ha⟩, hb⟩
      · rintro ⟨before, x, after, has, hb, hx⟩
        cases before with
        | nil =>
            obtain ⟨rfl, -⟩ := List.cons.inj has
            exact mapM_cons_of_error hx as
        | cons y before =>
            obtain ⟨rfl, rfl⟩ := List.cons.inj has
            obtain ⟨⟨b, ha⟩, hb⟩ := List.forall_mem_cons.mp hb
            rw [mapM_cons_of_ok ha, map_eq_error_iff, ih]
            exact ⟨before, x, after, rfl, hb, hx⟩

theorem mapM_congr (h : ∀ a ∈ as, f a = g a) : as.mapM f = as.mapM g := by
  induction as with
  | nil => rfl
  | cons a as ih =>
      obtain ⟨ha, has⟩ := List.forall_mem_cons.mp h
      rw [List.mapM_cons, List.mapM_cons, ha, ih has]

end Except

namespace Settings

variable {env : Environment} {name : String} {files : Source} {path : String}

/-! ### Variables -/

/-- The value of a variable: its text without white space at the ends, if anything is left. -/
def HasValue (env : Environment) (name value : String) : Prop :=
  ∃ text, env name = some text ∧ Text.trim text = value ∧ value ≠ ""

theorem given?_eq_some_iff {value : String} :
    given? env name = some value ↔ HasValue env name value := by
  simp only [given?, Option.bind_eq_some_iff, Text.trimmed?_eq_some_iff, HasValue]

theorem given?_eq_none_iff : given? env name = none ↔ ∀ value, ¬ HasValue env name value := by
  simp only [← given?_eq_some_iff, Option.eq_none_iff_forall_ne_some, ne_eq]

/-! ### Files -/

/-- What a file sets: nothing if it is not there, and what its text says if it is. -/
inductive Sets (files : Source) (path : String) : Settings → Prop
  | absent (ht : files.isThere path = false) : Sets files path {}
  | text {text : String} {s : Settings} (ht : files.isThere path = true)
      (hc : files.contents path = .ok text) (hs : ofToml text = .ok s) : Sets files path s

/-- Why a file is refused: it is there, but cannot be read, or its text cannot be understood. -/
inductive Refuses (files : Source) (path : String) : Fault → Prop
  | unreadable {cause : ReadFailure} (ht : files.isThere path = true)
      (hc : files.contents path = .error cause) :
      Refuses files path (.settings ("read config " ++ path ++ ": " ++ cause.message))
  | malformed {text : String} {failure : Toml.Failure} (ht : files.isThere path = true)
      (hc : files.contents path = .ok text) (hs : ofToml text = .error failure) :
      Refuses files path (.settings ("parse config " ++ path ++ ": " ++ failure.message text))

theorem layer_eq_ok_iff {s : Settings} : layer files path = .ok s ↔ Sets files path s := by
  constructor
  · intro h
    unfold layer at h
    split at h
    · next ht =>
        cases h
        exact .absent (by simpa using ht)
    · next ht =>
        have ht : files.isThere path = true := by simpa using ht
        split at h
        · cases h
        · next hc =>
            split at h
            · cases h
            · next hs =>
                cases h
                exact .text ht hc hs
  · rintro (ht | ⟨ht, hc, hs⟩)
    · simp [layer, ht]
    · simp [layer, ht, hc, hs]

theorem layer_eq_error_iff {f : Fault} : layer files path = .error f ↔ Refuses files path f := by
  constructor
  · intro h
    unfold layer at h
    split at h
    · cases h
    · next ht =>
        have ht : files.isThere path = true := by simpa using ht
        split at h
        · next hc =>
            cases h
            exact .unreadable ht hc
        · next hc =>
            split at h
            · next hs =>
                cases h
                exact .malformed ht hc hs
            · cases h
  · rintro (⟨ht, hc⟩ | ⟨ht, hc, hs⟩)
    · simp [layer, ht, hc]
    · simp [layer, ht, hc, hs]

/-- A file that is not refused sets something, or nothing. -/
theorem not_refuses_iff : (∀ f, ¬ Refuses files path f) ↔ ∃ s, Sets files path s := by
  simp only [← layer_eq_ok_iff, ← layer_eq_error_iff]
  cases layer files path <;> simp

/-- What a file comes to depends on this file only. -/
theorem layer_congr {files' : Source} (ht : files'.isThere path = files.isThere path)
    (hc : files'.contents path = files.contents path) : layer files' path = layer files path := by
  rw [layer, layer, ht, hc]

/-! ### Fields -/

/-- The last of some values that is set, if any is. -/
inductive LastSet : List (Option String) → Option String → Prop
  | found (before : List (Option String)) (value : String) {after : List (Option String)}
      (h : ∀ v ∈ after, v = none) : LastSet (before ++ some value :: after) (some value)
  | unset {values : List (Option String)} (h : ∀ v ∈ values, v = none) : LastSet values none

/-- Laying values over each other, the last one uppermost, leaves the last one that is set. -/
theorem foldl_or_of_unset {values : List (Option String)} (h : ∀ v ∈ values, v = none)
    (lowest : Option String) :
    values.foldl (fun lower upper => upper.or lower) lowest = lowest := by
  induction values with
  | nil => rfl
  | cons v values ih =>
      obtain ⟨hv, hvs⟩ := List.forall_mem_cons.mp h
      rw [List.foldl_cons, hv, Option.none_or, ih hvs]

/-- A value that is not set decides nothing. -/
theorem LastSet.append_none {values : List (Option String)} {value : Option String}
    (h : LastSet values value) : LastSet (values ++ [none]) value := by
  cases h with
  | found before value h =>
      rw [List.append_assoc, List.cons_append]
      exact .found before value (by simpa [or_imp, forall_and] using h)
  | unset h => exact .unset (by simpa [or_imp, forall_and] using h)

theorem lastSet_foldl (values : List (Option String)) :
    LastSet values (values.foldl (fun lower upper => upper.or lower) none) := by
  induction values using List.reverseRecOn with
  | nil => exact .unset (by simp)
  | append_singleton values v ih =>
      rw [List.foldl_append]
      cases v with
      | some value => exact .found values value (by simp)
      | none => exact ih.append_none

theorem lastSet_iff {values : List (Option String)} {value : Option String} :
    LastSet values value ↔ values.foldl (fun lower upper => upper.or lower) none = value := by
  constructor
  · rintro (⟨before, value, h⟩ | h)
    · rw [List.foldl_append, List.foldl_cons, foldl_or_of_unset h, Option.some_or]
    · exact foldl_or_of_unset h none
  · rintro rfl
    exact lastSet_foldl values

/-- The value of a field in force: that of its variable if it has one, and otherwise the last value
that is set by a file. -/
def InForce (env : Environment) (name : String) (values : List (Option String))
    (value : Option String) : Prop :=
  (∃ v, HasValue env name v ∧ value = some v) ∨
    (∀ v, ¬ HasValue env name v) ∧ LastSet values value

theorem inForce_iff {values : List (Option String)} {value : Option String} :
    InForce env name values value ↔
      (given? env name).or (values.foldl (fun lower upper => upper.or lower) none) = value := by
  unfold InForce
  rw [← given?_eq_none_iff, lastSet_iff]
  cases hg : given? env name with
  | none => simp [← given?_eq_some_iff, hg]
  | some v => simp [← given?_eq_some_iff, hg, eq_comm]

/-- A field of layers that lie over each other is laid over by itself. -/
theorem foldl_orElse (field : Settings → Option String)
    (h : ∀ upper lower : Settings, field (upper.orElse lower) = (field upper).or (field lower))
    (layers : List Settings) (lowest : Settings) :
    field (layers.foldl (fun lower upper => upper.orElse lower) lowest) =
      (layers.map field).foldl (fun lower upper => upper.or lower) (field lowest) := by
  induction layers generalizing lowest with
  | nil => rfl
  | cons layer layers ih => rw [List.foldl_cons, ih, h, List.map_cons, List.foldl_cons]

/-- The settings in force: each field by itself. -/
structure Decided (env : Environment) (layers : List Settings) (s : Settings) : Prop where
  menuFile : InForce env "RADIAL_MENU_FILE" (layers.map (·.menuFile)) s.menuFile
  radius : InForce env "RADIAL_MENU_RADIUS" (layers.map (·.sizes.radius)) s.sizes.radius
  buttonSize : InForce env "RADIAL_BUTTON_SIZE" (layers.map (·.sizes.buttonSize)) s.sizes.buttonSize

theorem eq_of_fields {s t : Settings} (hm : s.menuFile = t.menuFile)
    (hr : s.sizes.radius = t.sizes.radius) (hb : s.sizes.buttonSize = t.sizes.buttonSize) :
    s = t := by
  obtain ⟨_, _, _⟩ := s
  obtain ⟨_, _, _⟩ := t
  cases hm
  cases hr
  cases hb
  rfl

theorem decided_iff {layers : List Settings} {s : Settings} : Decided env layers s ↔
    (ofEnvironment env).orElse (layers.foldl (fun lower upper => upper.orElse lower) {}) = s := by
  have hm := foldl_orElse (·.menuFile) (fun _ _ => rfl) layers {}
  have hr := foldl_orElse (·.sizes.radius) (fun _ _ => rfl) layers {}
  have hb := foldl_orElse (·.sizes.buttonSize) (fun _ _ => rfl) layers {}
  constructor
  · intro h
    exact eq_of_fields ((congrArg _ hm).trans (inForce_iff.mp h.menuFile))
      ((congrArg _ hr).trans (inForce_iff.mp h.radius))
      ((congrArg _ hb).trans (inForce_iff.mp h.buttonSize))
  · rintro rfl
    exact ⟨inForce_iff.mpr (congrArg _ hm).symm, inForce_iff.mpr (congrArg _ hr).symm,
      inForce_iff.mpr (congrArg _ hb).symm⟩

/-! ### The files that are read -/

/-- A settings file is named, on the command line or else in the environment. -/
def Named (explicit : Option String) (env : Environment) (path : String) : Prop :=
  explicit = some path ∨ explicit = none ∧ HasValue env "RADIAL_CONFIG" path

/-- The files that count, lowest layer first: the one that is named alone, or else that of the user,
if the user has a directory for settings, and that of the project. -/
inductive Consulted (explicit : Option String) (root : String) (userDirectory : Option String)
    (env : Environment) : List String → Prop
  | named {path : String} (h : Named explicit env path) :
      Consulted explicit root userDirectory env [path]
  | userAndProject {directory : String} (h : ∀ path, ¬ Named explicit env path)
      (hd : userDirectory = some directory) :
      Consulted explicit root userDirectory env
        [Path.join (Path.join directory "radial") "config.toml",
          Path.join (Path.join root ".radial") "config.toml"]
  | project (h : ∀ path, ¬ Named explicit env path) (hd : userDirectory = none) :
      Consulted explicit root userDirectory env [Path.join (Path.join root ".radial") "config.toml"]

variable {explicit : Option String} {root : String} {userDirectory : Option String}
  {paths : List String}

theorem namedFile?_eq_some_iff : namedFile? explicit env = some path ↔ Named explicit env path := by
  cases explicit with
  | none => simp [namedFile?, Named, given?_eq_some_iff]
  | some p => simp [namedFile?, Named]

theorem namedFile?_eq_none_iff :
    namedFile? explicit env = none ↔ ∀ path, ¬ Named explicit env path := by
  simp only [← namedFile?_eq_some_iff, Option.eq_none_iff_forall_ne_some, ne_eq]

theorem consulted_of_named (h : Named explicit env path) :
    consulted explicit root userDirectory env = [path] := by
  rw [consulted, namedFile?_eq_some_iff.mpr h]

/-- No other files are read than those that count, and all of them are. -/
theorem consulted_iff :
    Consulted explicit root userDirectory env paths ↔
      paths = consulted explicit root userDirectory env := by
  constructor
  · rintro (h | ⟨h, rfl⟩ | ⟨h, rfl⟩)
    · exact (consulted_of_named h).symm
    · rw [consulted, namedFile?_eq_none_iff.mpr h]
      rfl
    · rw [consulted, namedFile?_eq_none_iff.mpr h]
      rfl
  · rintro rfl
    cases hn : namedFile? explicit env with
    | some path =>
        have hp := namedFile?_eq_some_iff.mp hn
        rw [consulted_of_named hp]
        exact .named hp
    | none =>
        rw [consulted, hn]
        cases userDirectory with
        | some directory => exact .userAndProject (namedFile?_eq_none_iff.mp hn) rfl
        | none => exact .project (namedFile?_eq_none_iff.mp hn) rfl

/-! ### Loading -/

theorem load_eq : load files explicit root userDirectory env =
    ((consulted explicit root userDirectory env).mapM (layer files)).map fun layers =>
      (ofEnvironment env).orElse (layers.foldl (fun lower upper => upper.orElse lower) {}) := by
  unfold load
  cases (consulted explicit root userDirectory env).mapM (layer files) <;> rfl

theorem load_eq_ok_iff {s : Settings} : load files explicit root userDirectory env = .ok s ↔
    ∃ layers, List.Forall₂ (Sets files) (consulted explicit root userDirectory env) layers ∧
      Decided env layers s := by
  simp only [load_eq, Except.map_eq_ok_iff, Except.mapM_eq_ok_iff, layer_eq_ok_iff, decided_iff]

theorem load_eq_error_iff {f : Fault} : load files explicit root userDirectory env = .error f ↔
    ∃ before path after, consulted explicit root userDirectory env = before ++ path :: after ∧
      (∀ p ∈ before, ∃ s, Sets files p s) ∧ Refuses files path f := by
  simp only [load_eq, Except.map_eq_error_iff, Except.mapM_eq_error_iff, layer_eq_ok_iff,
    layer_eq_error_iff]

/-- Loading fails if any of the files is refused. -/
theorem load_fails_iff : (∃ f, load files explicit root userDirectory env = .error f) ↔
    ∃ path ∈ consulted explicit root userDirectory env, ∃ f, Refuses files path f := by
  constructor
  · rintro ⟨f, hf⟩
    obtain ⟨before, path, after, hp, -, hr⟩ := load_eq_error_iff.mp hf
    exact ⟨path, by simp [hp], f, hr⟩
  · rintro ⟨path, hp, f, hr⟩
    cases hl : load files explicit root userDirectory env with
    | error f' => exact ⟨f', rfl⟩
    | ok s =>
        obtain ⟨layers, hs, -⟩ := load_eq_ok_iff.mp hl
        obtain ⟨layer, -, hset⟩ := exists_mem_of_forall₂ hs.flip hp
        exact absurd hr (not_refuses_iff.mpr ⟨layer, hset⟩ f)

/-- A named file that is not there leaves the variables of the environment. -/
theorem load_of_missing (hn : Named explicit env path) (ht : files.isThere path = false) :
    ∃ s, load files explicit root userDirectory env = .ok s ∧ Decided env [] s := by
  have hc : consulted explicit root userDirectory env = [path] := consulted_of_named hn
  have hl : layer files path = .ok {} := layer_eq_ok_iff.mpr (.absent ht)
  refine ⟨(ofEnvironment env).orElse {}, ?_, decided_iff.mpr rfl⟩
  rw [load_eq, hc, Except.mapM_cons_of_ok hl]
  rfl

theorem load_congr {files' : Source} (h : ∀ p ∈ consulted explicit root userDirectory env,
    files'.isThere p = files.isThere p ∧ files'.contents p = files.contents p) :
    load files' explicit root userDirectory env = load files explicit root userDirectory env := by
  rw [load_eq, load_eq, Except.mapM_congr fun p hp => layer_congr (h p hp).1 (h p hp).2]

/-- **Settings are laid over each other field by field.**  Some files count: the one that is named
alone, or else that of the user and over it that of the project.

* There are no settings exactly if one of these files is refused, and then the first one that is
  refused is reported, whatever the variables of the environment are.
* Otherwise each field has the value of its variable, or else the value in the last of these files
  that sets it, or else none; what the other fields are does not matter.
* Files that do not count do not matter either, and with a named file that is not there only the
  variables of the environment are left. -/
theorem load_layered (files : Source) (explicit : Option String) (root : String)
    (userDirectory : Option String) (env : Environment) :
    ∃ paths, (∀ paths', Consulted explicit root userDirectory env paths' ↔ paths' = paths) ∧
      ((∃ f, load files explicit root userDirectory env = .error f) ↔
        ∃ path ∈ paths, ∃ f, Refuses files path f) ∧
      (∀ f, load files explicit root userDirectory env = .error f ↔
        ∃ before path after, paths = before ++ path :: after ∧
          (∀ p ∈ before, ∀ f', ¬ Refuses files p f') ∧ Refuses files path f) ∧
      (∀ s, load files explicit root userDirectory env = .ok s ↔
        ∃ layers, List.Forall₂ (Sets files) paths layers ∧ Decided env layers s) ∧
      (∀ files' : Source,
        (∀ p ∈ paths, files'.isThere p = files.isThere p ∧ files'.contents p = files.contents p) →
        load files' explicit root userDirectory env = load files explicit root userDirectory env) ∧
      (∀ path, Named explicit env path → files.isThere path = false →
        ∃ s, load files explicit root userDirectory env = .ok s ∧ Decided env [] s) := by
  refine ⟨_, fun paths' => consulted_iff, load_fails_iff, fun f => ?_, fun s => load_eq_ok_iff,
    fun files' => load_congr, fun path hn ht => load_of_missing hn ht⟩
  simp only [load_eq_error_iff, not_refuses_iff]

end Settings
end CommandMenu
