import CommandMenu.Menu.Traffic
import CommandMenu.Proofs.Build

/-! # A store that is not stale

A store is stale if the file was written after the current configuration was built.  That the store
is not stale says nothing of what happened before: a load publishes what it has read, even if the
file was written since.

* `Traffic.Inv` says what all runs have in common: what a load holds, and what was published, is what
  the file said when it was read.
* `Traffic.fresh_of_not_stale` says that a store that is not stale has the menu of the file, if the
  file was not written while the current configuration was loaded.
* `Traffic.stale_menu_not_stale` is a run in which it was. -/

namespace CommandMenu

/-! ### Publishing -/

theorem Reading.updatedAt_of_ofContents {file contents : String} {now : Instant} {r : Reading}
    (h : ofContents file contents now = .ok r) : r.configuration.updatedAt = now := by
  obtain ⟨_, -, rfl⟩ := Except.map_eq_ok_iff.mp h
  rfl

theorem Store.current?_apply {s : Store} {path text : String} {now : Instant} {c : Configuration}
    (h : (s.apply path text now).2.current? = some c) :
    s.current? = some c ∨ c.updatedAt = now ∧
      ∃ r, Reading.ofContents (Path.nameForFormat path) text now = .ok r ∧ r.configuration = c := by
  cases hr : Reading.ofContents (Path.nameForFormat path) text now with
  | error f =>
      rw [apply_of_error hr] at h
      exact .inl h
  | ok r =>
      rw [apply_of_ok hr, current?_publish] at h
      obtain rfl := Option.some.inj h
      exact .inr ⟨Reading.updatedAt_of_ofContents hr, r, rfl, rfl⟩

namespace Traffic

variable {path : String} {files : Source} {es : List (Instant × Event)} {s s' : Traffic}
  {now : Instant} {e : Event}

/-! ### What a step does -/

theorem holding_of_begun {loads : List Load} {n : Nat} {text : String}
    (h : (loads ++ [.waiting])[n]? = some (.holding text)) : loads[n]? = some (.holding text) := by
  rw [List.getElem?_append] at h
  split at h
  · exact h
  · rw [List.getElem?_singleton] at h
    split at h <;> cases h

theorem holding_of_set {loads : List Load} {m n : Nat} {load : Load} {text : String}
    (h : (loads.set m load)[n]? = some (.holding text)) :
    loads[n]? = some (.holding text) ∨ m = n ∧ load = .holding text := by
  rw [List.getElem?_set] at h
  split at h
  · next hm =>
      split at h
      · exact .inr ⟨hm, Option.some.inj h⟩
      · cases h
  · exact .inl h

theorem Step.holding (hs : Step path now e s s') {n : Nat} {text : String}
    (h : s'.loads[n]? = some (.holding text)) :
    s.loads[n]? = some (.holding text) ∨ e = .read n ∧ s'.files.contents path = .ok text := by
  cases hs with
  | write | skip => exact .inl h
  | load => exact .inl (holding_of_begun h)
  | reload => exact .inl (holding_of_begun h)
  | read hl hc =>
      rcases holding_of_set h with h | ⟨rfl, he⟩
      · exact .inl h
      · cases he
        exact .inr ⟨rfl, hc⟩
  | fail hl hc =>
      rcases holding_of_set h with h | ⟨-, he⟩
      · exact .inl h
      · cases he
  | publish hl =>
      rcases holding_of_set h with h | ⟨-, he⟩
      · exact .inl h
      · cases he

/-- What is current has been current, or is what a load held and has published just now. -/
theorem Step.current (hs : Step path now e s s') {c : Configuration}
    (h : s'.store.current? = some c) :
    s.store.current? = some c ∨ c.updatedAt = now ∧ ∃ n text r, e = .publish n ∧
      s.loads[n]? = some (.holding text) ∧
      Reading.ofContents (Path.nameForFormat path) text now = .ok r ∧ r.configuration = c := by
  cases hs with
  | publish hl =>
      rcases Store.current?_apply h with h | ⟨ht, r, hr, hc⟩
      · exact .inl h
      · exact .inr ⟨ht, _, _, r, rfl, hl, hr, hc⟩
  | _ => exact .inl h

theorem Step.files_eq_or (hs : Step path now e s s') :
    s'.files = s.files ∧ (∀ text, e ≠ .write text) ∨
      ∃ text, e = .write text ∧ s'.files = s.files.write path text now := by
  cases hs with
  | write text => exact .inr ⟨_, rfl, rfl⟩
  | _ => exact .inl ⟨rfl, by simp⟩

/-! ### What all runs have in common -/

/-- The file is not written. -/
def Quiet (es : List (Instant × Event)) : Prop := ∀ t text, (t, .write text) ∉ es

/-- If the file is not written in some events, it has a text after them. -/
def Says (path text : String) (es : List (Instant × Event)) (files : Source) : Prop :=
  Quiet es → files.contents path = .ok text

theorem Says.step {text : String} (h : Says path text es s.files) (hs : Step path now e s s') :
    Says path text (es ++ [(now, e)]) s'.files := by
  intro hq
  rcases hs.files_eq_or with ⟨hf, -⟩ | ⟨_, rfl, -⟩
  · rw [hf]
    exact h fun t text' hm => hq t text' (List.mem_append_left _ hm)
  · exact absurd (List.mem_append_right _ List.mem_cons_self) (hq _ _)

/-- What is known after some events.  Times go up.  A load holds what it has read, and the current
configuration was built of what its load had read; as long as the file is not written, it still says
so.  A file that was written has the time at which it was written last. -/
structure Inv (path : String) (es : List (Instant × Event)) (s : Traffic) : Prop where
  times : es.Pairwise fun x y => x.1.before y.1 = true
  held : ∀ n text, s.loads[n]? = some (.holding text) →
    ∃ before t between, es = before ++ (t, .read n) :: between ∧ Says path text between s.files
  current : ∀ c, s.store.current? = some c → ∃ before t n between after,
    es = before ++ (t, .read n) :: (between ++ (c.updatedAt, .publish n) :: after) ∧
    ∃ text r, Reading.ofContents (Path.nameForFormat path) text c.updatedAt = .ok r ∧
      r.configuration = c ∧ (Quiet between → Says path text after s.files)
  written : ∀ t text, (t, .write text) ∈ es →
    ∃ t', s.files.modified path = .ok (some t') ∧ t'.before t = false

theorem inv_start : Inv path [] { files } :=
  ⟨.nil, by simp, by simp [Store.current?], by simp⟩

theorem Inv.held_step (hi : Inv path es s) (hs : Step path now e s s') (n : Nat) (text : String)
    (h : s'.loads[n]? = some (.holding text)) :
    ∃ before t between, es ++ [(now, e)] = before ++ (t, .read n) :: between ∧
      Says path text between s'.files := by
  rcases hs.holding h with h | ⟨rfl, hc⟩
  · obtain ⟨before, t, between, rfl, hb⟩ := hi.held n text h
    exact ⟨before, t, between ++ [(now, e)], by simp, hb.step hs⟩
  · exact ⟨es, now, [], rfl, fun _ => hc⟩

theorem Inv.current_step (hi : Inv path es s) (hs : Step path now e s s') (c : Configuration)
    (h : s'.store.current? = some c) : ∃ before t n between after,
    es ++ [(now, e)] = before ++ (t, .read n) :: (between ++ (c.updatedAt, .publish n) :: after) ∧
    ∃ text r, Reading.ofContents (Path.nameForFormat path) text c.updatedAt = .ok r ∧
      r.configuration = c ∧ (Quiet between → Says path text after s'.files) := by
  rcases hs.current h with h | ⟨rfl, n, text, r, rfl, hl, hr, hc⟩
  · obtain ⟨before, t, n, between, after, rfl, text, r, hr, hc, ha⟩ := hi.current c h
    exact ⟨before, t, n, between, after ++ [(now, e)], by simp, text, r, hr, hc,
      fun hq => (ha hq).step hs⟩
  · obtain ⟨before, t, between, rfl, hb⟩ := hi.held n text hl
    refine ⟨before, t, n, between, [], by simp, text, r, hr, hc, fun hq _ => ?_⟩
    rcases hs.files_eq_or with ⟨hf, -⟩ | ⟨_, he, -⟩
    · rw [hf]
      exact hb hq
    · cases he

theorem Inv.written_step (hi : Inv path es s) (ht : ∀ x ∈ es, x.1.before now = true)
    (hs : Step path now e s s') (t : Instant) (text : String)
    (h : (t, .write text) ∈ es ++ [(now, e)]) :
    ∃ t', s'.files.modified path = .ok (some t') ∧ t'.before t = false := by
  rcases hs.files_eq_or with ⟨hf, hn⟩ | ⟨text', rfl, hf⟩
  · rw [hf]
    rcases List.mem_append.mp h with h | h
    · exact hi.written t text h
    · cases List.mem_singleton.mp h
      exact absurd rfl (hn text)
  · refine ⟨now, by rw [hf, Source.modified_write], ?_⟩
    rcases List.mem_append.mp h with h | h
    · exact Instant.not_before_of_before (ht _ h)
    · cases List.mem_singleton.mp h
      exact Instant.not_before_self now

theorem Inv.step (hi : Inv path es s) (ht : ∀ x ∈ es, x.1.before now = true)
    (hs : Step path now e s s') : Inv path (es ++ [(now, e)]) s' where
  times := List.pairwise_append.mpr ⟨hi.times, List.pairwise_singleton _ _, by simpa using ht⟩
  held := hi.held_step hs
  current := hi.current_step hs
  written := hi.written_step ht hs

theorem Run.inv (h : Run path files es s) : Inv path es s := by
  induction h with
  | start => exact inv_start
  | step hr ht hs ih => exact ih.step ht hs

/-! ### A file that is written while it is loaded -/

/-- The file before it is written again. -/
def firstFiles : Source := Source.empty.write "menu.yaml" "- a:b\n" ⟨0, 0⟩

theorem run_read_write :
    Run "menu.yaml" firstFiles [(⟨1, 0⟩, .load), (⟨2, 0⟩, .read 0), (⟨3, 0⟩, .write "- c:d\n")]
      { files := firstFiles.write "menu.yaml" "- c:d\n" ⟨3, 0⟩, loads := [.holding "- a:b\n"] } := by
  have h0 : Run "menu.yaml" firstFiles [] { files := firstFiles } := .start
  have h1 : Run "menu.yaml" firstFiles [(⟨1, 0⟩, .load)] { files := firstFiles, loads := [.waiting] } :=
    h0.step (by simp) (.load _)
  have h2 : Run "menu.yaml" firstFiles [(⟨1, 0⟩, .load), (⟨2, 0⟩, .read 0)]
      { files := firstFiles, loads := [.holding "- a:b\n"] } :=
    h1.step (by simp [Instant.before]) (.read rfl (Source.contents_write _ _ _ _))
  exact h2.step (by simp [Instant.before]) (.write _ _)

/-! ### Freshness -/

/-- What was published at a time was loaded undisturbed: at no time between the reading and the
publishing was the file written. -/
def Undisturbed (es : List (Instant × Event)) (published : Instant) : Prop :=
  ∀ n t t' text, (published, .publish n) ∈ es → (t, .read n) ∈ es → (t', .write text) ∈ es →
    ¬ (t.before t' = true ∧ t'.before published = true)

theorem Undisturbed.quiet {published t : Instant} {n : Nat}
    {before between after : List (Instant × Event)} (hu : Undisturbed es published)
    (ht : es.Pairwise fun x y => x.1.before y.1 = true)
    (he : es = before ++ (t, .read n) :: (between ++ (published, .publish n) :: after)) :
    Quiet between := by
  intro t' text hm
  rw [he, List.pairwise_append, List.pairwise_cons, List.pairwise_append] at ht
  obtain ⟨-, ⟨hread, -, -, hpublish⟩, -⟩ := ht
  refine hu n t t' text (by simp [he]) (by simp [he]) (by simp [he, hm]) ⟨?_, ?_⟩
  · exact hread _ (List.mem_append_left _ hm)
  · exact hpublish _ hm _ List.mem_cons_self

/-- If the store is not stale, the file was not written since the current configuration was
published. -/
theorem Inv.quiet_of_not_stale (hi : Inv path es s) {c : Configuration}
    (hc : s.store.current? = some c) (hs : s.store.isStale s.files path = .ok false)
    {before after : List (Instant × Event)} (he : es = before ++ (c.updatedAt, e) :: after) :
    Quiet after := by
  intro t text hm
  obtain ⟨t', hmod, ht⟩ := hi.written t text (by simp [he, hm])
  have hlate : c.updatedAt.before t = true := by
    have hp := hi.times
    rw [he, List.pairwise_append] at hp
    exact (List.pairwise_cons.mp hp.2.1).1 _ hm
  have hb := Instant.before_of_before_of_not_before hlate ht
  rw [Store.isStale, hc] at hs
  simp only [hmod] at hs
  rw [hb] at hs
  cases hs

/-- **A store that is not stale has the menu of the file**, whatever loads and writes overlapped, as
long as the file was not written while the current configuration was loaded. -/
theorem fresh_of_not_stale {c : Configuration} (hr : Run path files es s)
    (hc : s.store.current? = some c) (hs : s.store.isStale s.files path = .ok false)
    (hu : Undisturbed es c.updatedAt) :
    ∃ text r, s.files.contents path = .ok text ∧
      Reading.ofContents (Path.nameForFormat path) text c.updatedAt = .ok r ∧
      r.configuration = c := by
  obtain ⟨before, t, n, between, after, he, text, r, ho, hrc, hsays⟩ := hr.inv.current c hc
  have he' : es = (before ++ (t, .read n) :: between) ++ (c.updatedAt, .publish n) :: after := by
    rw [he, List.append_assoc, List.cons_append]
  have hq := hr.inv.quiet_of_not_stale hc hs he'
  exact ⟨text, r, hsays (hu.quiet hr.inv.times he) hq, ho, hrc⟩

/-- A second load reads and publishes what was written meanwhile. -/
theorem fresh_of_not_stale_overlap :
    ∃ es s, Run "menu.yaml" firstFiles es s ∧
      s.store.current? = some ⟨Group.root [.action { id := "c:d" }], .yaml, ⟨7, 0⟩⟩ ∧
      s.store.isStale s.files "menu.yaml" = .ok false ∧ Undisturbed es ⟨7, 0⟩ ∧
      ∃ text r, s.files.contents "menu.yaml" = .ok text ∧
        Reading.ofContents (Path.nameForFormat "menu.yaml") text ⟨7, 0⟩ = .ok r ∧
        r.configuration = ⟨Group.root [.action { id := "c:d" }], .yaml, ⟨7, 0⟩⟩ := by
  let files := firstFiles.write "menu.yaml" "- c:d\n" ⟨3, 0⟩
  let store := (({} : Store).apply "menu.yaml" "- a:b\n" ⟨6, 0⟩).2
  let store' := (store.apply "menu.yaml" "- c:d\n" ⟨7, 0⟩).2
  let es : List (Instant × Event) := [(⟨1, 0⟩, .load), (⟨2, 0⟩, .read 0), (⟨3, 0⟩, .write "- c:d\n"),
    (⟨4, 0⟩, .load), (⟨5, 0⟩, .read 1), (⟨6, 0⟩, .publish 0), (⟨7, 0⟩, .publish 1)]
  have hr : Run "menu.yaml" firstFiles es
      { files, store := store', loads := [.finished, .finished] } := by
    have h4 := run_read_write.step (by simp [Instant.before])
      (.load _ : Step "menu.yaml" ⟨4, 0⟩ _ _ _)
    have h5 := h4.step (by simp [Instant.before])
      (.read rfl (Source.contents_write _ _ _ _) : Step "menu.yaml" ⟨5, 0⟩ (.read 1) _ _)
    have h6 := h5.step (by simp [Instant.before])
      (.publish rfl : Step "menu.yaml" ⟨6, 0⟩ (.publish 0) _ _)
    exact h6.step (by simp [Instant.before]) (.publish rfl)
  have hcd : ∀ now, Reading.ofContents (Path.nameForFormat "menu.yaml") "- c:d\n" now =
      .ok ⟨⟨Group.root [.action { id := "c:d" }], .yaml, now⟩, [], true⟩ :=
    Reading.ofContents_command (s := "c:d") (c := ⟨"c:d", none⟩) (by decide +kernel)
      (by decide +kernel) (by decide)
  have hc : store'.current? = some ⟨Group.root [.action { id := "c:d" }], .yaml, ⟨7, 0⟩⟩ := by
    show (Store.apply store _ _ _).2.current? = _
    rw [Store.apply_of_ok (hcd _), Store.current?_publish]
  have hs : store'.isStale files "menu.yaml" = .ok false := by
    simp only [Store.isStale, hc, files, Source.modified_write]
    decide
  have hu : Undisturbed es ⟨7, 0⟩ := by
    intro n t t' text hp hread hw
    -- the configuration is that of the second load, which reads after the write
    simp [es] at hp hread hw
    obtain ⟨rfl, -⟩ := hw
    rcases hread with ⟨-, h0⟩ | ⟨rfl, -⟩
    · omega
    · decide
  exact ⟨es, _, hr, hc, hs, hu, fresh_of_not_stale hr hc hs hu⟩

/-- **A store that is not stale may have a menu that the file has no longer.**  The file is written
between the reading and the publishing of a load. -/
theorem stale_menu_not_stale :
    ¬ ∀ (path : String) (files : Source) (es : List (Instant × Event)) (s : Traffic)
      (c : Configuration), Run path files es s → (∀ l ∈ s.loads, l = .finished) →
      s.store.current? = some c → s.store.isStale s.files path = .ok false →
      ∃ text r, s.files.contents path = .ok text ∧
        Reading.ofContents (Path.nameForFormat path) text c.updatedAt = .ok r ∧
        r.configuration.actions = c.actions := by
  intro h
  have hab : ∀ now, Reading.ofContents (Path.nameForFormat "menu.yaml") "- a:b\n" now =
      .ok ⟨⟨Group.root [.action { id := "a:b" }], .yaml, now⟩, [], true⟩ :=
    Reading.ofContents_command (s := "a:b") (c := ⟨"a:b", none⟩) (by decide +kernel)
      (by decide +kernel) (by decide)
  have hcd : ∀ now, Reading.ofContents (Path.nameForFormat "menu.yaml") "- c:d\n" now =
      .ok ⟨⟨Group.root [.action { id := "c:d" }], .yaml, now⟩, [], true⟩ :=
    Reading.ofContents_command (s := "c:d") (c := ⟨"c:d", none⟩) (by decide +kernel)
      (by decide +kernel) (by decide)
  let files := firstFiles.write "menu.yaml" "- c:d\n" ⟨3, 0⟩
  let store := (({} : Store).apply "menu.yaml" "- a:b\n" ⟨4, 0⟩).2
  have hr : Run "menu.yaml" firstFiles [(⟨1, 0⟩, .load), (⟨2, 0⟩, .read 0),
      (⟨3, 0⟩, .write "- c:d\n"), (⟨4, 0⟩, .publish 0)]
      { files, store, loads := [.finished] } :=
    run_read_write.step (by simp [Instant.before]) (.publish rfl)
  have hc : store.current? = some ⟨Group.root [.action { id := "a:b" }], .yaml, ⟨4, 0⟩⟩ := by
    show (Store.apply {} _ _ _).2.current? = _
    rw [Store.apply_of_ok (hab _), Store.current?_publish]
  have hs : store.isStale files "menu.yaml" = .ok false := by
    simp only [Store.isStale, hc, files, Source.modified_write]
    decide
  obtain ⟨text, r, ht, hm, ha⟩ := h _ _ _ _ _ hr (by simp) hc hs
  obtain rfl : "- c:d\n" = text := Except.ok.inj ht
  obtain rfl := Except.ok.inj ((hcd _).symm.trans hm)
  simp [Group.root] at ha

end Traffic
end CommandMenu
