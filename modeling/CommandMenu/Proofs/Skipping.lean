import CommandMenu.Proofs.Publication

/-! # A reload that is skipped

Whether a file is read again is decided by times alone: the store does not know which file the
current configuration comes from.  A skipped reload therefore says that the file was not changed
since that configuration was built, and no more than that.

* `Obtained` says that a configuration comes from a file.
* `Store.run_offers` says that whatever a run has published is what one of its calls offered.
* `Store.obtained_of_skipped` says what a skipped reload means, and when the current configuration
  comes from the file.
* `Store.builtin_not_obtained` is a skipped reload behind which the menu of the program is current. -/

namespace CommandMenu

/-! ### Where a configuration comes from -/

/-- The file that a call reads, or the text of which it is given. -/
def Call.file? : Call → Option String
  | .load path | .loadAsync path | .apply path _ | .reloadIfStale path => some path
  | .publish _ | .clear | .isStale _ | .current => none

/-- The configuration with a number was obtained from a file: the call that published it got to read
a text for this file, and the configuration is what the text says. -/
def Obtained (path : String) (es : List Entry) (n : Nat) (conf : Configuration) : Prop :=
  ∃ e ∈ es, e.answer.published? = some n ∧ ∃ text r, e.call.Obtains e.scene path text ∧
    Reading.ofContents (Path.nameForFormat path) text e.scene.now = .ok r ∧ r.configuration = conf

theorem Call.Obtains.file?_eq {w : Scene} {c : Call} {path text : String}
    (h : c.Obtains w path text) : c.file? = some path := by
  cases h <;> rfl

theorem Call.Offers.obtains {w : Scene} {c : Call} {conf : Configuration} {path : String}
    (h : c.Offers w conf) (hp : c.file? = some path) :
    ∃ text r, c.Obtains w path text ∧
      Reading.ofContents (Path.nameForFormat path) text w.now = .ok r ∧ r.configuration = conf := by
  cases h with
  | publish => cases hp
  | reading ho hr =>
      rw [ho.file?_eq] at hp
      obtain rfl := Option.some.inj hp
      exact ⟨_, _, ho, hr, rfl⟩

namespace Store

theorem run_offers {s : Store} {cs : List (Scene × Call)} {e : Entry} {n : Nat}
    (he : e ∈ (s.run cs).1) (hn : e.answer.published? = some n) :
    ∃ conf, e.call.Offers e.scene conf ∧ (s.run cs).2.held? n = some conf := by
  induction cs generalizing s with
  | nil => cases he
  | cons wc rest ih =>
      obtain ⟨w, c⟩ := wc
      rcases List.mem_cons.mp he with rfl | he
      · obtain ⟨rfl, conf, ho, hs⟩ := (c.leads w s).eq_of_published hn
        have hheld : (c.perform w s).2.held? s.published.length = some conf := by
          rw [hs, publish_eq]
          exact List.getElem?_concat_length
        exact ⟨conf, ho, run_held? hheld rest⟩
      · exact ih he

/-! ### What a skipped reload tells -/

variable {s : Store} {files : Source} {path : String}

theorem isStale_eq_false_iff : s.isStale files path = .ok false ↔
    ∃ n conf time, s.current = some n ∧ s.held? n = some conf ∧
      files.modified path = .ok (some time) ∧ conf.updatedAt.before time = false := by
  constructor
  · intro h
    unfold isStale at h
    split at h
    · cases h
    · next conf hc =>
        obtain ⟨n, hn, hconf⟩ := Option.bind_eq_some_iff.mp hc
        split at h
        · cases h
        · cases h
        · next time hm => exact ⟨n, conf, time, hn, hconf, hm, Except.ok.inj h⟩
  · rintro ⟨n, conf, time, hn, hconf, hm, ht⟩
    have hc : s.current? = some conf := Option.bind_eq_some_iff.mpr ⟨n, hn, hconf⟩
    simp only [isStale, hc, hm, ht]

theorem reloadIfStale_eq_none_iff {now : Instant} :
    (s.reloadIfStale files path now).1 = .ok none ↔ s.isStale files path = .ok false := by
  unfold reloadIfStale
  cases s.isStale files path with
  | error f => simp
  | ok stale =>
      cases stale with
      | false => simp
      | true =>
          cases hl : (s.load files path now).1 <;> simp [hl, Except.map]

theorem reloadIfStale_of_not_stale (h : s.isStale files path = .ok false) (now : Instant) :
    s.reloadIfStale files path now = (.ok none, s) := by
  rw [reloadIfStale, h]

/-- **What a skipped reload means.**  Take any calls and a reload behind them that is skipped.  It
changes nothing; something is current, and the file was last changed at a known time that is not
later than the time at which the current configuration was built.  The current configuration was
obtained from the file, unless one that was not was built as late as the file was changed. -/
theorem obtained_of_skipped (before : List (Scene × Call)) (w : Scene) (path : String)
    (h : ((Call.reloadIfStale path).perform w (run {} before).2).1 = .reloaded (.ok none)) :
    let past := run {} before
    ((Call.reloadIfStale path).perform w past.2).2 = past.2 ∧
    ∃ n conf time, past.2.current = some n ∧ past.2.held? n = some conf ∧
      w.source.modified path = .ok (some time) ∧ conf.updatedAt.before time = false ∧
      ((∀ e ∈ past.1, ∀ m other, e.answer.published? = some m → past.2.held? m = some other →
          e.call.file? ≠ some path → other.updatedAt.before time = true) →
        Obtained path past.1 n conf) := by
  intro past
  have hs : past.2.isStale w.source path = .ok false :=
    reloadIfStale_eq_none_iff.mp (Answer.reloaded.inj h)
  obtain ⟨n, conf, time, hn, hconf, hm, ht⟩ := isStale_eq_false_iff.mp hs
  refine ⟨?_, n, conf, time, hn, hconf, hm, ht, fun helse => ?_⟩
  · show (past.2.reloadIfStale w.source path w.now).2 = past.2
    rw [reloadIfStale_of_not_stale hs]
  · -- the configuration that is current was published last, and its call is looked at
    obtain ⟨es, e, es', hes, hp, -⟩ := ((run_record before).current_eq_some n).mp hn
    have he : e ∈ past.1 := by
      rw [hes]
      exact List.mem_append_right es List.mem_cons_self
    have hfile : e.call.file? = some path := by
      by_contra hne
      rw [helse e he n conf hp hconf hne] at ht
      cases ht
    obtain ⟨conf', ho, hheld⟩ := run_offers he hp
    obtain rfl : conf = conf' := Option.some.inj (hconf.symm.trans hheld)
    exact ⟨e, he, hp, ho.obtains hfile⟩

/-- A file that was written at the third second, and a clock that stands at the fifth. -/
def fifthSecond : Scene := ⟨Source.empty.write "menu.yaml" "- a:b\n" ⟨3, 0⟩, .empty, ⟨5, 0⟩⟩

/-- The menu of the program is replaced by that of a file which was written after it was built. -/
theorem obtained_of_skipped_replaced :
    let past := run {} [(fifthSecond, .publish (.builtin ⟨1, 0⟩)), (fifthSecond, .load "menu.yaml")]
    ((Call.reloadIfStale "menu.yaml").perform fifthSecond past.2).1 = .reloaded (.ok none) ∧
      ∃ n conf, past.2.current = some n ∧ past.2.held? n = some conf ∧
        Obtained "menu.yaml" past.1 n conf := by
  let calls : List (Scene × Call) :=
    [(fifthSecond, .publish (.builtin ⟨1, 0⟩)), (fifthSecond, .load "menu.yaml")]
  let s := (({} : Store).publish (.builtin ⟨1, 0⟩)).2
  have hab : ∀ now, Reading.ofContents (Path.nameForFormat "menu.yaml") "- a:b\n" now =
      .ok ⟨⟨Group.root [.action { id := "a:b" }], .yaml, now⟩, [], true⟩ :=
    Reading.ofContents_command (s := "a:b") (c := ⟨"a:b", none⟩) (by decide +kernel)
      (by decide +kernel) (by decide)
  have hc : (run {} calls).2.current? =
      some ⟨Group.root [.action { id := "a:b" }], .yaml, ⟨5, 0⟩⟩ := by
    show (s.apply "menu.yaml" "- a:b\n" ⟨5, 0⟩).2.current? = _
    rw [apply_of_ok (hab _), current?_publish]
  have hs : (run {} calls).2.isStale fifthSecond.source "menu.yaml" = .ok false := by
    simp only [isStale, hc, fifthSecond, Source.modified_write]
    decide
  have hskipped : ((Call.reloadIfStale "menu.yaml").perform fifthSecond (run {} calls).2).1 =
      .reloaded (.ok none) := congrArg Answer.reloaded (reloadIfStale_eq_none_iff.mpr hs)
  obtain ⟨-, n, conf, time, hn, hconf, hm, -, hobtained⟩ :=
    obtained_of_skipped calls fifthSecond "menu.yaml" hskipped
  refine ⟨hskipped, n, conf, hn, hconf, hobtained ?_⟩
  intro e he m other hp hheld hfile
  rcases List.mem_cons.mp he with rfl | he
  · -- the menu of the program was built at the first second, the file written at the third
    obtain rfl : m = 0 := (Option.some.inj hp).symm
    have h0 : (run {} calls).2.held? 0 = some (.builtin ⟨1, 0⟩) :=
      run_held? (s := s) rfl [(fifthSecond, .load "menu.yaml")]
    obtain rfl := Option.some.inj (h0.symm.trans hheld)
    obtain rfl : (⟨3, 0⟩ : Instant) = time := Option.some.inj (Except.ok.inj hm)
    rfl
  · rw [List.mem_singleton.mp he] at hfile
    exact absurd rfl hfile

/-- **A reload may be skipped although something else is current.**  The menu of the program is
published after the file was written. -/
theorem builtin_not_obtained :
    ¬ ∀ (before : List (Scene × Call)) (w : Scene) (path : String),
      ((Call.reloadIfStale path).perform w (run {} before).2).1 = .reloaded (.ok none) →
      ∃ n conf, (run {} before).2.current = some n ∧ (run {} before).2.held? n = some conf ∧
        Obtained path (run {} before).1 n conf := by
  intro h
  have hskipped : ((Call.reloadIfStale "menu.yaml").perform fifthSecond
      (run {} [(fifthSecond, .publish (.builtin ⟨5, 0⟩))]).2).1 = .reloaded (.ok none) := rfl
  obtain ⟨n, conf, -, -, e, he, -, text, r, ho, -⟩ := h _ _ _ hskipped
  obtain rfl := List.mem_singleton.mp he
  cases ho

end Store
end CommandMenu
