import CommandMenu.Menu.Calls
import CommandMenu.Proofs.Build

/-! # Publication is atomic

Whatever calls a store has answered, whatever the files were and whatever went wrong, the current
configuration is the last one that was published, and it was published as a whole.

* `Call.leads` says what a call can do: it publishes what it offers, or it leaves the store as it is,
  or it clears it.
* `Record` is what all runs have in common, `Store.run_record` that they have it.
* `Store.publication_atomic` is the result. -/

namespace CommandMenu

/-! ### What a call can do -/

/-- What a call publishes if it publishes anything: what it is given, or what the text that it gets
to read says. -/
inductive Call.Offers (w : Scene) : Call → Configuration → Prop
  | publish (c : Configuration) : Offers w (.publish c) c
  | reading {call : Call} {path text : String} {r : Reading} (ho : call.Obtains w path text)
      (hr : Reading.ofContents (Path.nameForFormat path) text w.now = .ok r) :
      Offers w call r.configuration

namespace Store

variable (s : Store) (files : Source) (path text : String) (now : Instant)

theorem publish_eq (c : Configuration) :
    s.publish c = (s.published.length, ⟨s.published ++ [c], some s.published.length⟩) := rfl

theorem apply_cases :
    (∃ r, Reading.ofContents (Path.nameForFormat path) text now = .ok r ∧
      s.apply path text now = (.ok s.published.length, (s.publish r.configuration).2)) ∨
    ∃ f, s.apply path text now = (.error f, s) := by
  unfold apply
  cases Reading.ofContents (Path.nameForFormat path) text now with
  | error f => exact .inr ⟨f, rfl⟩
  | ok r => exact .inl ⟨r, rfl, rfl⟩

theorem load_cases :
    (∃ text r, files.contents path = .ok text ∧
      Reading.ofContents (Path.nameForFormat path) text now = .ok r ∧
      s.load files path now = (.ok s.published.length, (s.publish r.configuration).2)) ∨
    ∃ f, s.load files path now = (.error f, s) := by
  unfold load
  cases hc : files.contents path with
  | error cause => exact .inr ⟨_, rfl⟩
  | ok text =>
      rcases s.apply_cases path text now with ⟨r, hr, ha⟩ | ⟨f, ha⟩
      · exact .inl ⟨text, r, rfl, hr, ha⟩
      · exact .inr ⟨f, ha⟩

theorem reloadIfStale_cases :
    (∃ text r, files.contents path = .ok text ∧
      Reading.ofContents (Path.nameForFormat path) text now = .ok r ∧
      s.reloadIfStale files path now =
        (.ok (some s.published.length), (s.publish r.configuration).2)) ∨
    s.reloadIfStale files path now = (.ok none, s) ∨
    ∃ f, s.reloadIfStale files path now = (.error f, s) := by
  unfold reloadIfStale
  cases s.isStale files path with
  | error f => exact .inr (.inr ⟨f, rfl⟩)
  | ok stale =>
      cases stale with
      | false => exact .inr (.inl rfl)
      | true =>
          rcases s.load_cases files path now with ⟨text, r, hc, hr, hl⟩ | ⟨f, hl⟩
          · refine .inl ⟨text, r, hc, hr, ?_⟩
            simp only [hl]
            rfl
          · refine .inr (.inr ⟨f, ?_⟩)
            simp only [hl]
            rfl

end Store

theorem Answer.handed?_of_published? {a : Answer} {n : Nat} (h : a.published? = some n) :
    a.handed? = some n := by
  cases a with
  | found m => cases h
  | _ => exact h

theorem Answer.published?_of_handed? {a : Answer} (h : a.handed? = none) : a.published? = none := by
  cases hp : a.published? with
  | none => rfl
  | some n =>
      rw [handed?_of_published? hp] at h
      cases h

/-- **What a call can do**: it publishes what it offers under a new number, or it leaves the store as
it is, or it clears it.  Unless it publishes, it hands out nothing but what is current. -/
inductive Call.Leads (w : Scene) (s : Store) : Call → Answer → Store → Prop
  | published {c : Call} {conf : Configuration} {a : Answer} (ho : c.Offers w conf)
      (hc : c ≠ .clear) (ha : a.published? = some s.published.length) :
      Leads w s c a (s.publish conf).2
  | unchanged {c : Call} {a : Answer} (hc : c ≠ .clear) (ha : a.handed? = none) : Leads w s c a s
  | found : Leads w s .current (.found s.current) s
  | cleared : Leads w s .clear .cleared s.clear

theorem Call.leads (w : Scene) (s : Store) (c : Call) :
    c.Leads w s (c.perform w s).1 (c.perform w s).2 := by
  cases c with
  | load path =>
      simp only [perform]
      rcases s.load_cases w.source path w.now with ⟨text, r, hc, hr, hl⟩ | ⟨f, hl⟩
      · rw [hl]
        exact .published (.reading (.load hc) hr) nofun rfl
      · rw [hl]
        exact .unchanged nofun rfl
  | loadAsync path =>
      simp only [perform]
      rcases s.load_cases w.disk path w.now with ⟨text, r, hc, hr, hl⟩ | ⟨f, hl⟩
      · rw [hl]
        exact .published (.reading (.loadAsync hc) hr) nofun rfl
      · rw [hl]
        exact .unchanged nofun rfl
  | apply path text =>
      simp only [perform]
      rcases s.apply_cases path text w.now with ⟨r, hr, ha⟩ | ⟨f, ha⟩
      · rw [ha]
        exact .published (.reading (.apply path text) hr) nofun rfl
      · rw [ha]
        exact .unchanged nofun rfl
  | reloadIfStale path =>
      simp only [perform]
      rcases s.reloadIfStale_cases w.source path w.now with ⟨text, r, hc, hr, hl⟩ | hl | ⟨f, hl⟩
      · rw [hl]
        exact .published (.reading (.reloadIfStale hc) hr) nofun rfl
      · rw [hl]
        exact .unchanged nofun rfl
      · rw [hl]
        exact .unchanged nofun rfl
  | publish conf => exact .published (.publish conf) nofun rfl
  | isStale path => exact .unchanged nofun rfl
  | current => exact .found
  | clear => exact .cleared

/-! ### What was published last -/

/-- A configuration was published last: behind it nothing was published or cleared. -/
def Standing (es : List Entry) (n : Nat) : Prop :=
  ∃ before e after, es = before ++ e :: after ∧ e.answer.published? = some n ∧
    ∀ e' ∈ after, e'.call ≠ .clear ∧ e'.answer.published? = none

/-- Nothing was published since the beginning, or since the store was cleared. -/
def Bare (es : List Entry) : Prop :=
  ∃ before after, es = before ++ after ∧
    (before = [] ∨ ∃ e, before.getLast? = some e ∧ e.call = .clear) ∧
    ∀ e ∈ after, e.answer.published? = none

variable {es : List Entry} {e : Entry} {n : Nat}

theorem standing_append : Standing (es ++ [e]) n ↔ e.answer.published? = some n ∨
    e.call ≠ .clear ∧ e.answer.published? = none ∧ Standing es n := by
  constructor
  · rintro ⟨before, x, after, he, hx, ha⟩
    rcases List.eq_nil_or_concat after with rfl | ⟨after, y, rfl⟩
    · obtain ⟨-, he⟩ := List.append_inj' he rfl
      cases he
      exact .inl hx
    · rw [List.concat_eq_append, ← List.cons_append, ← List.append_assoc] at he
      obtain ⟨rfl, hy⟩ := List.append_inj' he rfl
      obtain rfl := List.singleton_inj.mp hy
      rw [List.concat_eq_append] at ha
      obtain ⟨hc, hp⟩ := ha e (by simp)
      exact .inr ⟨hc, hp, before, x, after, rfl, hx, fun e' he' => ha e' (by simp [he'])⟩
  · rintro (he | ⟨hc, hp, before, x, after, rfl, hx, ha⟩)
    · exact ⟨es, e, [], rfl, he, by simp⟩
    · refine ⟨before, x, after ++ [e], by simp, hx, fun e' he' => ?_⟩
      rcases List.mem_append.mp he' with he' | he'
      · exact ha e' he'
      · rw [List.mem_singleton.mp he']
        exact ⟨hc, hp⟩

theorem bare_append : Bare (es ++ [e]) ↔ e.call = .clear ∨
    e.answer.published? = none ∧ Bare es := by
  constructor
  · rintro ⟨before, after, he, hb, ha⟩
    rcases List.eq_nil_or_concat after with rfl | ⟨after, y, rfl⟩
    · rw [List.append_nil] at he
      subst he
      rcases hb with hb | ⟨x, hx, hc⟩
      · simp at hb
      · rw [List.getLast?_concat] at hx
        cases hx
        exact .inl hc
    · rw [List.concat_eq_append, ← List.append_assoc] at he
      obtain ⟨rfl, hy⟩ := List.append_inj' he rfl
      obtain rfl := List.singleton_inj.mp hy
      rw [List.concat_eq_append] at ha
      exact .inr ⟨ha e (by simp), before, after, rfl, hb, fun e' he' => ha e' (by simp [he'])⟩
  · rintro (hc | ⟨hp, before, after, rfl, hb, ha⟩)
    · exact ⟨es ++ [e], [], by simp, .inr ⟨e, by simp, hc⟩, by simp⟩
    · refine ⟨before, after ++ [e], by simp, hb, fun e' he' => ?_⟩
      rcases List.mem_append.mp he' with he' | he'
      · exact ha e' he'
      · rw [List.mem_singleton.mp he']
        exact hp

/-! ### What all runs have in common -/

/-- What is known of a store from its record.  The current configuration is the one published last,
and there is none if none was published; everything handed out was published. -/
structure Record (es : List Entry) (s : Store) : Prop where
  current_eq_some : ∀ n, s.current = some n ↔ Standing es n
  current_eq_none : s.current = none ↔ Bare es
  current_lt : ∀ n, s.current = some n → n < s.published.length
  handed_lt : ∀ e ∈ es, ∀ n, e.answer.handed? = some n → n < s.published.length

variable {s s' : Store} {w : Scene} {c : Call} {a : Answer}

theorem record_start : Record [] {} where
  current_eq_some n := by simp [Standing]
  current_eq_none := iff_of_true rfl ⟨[], [], rfl, .inl rfl, by simp⟩
  current_lt n h := by cases h
  handed_lt e he := by cases he

theorem Call.Leads.length_le (h : c.Leads w s a s') : s.published.length ≤ s'.published.length := by
  cases h with
  | published => simp [Store.publish]
  | _ => exact Nat.le_refl _

/-- What a call hands out is held by the store from then on. -/
theorem Call.Leads.handed_lt (h : c.Leads w s a s')
    (hs : ∀ n, s.current = some n → n < s.published.length) {n : Nat} (hn : a.handed? = some n) :
    n < s'.published.length := by
  cases h with
  | published ho hc ha =>
      rw [Answer.handed?_of_published? ha] at hn
      cases hn
      simp [Store.publish]
  | unchanged hc ha =>
      rw [ha] at hn
      cases hn
  | found => exact hs n hn
  | cleared => cases hn

/-- A call that publishes nothing leaves the current configuration as it is, unless it clears it. -/
theorem Call.Leads.eq_of_not_published (h : c.Leads w s a s') (hc : c ≠ .clear)
    (ha : a.published? = none) : s' = s := by
  cases h with
  | published ho hc' ha' =>
      rw [ha'] at ha
      cases ha
  | unchanged => rfl
  | found => rfl
  | cleared => exact absurd rfl hc

theorem Record.step (h : Record es s) (hl : c.Leads w s a s') : Record (es ++ [⟨w, c, a⟩]) s' where
  current_eq_some n := by
    rw [standing_append]
    cases hl with
    | published ho hc ha => simp [Store.publish, ha]
    | unchanged hc ha =>
        simp [Answer.published?_of_handed? ha, hc, h.current_eq_some n]
    | found => simp [Answer.published?, h.current_eq_some n]
    | cleared => simp [Answer.published?, Store.clear]
  current_eq_none := by
    rw [bare_append]
    cases hl with
    | published ho hc ha => simp [Store.publish, ha, hc]
    | unchanged hc ha =>
        simp [Answer.published?_of_handed? ha, hc, h.current_eq_none]
    | found => simp [Answer.published?, h.current_eq_none]
    | cleared => simp [Store.clear]
  current_lt n hn := by
    cases hl with
    | published ho hc ha =>
        cases hn
        simp [Store.publish]
    | unchanged | found => exact h.current_lt n hn
    | cleared => cases hn
  handed_lt e he n hn := by
    rcases List.mem_append.mp he with he | he
    · exact Nat.lt_of_lt_of_le (h.handed_lt e he n hn) hl.length_le
    · rw [List.mem_singleton.mp he] at hn
      exact hl.handed_lt h.current_lt hn

theorem Record.run (h : Record es s) (cs : List (Scene × Call)) :
    Record (es ++ (s.run cs).1) (s.run cs).2 := by
  induction cs generalizing es s with
  | nil =>
      rw [Store.run, List.append_nil]
      exact h
  | cons wc rest ih =>
      obtain ⟨w, c⟩ := wc
      have hr := ih (h.step (c.leads w s))
      rw [List.append_assoc] at hr
      exact hr

/-- **Every run keeps its record.** -/
theorem Store.run_record (cs : List (Scene × Call)) :
    Record (({} : Store).run cs).1 (({} : Store).run cs).2 :=
  record_start.run cs

/-! ### What was published stays as it was -/

theorem Call.Leads.held? (h : c.Leads w s a s') {conf : Configuration}
    (hn : s.held? n = some conf) : s'.held? n = some conf := by
  cases h with
  | published =>
      obtain ⟨hlt, -⟩ := List.getElem?_eq_some_iff.mp hn
      rw [Store.held?, Store.publish_eq, List.getElem?_append_left hlt]
      exact hn
  | _ => exact hn

theorem Store.run_held? {conf : Configuration} (hn : s.held? n = some conf)
    (cs : List (Scene × Call)) : (s.run cs).2.held? n = some conf := by
  induction cs generalizing s with
  | nil => exact hn
  | cons wc rest ih => exact ih ((wc.2.leads wc.1 s).held? hn)

/-! ### The result -/

/-- A call that publishes makes what it offers current, under the next number. -/
theorem Call.Leads.eq_of_published (h : c.Leads w s a s') (hn : a.published? = some n) :
    n = s.published.length ∧ ∃ conf, c.Offers w conf ∧ s' = (s.publish conf).2 := by
  cases h with
  | published ho hc ha =>
      rw [ha] at hn
      exact ⟨(Option.some.inj hn).symm, _, ho, rfl⟩
  | unchanged hc ha =>
      rw [Answer.published?_of_handed? ha] at hn
      cases hn
  | found => cases hn
  | cleared => cases hn

theorem Reading.format_of_ofContents {file contents : String} {now : Instant} {r : Reading}
    (h : ofContents file contents now = .ok r) :
    r.configuration.format = Format.ofFileName file := by
  obtain ⟨_, -, rfl⟩ := Except.map_eq_ok_iff.mp h
  rfl

/-- **Publication is atomic.**  Take any calls, one call more, and any calls behind it.

* What is current is what was published last since the store was cleared; there is no current
  configuration if nothing was.
* A call that publishes nothing, because it fails or for any other reason, changes nothing, unless
  it clears the store.
* What a call publishes is new and is current then; and unless it was given as a configuration, it
  is what the text that the call got to read says, in the format of the file.
* What a call hands out stays as it is through all calls behind it. -/
theorem Store.publication_atomic (before : List (Scene × Call)) (w : Scene) (c : Call)
    (after : List (Scene × Call)) :
    let past := Store.run {} before
    let next := c.perform w past.2
    let later := next.2.run after
    (∀ n, past.2.current = some n ↔ Standing past.1 n) ∧
    (past.2.current = none ↔ Bare past.1) ∧
    (c ≠ .clear → next.1.published? = none → next.2 = past.2) ∧
    (∀ n, next.1.published? = some n →
      (∀ e ∈ past.1, e.answer.handed? ≠ some n) ∧ next.2.current = some n ∧
      ∃ conf, next.2.held? n = some conf ∧
        (c = .publish conf ∨ ∃ path text r, c.Obtains w path text ∧
          Reading.ofContents (Path.nameForFormat path) text w.now = .ok r ∧
          r.configuration = conf ∧ conf.format = Format.ofFileName (Path.nameForFormat path))) ∧
    (∀ n, next.1.handed? = some n →
      ∃ conf, next.2.held? n = some conf ∧ later.2.held? n = some conf) := by
  intro past next later
  have hp : Record past.1 past.2 := Store.run_record before
  have hl : c.Leads w past.2 next.1 next.2 := c.leads w past.2
  refine ⟨hp.current_eq_some, hp.current_eq_none, hl.eq_of_not_published, ?_, ?_⟩
  · intro n hn
    obtain ⟨rfl, conf, ho, hs⟩ := hl.eq_of_published hn
    refine ⟨fun e he hh => Nat.lt_irrefl _ (hp.handed_lt e he _ hh), ?_, conf, ?_, ?_⟩
    · rw [hs, Store.publish_eq]
    · rw [hs, Store.publish_eq]
      exact List.getElem?_concat_length
    · cases ho with
      | publish => exact .inl rfl
      | reading ho hr => exact .inr ⟨_, _, _, ho, hr, rfl, Reading.format_of_ofContents hr⟩
  · intro n hn
    have hlt := hl.handed_lt hp.current_lt hn
    have hh : next.2.held? n = some next.2.published[n] := List.getElem?_eq_getElem hlt
    exact ⟨_, hh, Store.run_held? hh after⟩

/-- A load that fails leaves what was published before, and a cleared store has nothing. -/
example :
    let w : Scene := ⟨.empty, .empty, ⟨0, 0⟩⟩
    (Store.run {} [(w, .publish (.builtin ⟨0, 0⟩)), (w, .load "menu.yaml"), (w, .current),
      (w, .clear), (w, .current)]).1.map (·.answer.handed?) =
    [some 0, none, some 0, none, none] := rfl

end CommandMenu
