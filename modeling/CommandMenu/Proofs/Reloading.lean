import CommandMenu.Proofs.Agreement
import CommandMenu.Proofs.Skipping

/-! # Reloading a file that stays as it is

A file is reloaded again and again while it stays as it is.  If its time is known and has come, all is
decided by the first reload: a file that it could publish is not read again, and one that it could not
publish is tried again by every reload, until it can be loaded.  If its time is not known, every
reload reads it.

* `Rereads` says that a reload reads the file, and `rereads_of_stale` when it does.
* `Steady` says that a file stays as it is during calls, and that nothing else is published.
* `Steady.repeats` says that a reload that changes nothing is repeated by all calls behind it.
* `Converges` lists how reloading a file goes, and `Store.reloads_converge` is the result. -/

namespace CommandMenu

/-! ### A file in the same state -/

/-- Two sources have a file in the same state: they give the same text and the same time for it, or
fail in the same way. -/
structure Source.SameAt (path : String) (files others : Source) : Prop where
  contents : files.contents path = others.contents path
  modified : files.modified path = others.modified path

variable {path : String} {files others : Source} {s : Store} {now : Instant}

theorem Source.SameAt.isStale_eq (h : files.SameAt path others) (s : Store) :
    s.isStale files path = s.isStale others path := by
  rw [Store.isStale, Store.isStale, h.modified]

theorem Source.SameAt.reloadIfStale_eq (h : files.SameAt path others) (s : Store) (now : Instant) :
    s.reloadIfStale files path now = s.reloadIfStale others path now := by
  have hl : s.load files path now = s.load others path now := by
    rw [Store.load, Store.load, h.contents]
  rw [Store.reloadIfStale, Store.reloadIfStale, h.isStale_eq, hl]

/-! ### What one reload does -/

namespace Store

theorem isStale_of_known {conf : Configuration} {time : Instant} (hs : s.current? = some conf)
    (hm : files.modified path = .ok (some time)) :
    s.isStale files path = .ok (conf.updatedAt.before time) := by
  simp only [isStale, hs, hm]

/-- A file whose time is not known counts as changed, whatever is current. -/
theorem isStale_of_unknown (hm : files.modified path = .ok none) :
    s.isStale files path = .ok true := by
  unfold isStale
  cases s.current? with
  | none => rfl
  | some conf => simp only [hm]

theorem isStale_of_error {conf : Configuration} {cause : ReadFailure} (hs : s.current? = some conf)
    (hm : files.modified path = .error cause) :
    s.isStale files path = .error (.unreadable cause) := by
  simp only [isStale, hs, hm]

theorem reloadIfStale_of_ok {r : Reading} (hs : s.isStale files path = .ok true)
    (hr : Command.readMenu files path now = .ok r) : s.reloadIfStale files path now =
      (.ok (some s.published.length), (s.publish r.configuration).2) := by
  simp only [reloadIfStale, hs, Command.load_of_ok hr]
  rfl

theorem reloadIfStale_of_refused {f : Fault} (hs : s.isStale files path = .ok true)
    (hf : Command.readMenu files path now = .error f) :
    s.reloadIfStale files path now = (.error f, s) := by
  simp only [reloadIfStale, hs, Command.load_of_error hf]
  rfl

theorem reloadIfStale_of_error {f : Fault} (hs : s.isStale files path = .error f) :
    s.reloadIfStale files path now = (.error f, s) := by
  rw [reloadIfStale, hs]

end Store

theorem Call.perform_reloadIfStale {w : Scene} {s' : Store} {result : Except Fault (Option Nat)}
    (h : s.reloadIfStale w.source path w.now = (result, s')) :
    (Call.reloadIfStale path).perform w s = (.reloaded result, s') := by
  simp only [perform, h]

/-- A reload reads the file: it publishes what the file says, under a new number, or it fails as
reading the file does and changes nothing. -/
def Rereads (path : String) (w : Scene) (s : Store) : Prop :=
  match Command.readMenu w.source path w.now with
  | .ok r => (Call.reloadIfStale path).perform w s =
      (.reloaded (.ok (some s.published.length)), (s.publish r.configuration).2)
  | .error f => (Call.reloadIfStale path).perform w s = (.reloaded (.error f), s)

theorem rereads_of_stale {w : Scene} (hs : s.isStale w.source path = .ok true) :
    Rereads path w s := by
  unfold Rereads
  cases hr : Command.readMenu w.source path w.now with
  | ok r => exact Call.perform_reloadIfStale (Store.reloadIfStale_of_ok hs hr)
  | error f => exact Call.perform_reloadIfStale (Store.reloadIfStale_of_refused hs hr)

/-! ### Calls during which the file stays as it is -/

/-- During some calls a file stays as it is, and nothing is published but by reloading it. -/
structure Steady (path : String) (files : Source) (es : List Entry) : Prop where
  same : ∀ e ∈ es, e.scene.source.SameAt path files
  quiet : ∀ e ∈ es, e.call = .reloadIfStale path ∨
    e.call ≠ .clear ∧ e.answer.published? = none

/-- Calls leave a store as it is, one after the other; whether the file has changed is always answered
in the same way, and so is every reload. -/
structure Repeats (path : String) (stale : Except Fault Bool) (result : Except Fault (Option Nat))
    (s : Store) (calls : List (Scene × Call)) : Prop where
  store : ∀ n, (s.run (calls.take n)).2 = s
  checked : ∀ e ∈ (s.run calls).1, e.call = .isStale path → e.answer = .checked stale
  reloaded : ∀ e ∈ (s.run calls).1, e.call = .reloadIfStale path → e.answer = .reloaded result

theorem Store.run_cons (s : Store) (w : Scene) (c : Call) (rest : List (Scene × Call)) :
    s.run ((w, c) :: rest) = (⟨w, c, (c.perform w s).1⟩ :: ((c.perform w s).2.run rest).1,
      ((c.perform w s).2.run rest).2) := rfl

theorem Repeats.run_eq {stale : Except Fault Bool} {result : Except Fault (Option Nat)}
    {calls : List (Scene × Call)} (h : Repeats path stale result s calls) : (s.run calls).2 = s := by
  have hall := h.store calls.length
  rw [List.take_length] at hall
  exact hall

/-- **A reload that changes nothing is repeated** by all calls behind it during which the file stays
as it is. -/
theorem Steady.repeats {stale : Except Fault Bool} {result : Except Fault (Option Nat)}
    {calls : List (Scene × Call)} (h : Steady path files (s.run calls).1)
    (hs : s.isStale files path = stale)
    (hr : ∀ now, s.reloadIfStale files path now = (result, s)) :
    Repeats path stale result s calls := by
  induction calls with
  | nil =>
      refine ⟨?_, ?_, ?_⟩
      · intro n
        rw [List.take_nil]
        rfl
      · intro e he
        cases he
      · intro e he
        cases he
  | cons wc rest ih =>
      obtain ⟨w, c⟩ := wc
      rw [Store.run_cons] at h
      have hfile : w.source.SameAt path files := h.same _ List.mem_cons_self
      have hcheck : (Call.isStale path).perform w s = (.checked stale, s) := by
        simp only [Call.perform, hfile.isStale_eq, hs]
      have hreload : (Call.reloadIfStale path).perform w s = (.reloaded result, s) :=
        Call.perform_reloadIfStale ((hfile.reloadIfStale_eq s w.now).trans (hr w.now))
      have hnext : (c.perform w s).2 = s := by
        rcases h.quiet _ List.mem_cons_self with hc | ⟨hc, hp⟩
        · have hc : c = .reloadIfStale path := hc
          rw [hc, hreload]
        · exact (c.leads w s).eq_of_not_published hc hp
      rw [hnext] at h
      have hrest : Repeats path stale result s rest :=
        ih ⟨fun e he => h.same e (List.mem_cons_of_mem _ he),
          fun e he => h.quiet e (List.mem_cons_of_mem _ he)⟩
      have hrun : s.run ((w, c) :: rest) =
          (⟨w, c, (c.perform w s).1⟩ :: (s.run rest).1, (s.run rest).2) := by
        rw [Store.run_cons, hnext]
      constructor
      · intro n
        cases n with
        | zero => rfl
        | succ n =>
            rw [List.take_succ_cons, Store.run_cons, hnext]
            exact hrest.store n
      · rw [hrun]
        intro e he hc
        rcases List.mem_cons.mp he with rfl | he
        · have hc : c = .isStale path := hc
          rw [hc, hcheck]
        · exact hrest.checked e he hc
      · rw [hrun]
        intro e he hc
        rcases List.mem_cons.mp he with rfl | he
        · have hc : c = .reloadIfStale path := hc
          rw [hc, hreload]
        · exact hrest.reloaded e he hc

/-- Calls that only reload a file which stays as it is are steady, wherever they start. -/
theorem steady_of_reloads {calls : List (Scene × Call)}
    (h : ∀ wc ∈ calls, wc.2 = .reloadIfStale path ∧ wc.1.source.SameAt path files) (s : Store) :
    Steady path files (s.run calls).1 := by
  have hcalls : ∀ e ∈ (s.run calls).1,
      e.call = .reloadIfStale path ∧ e.scene.source.SameAt path files := by
    induction calls generalizing s with
    | nil =>
        intro e he
        cases he
    | cons wc rest ih =>
        obtain ⟨w, c⟩ := wc
        intro e he
        rw [Store.run_cons] at he
        rcases List.mem_cons.mp he with rfl | he
        · exact h (w, c) List.mem_cons_self
        · exact ih (fun wc hwc => h wc (List.mem_cons_of_mem _ hwc)) _ e he
  exact ⟨fun e he => (hcalls e he).2, fun e he => .inl (hcalls e he).1⟩

/-! ### The result -/

/-- How reloading a file goes whose time is known, from the first reload on: the current
configuration is as new as the file and stays current; or it is replaced by what the file says; or the
file is newer and cannot be loaded.  It is loaded by the next reload then, as soon as it can be. -/
inductive Converges (s : Store) (conf : Configuration) (path : String) (time : Instant)
    (first : Scene) (calls : List (Scene × Call)) : Prop
  | fresh (htime : conf.updatedAt.before time = false)
      (hfirst : (Call.reloadIfStale path).perform first s = (.reloaded (.ok none), s))
      (hlater : Repeats path (.ok false) (.ok none) s calls)
  | replaced (htime : conf.updatedAt.before time = true) {r : Reading}
      (hr : Command.readMenu first.source path first.now = .ok r)
      (hfirst : (Call.reloadIfStale path).perform first s =
        (.reloaded (.ok (some s.published.length)), (s.publish r.configuration).2))
      (hlater : Repeats path (.ok false) (.ok none) (s.publish r.configuration).2 calls)
  | pending (htime : conf.updatedAt.before time = true) {f : Fault}
      (hf : ∀ now, Command.readMenu first.source path now = .error f)
      (hfirst : (Call.reloadIfStale path).perform first s = (.reloaded (.error f), s))
      (hlater : Repeats path (.ok true) (.error f) s calls)
      (hnext : ∀ (w : Scene) (time' : Instant), w.source.modified path = .ok (some time') →
        time'.before time = false → Rereads path w (s.run calls).2)

theorem Store.converges {conf : Configuration} {time : Instant} {first : Scene}
    {calls : List (Scene × Call)} (hs : s.current? = some conf)
    (hm : first.source.modified path = .ok (some time)) (hnow : first.now.before time = false)
    (h : Steady path first.source
      (((Call.reloadIfStale path).perform first s).2.run calls).1) :
    Converges s conf path time first calls := by
  have hstale : s.isStale first.source path = .ok (conf.updatedAt.before time) :=
    isStale_of_known hs hm
  cases htime : conf.updatedAt.before time with
  | false =>
      rw [htime] at hstale
      have hskip : ∀ now, s.reloadIfStale first.source path now = (.ok none, s) :=
        reloadIfStale_of_not_stale hstale
      have hfirst := Call.perform_reloadIfStale (hskip first.now)
      rw [hfirst] at h
      exact .fresh htime hfirst (h.repeats hstale hskip)
  | true =>
      rw [htime] at hstale
      rcases Command.readMenu_cases first.source path with ⟨f, hf⟩ | ⟨_, _, _, _, -, -, hr⟩
      · have hfail : ∀ now, s.reloadIfStale first.source path now = (.error f, s) := fun now =>
          reloadIfStale_of_refused hstale (hf now)
        have hfirst := Call.perform_reloadIfStale (hfail first.now)
        rw [hfirst] at h
        have hlater : Repeats path (.ok true) (.error f) s calls := h.repeats hstale hfail
        refine .pending htime hf hfirst hlater ?_
        intro w time' hm' htime'
        rw [hlater.run_eq]
        apply rereads_of_stale
        rw [isStale_of_known hs hm', Instant.before_of_before_of_not_before htime htime']
      · obtain ⟨r, hread, hbuilt⟩ : ∃ r, Command.readMenu first.source path first.now = .ok r ∧
            r.configuration.updatedAt = first.now := ⟨_, hr first.now, rfl⟩
        have hfirst := Call.perform_reloadIfStale (reloadIfStale_of_ok hstale hread)
        rw [hfirst] at h
        -- what was published was built by the clock of the first reload
        have hfresh : (s.publish r.configuration).2.isStale first.source path = .ok false := by
          rw [isStale_of_known (current?_publish s _) hm, hbuilt, hnow]
        exact .replaced htime hread hfirst
          (h.repeats hfresh (reloadIfStale_of_not_stale hfresh))

/-- **Reloading converges, and a rejected update stays pending.**  Take a store with a current
configuration, a reload of a file, and calls behind it during which the file stays as it is and
nothing is published but by reloading it.

* If the time of the file is known and is not later than the clock at the first reload, reloading
  converges.
* If the time is not known, every reload reads the file, whatever is current.
* If the time cannot be asked for, every reload fails and nothing changes.
* To ask whether a file has changed changes nothing. -/
theorem Store.reloads_converge {conf : Configuration} (hs : s.current? = some conf)
    (first : Scene) (path : String) (calls : List (Scene × Call))
    (h : Steady path first.source
      (((Call.reloadIfStale path).perform first s).2.run calls).1) :
    (∀ time, first.source.modified path = .ok (some time) → first.now.before time = false →
      Converges s conf path time first calls) ∧
    (first.source.modified path = .ok none → ∀ (w : Scene) (s' : Store),
      w.source.SameAt path first.source → Rereads path w s') ∧
    (∀ cause, first.source.modified path = .error cause →
      (Call.reloadIfStale path).perform first s = (.reloaded (.error (.unreadable cause)), s) ∧
      Repeats path (.error (.unreadable cause)) (.error (.unreadable cause)) s calls) ∧
    ∀ (w : Scene) (s' : Store) (path' : String), ((Call.isStale path').perform w s').2 = s' := by
  refine ⟨fun time hm hnow => converges hs hm hnow h, ?_, ?_, fun w s' path' => rfl⟩
  · intro hm w s' hw
    apply rereads_of_stale
    rw [isStale_of_unknown (hw.modified.trans hm)]
  · intro cause hm
    have hstale := isStale_of_error hs hm
    have hfail : ∀ now, s.reloadIfStale first.source path now = (.error (.unreadable cause), s) :=
      fun now => reloadIfStale_of_error hstale
    have hfirst := Call.perform_reloadIfStale (hfail first.now)
    rw [hfirst] at h
    exact ⟨hfirst, h.repeats hstale hfail⟩

/-- A file that was written at the third second and holds no menu, and a clock. -/
def rejectedAt (now : Instant) : Scene :=
  ⟨Source.empty.write "menu.yaml" "7\n" ⟨3, 0⟩, .empty, now⟩

/-- A rejected file is tried again, also by a clock that was set back, and is loaded when it holds a
menu, although its time is the same. -/
theorem Store.reloads_converge_rejected :
    let s := (({} : Store).publish (.builtin ⟨1, 0⟩)).2
    let reload := Call.reloadIfStale "menu.yaml"
    let calls := [(rejectedAt ⟨9, 0⟩, reload), (rejectedAt ⟨2, 0⟩, reload)]
    Steady "menu.yaml" (rejectedAt ⟨5, 0⟩).source
      ((reload.perform (rejectedAt ⟨5, 0⟩) s).2.run calls).1 ∧
    ∃ f, reload.perform (rejectedAt ⟨5, 0⟩) s = (.reloaded (.error f), s) ∧
      (∀ e ∈ (s.run calls).1, e.call = reload → e.answer = .reloaded (.error f)) ∧
      (s.run calls).2 = s ∧
      (reload.perform fifthSecond (s.run calls).2).1 = .reloaded (.ok (some 1)) := by
  intro s reload calls
  have hs : s.current? = some (.builtin ⟨1, 0⟩) := current?_publish {} _
  have hm : (rejectedAt ⟨5, 0⟩).source.modified "menu.yaml" = .ok (some ⟨3, 0⟩) :=
    Source.modified_write _ _ _ _
  have hsteady : Steady "menu.yaml" (rejectedAt ⟨5, 0⟩).source
      ((reload.perform (rejectedAt ⟨5, 0⟩) s).2.run calls).1 := by
    apply steady_of_reloads
    intro wc hwc
    simp only [calls, List.mem_cons, List.not_mem_nil, or_false] at hwc
    rcases hwc with rfl | rfl
    · exact ⟨rfl, rfl, rfl⟩
    · exact ⟨rfl, rfl, rfl⟩
  refine ⟨hsteady, ?_⟩
  cases (reloads_converge hs (rejectedAt ⟨5, 0⟩) "menu.yaml" calls hsteady).1 _ hm (by decide) with
  | fresh htime => exact absurd htime (by decide)
  | replaced _ hr =>
      have hno : (Command.readMenu (rejectedAt ⟨5, 0⟩).source "menu.yaml" ⟨5, 0⟩).isOk = false := by
        decide +kernel
      have hread : Command.readMenu (rejectedAt ⟨5, 0⟩).source "menu.yaml" ⟨5, 0⟩ = .ok _ := hr
      rw [hread] at hno
      cases hno
  | pending _ _ hfirst hlater hnext =>
      have hab : Command.readMenu fifthSecond.source "menu.yaml" fifthSecond.now = .ok _ :=
        Command.readMenu_write (s := "a:b") (c := ⟨"a:b", none⟩) (by decide +kernel)
          (by decide +kernel) (by decide) Source.empty ⟨3, 0⟩ ⟨5, 0⟩
      have hloads := hnext fifthSecond ⟨3, 0⟩ (Source.modified_write _ _ _ _) (by decide)
      simp only [Rereads, hab] at hloads
      refine ⟨_, hfirst, hlater.reloaded, hlater.run_eq, ?_⟩
      rw [hloads, hlater.run_eq]
      rfl

end CommandMenu
