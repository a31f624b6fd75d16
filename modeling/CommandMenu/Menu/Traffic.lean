import CommandMenu.Menu.Store

/-! # Loads that overlap

A file may be written while loads of it go on.  Every load reads the contents of the file first and
publishes them later, and what others do in between is open.

* `Traffic` are the files, the store and the loads so far.
* `Traffic.Step` is what may happen at a point of time, and `Traffic.Run` what may happen in a row.
* `Traffic.load_alone` and `Traffic.reload_alone` say that a load in which nothing comes in between
  is `Store.load` or `Store.reloadIfStale`.
-/

namespace CommandMenu

/-- How far a load is. -/
inductive Load where
  | waiting
  | holding (text : String)
  | finished
deriving DecidableEq, Repr

/-- The files, the store, and all loads in the order in which they began. -/
structure Traffic where
  files : Source
  store : Store := {}
  loads : List Load := []

namespace Traffic

/-! ### Steps -/

/-- What happens: the file is written, a load begins, or a load with a number goes on. -/
inductive Event where
  | write (text : String)
  | load
  | reload
  | read (number : Nat)
  | publish (number : Nat)
deriving DecidableEq, Repr

/-- What an event at a point of time makes of the files, the store and the loads.  A load that cannot
read the file ends, and a reload does not begin unless the file has changed. -/
inductive Step (path : String) (now : Instant) : Event → Traffic → Traffic → Prop
  | write (s : Traffic) (text : String) :
      Step path now (.write text) s { s with files := s.files.write path text now }
  | load (s : Traffic) : Step path now .load s { s with loads := s.loads ++ [.waiting] }
  | reload {s : Traffic} (h : s.store.isStale s.files path = .ok true) :
      Step path now .reload s { s with loads := s.loads ++ [.waiting] }
  | skip {s : Traffic} (h : s.store.isStale s.files path ≠ .ok true) : Step path now .reload s s
  | read {s : Traffic} {number : Nat} {text : String} (hl : s.loads[number]? = some .waiting)
      (hc : s.files.contents path = .ok text) :
      Step path now (.read number) s { s with loads := s.loads.set number (.holding text) }
  | fail {s : Traffic} {number : Nat} {cause : ReadFailure} (hl : s.loads[number]? = some .waiting)
      (hc : s.files.contents path = .error cause) :
      Step path now (.read number) s { s with loads := s.loads.set number .finished }
  | publish {s : Traffic} {number : Nat} {text : String}
      (hl : s.loads[number]? = some (.holding text)) :
      Step path now (.publish number) s
        { s with store := (s.store.apply path text now).2,
                 loads := s.loads.set number .finished }

/-- What has happened since nothing was published, each event at a later time than those before. -/
inductive Run (path : String) (files : Source) : List (Instant × Event) → Traffic → Prop
  | start : Run path files [] { files }
  | step {es : List (Instant × Event)} {now : Instant} {e : Event} {s s' : Traffic}
      (hr : Run path files es s) (ht : ∀ x ∈ es, x.1.before now = true)
      (hs : Step path now e s s') : Run path files (es ++ [(now, e)]) s'

/-! ### Loads in which nothing comes in between -/

section Alone

variable {path text : String} {s : Traffic} (t t' t'' : Instant)

/-- A load that has begun reads and publishes. -/
theorem finish_alone (hc : s.files.contents path = .ok text) :
    ∃ s₁ s₂, Step path t (.read s.loads.length) { s with loads := s.loads ++ [.waiting] } s₁ ∧
      Step path t' (.publish s.loads.length) s₁ s₂ ∧
      s₂.store = (s.store.load s.files path t').2 := by
  have hw : (s.loads ++ [.waiting])[s.loads.length]? = some .waiting := by simp
  have hh : ((s.loads ++ [Load.waiting]).set s.loads.length (.holding text))[s.loads.length]? =
      some (.holding text) := by simp
  refine ⟨_, _, .read hw hc, .publish hh, ?_⟩
  rw [Store.load, hc]

theorem load_alone (hc : s.files.contents path = .ok text) :
    ∃ s₁ s₂ s₃, Step path t .load s s₁ ∧ Step path t' (.read s.loads.length) s₁ s₂ ∧
      Step path t'' (.publish s.loads.length) s₂ s₃ ∧
      s₃.store = (s.store.load s.files path t'').2 := by
  obtain ⟨s₂, s₃, hr, hp, hs⟩ := finish_alone t' t'' hc
  exact ⟨_, s₂, s₃, .load s, hr, hp, hs⟩

theorem reload_alone (h : s.store.isStale s.files path = .ok true)
    (hc : s.files.contents path = .ok text) :
    ∃ s₁ s₂ s₃, Step path t .reload s s₁ ∧ Step path t' (.read s.loads.length) s₁ s₂ ∧
      Step path t'' (.publish s.loads.length) s₂ s₃ ∧
      s₃.store = (s.store.reloadIfStale s.files path t'').2 := by
  obtain ⟨s₂, s₃, hr, hp, hs⟩ := finish_alone t' t'' hc
  refine ⟨_, s₂, s₃, .reload h, hr, hp, ?_⟩
  rw [hs, Store.reloadIfStale, h]

end Alone

end Traffic
end CommandMenu
