import CommandMenu.Proofs.CommandText

/-! # The first word of a text

* `Text.FirstWord` says what the first word of a text is, and what follows it.
* `Text.exists_firstWord` finds one in every text that holds more than white space, and
  `Text.FirstWord.eq_firstWord` says that there is no other.
* `Text.trimmed?_append` and `Text.trim_trim` say that white space at the ends of a text does not
  count for what trimming leaves. -/

namespace CommandMenu.Text

/-- A list of characters that holds nothing but white space. -/
def AllBlank (cs : List Char) : Prop := ∀ c ∈ cs, isBlank c = true

theorem allBlank_nil : AllBlank [] := List.forall_mem_nil _

/-- The first word of a text is what stands behind the white space at its start, up to the next white
space. -/
structure FirstWord (cs word after : List Char) : Prop where
  start : ∃ lead, AllBlank lead ∧ cs = lead ++ (word ++ after)
  ne_nil : word ≠ []
  visible : ∀ c ∈ word, isBlank c = false
  apart : ∀ c ∈ after.head?, isBlank c = true

variable {cs lead trail word after : List Char}

theorem allBlank_of_not_hasText {s : String} (h : hasText s = false) : AllBlank s.toList := by
  intro c hc
  have hb := List.any_eq_false.mp h c hc
  simpa using hb

/-! ### Trimming -/

theorem trimStart_append (h : AllBlank lead) (cs : List Char) :
    trimStart (lead ++ cs) = trimStart cs := List.dropWhile_append_of_pos h

theorem trimEnd_append (cs : List Char) (h : AllBlank trail) : trimEnd (cs ++ trail) = trimEnd cs := by
  have hr : ∀ c ∈ trail.reverse, isBlank c = true := fun c hc => h c (List.mem_reverse.mp hc)
  rw [trimEnd, List.reverse_append, List.dropWhile_append_of_pos hr, trimEnd]

theorem trimEnd_append_of_visible (hv : ∀ c ∈ word, isBlank c = false) (cs : List Char) :
    trimEnd (word ++ cs) = word ++ trimEnd cs := by
  have hw : word.reverse.dropWhile isBlank = word.reverse := by
    refine List.dropWhile_eq_self_iff.mpr fun hl hb => ?_
    have hm := hv _ (List.mem_reverse.mp (List.getElem_mem hl))
    rw [hm] at hb
    cases hb
  rw [trimEnd, List.reverse_append, List.dropWhile_append, hw, trimEnd]
  split
  · next he => rw [List.isEmpty_iff.mp he, List.reverse_reverse, List.reverse_nil, List.append_nil]
  · rw [List.reverse_append, List.reverse_reverse]

/-- Trimming takes away nothing but white space. -/
theorem exists_trimEnd (cs : List Char) : ∃ trail, AllBlank trail ∧ cs = trimEnd cs ++ trail := by
  refine ⟨(cs.reverse.takeWhile isBlank).reverse, ?_, ?_⟩
  · intro c hc
    exact List.mem_takeWhile_imp (List.mem_reverse.mp hc)
  · rw [trimEnd, ← List.reverse_append, List.takeWhile_append_dropWhile, List.reverse_reverse]

theorem trimChars_append_left (h : AllBlank lead) (cs : List Char) :
    trimChars (lead ++ cs) = trimChars cs := by
  rw [trimChars, trimStart_append h, trimChars]

theorem trimChars_append_right (cs : List Char) (h : AllBlank trail) :
    trimChars (cs ++ trail) = trimChars cs := by
  have ht : trimStart trail = [] := List.dropWhile_eq_nil_iff.mpr h
  have hs : trimStart (cs ++ trail) =
      if (trimStart cs).isEmpty then trimStart trail else trimStart cs ++ trail :=
    List.dropWhile_append
  rw [trimChars, hs, trimChars]
  split
  · next he => rw [ht, List.isEmpty_iff.mp he]
  · exact trimEnd_append _ h

theorem trimmed?_append (h : AllBlank lead) (h' : AllBlank trail) (cs : List Char) :
    trimmed? (String.ofList (lead ++ (cs ++ trail))) = trimmed? (String.ofList cs) := by
  simp only [trimmed?, trim, String.toList_ofList, trimChars_append_left h,
    trimChars_append_right cs h']

theorem trimmed?_trimEnd (cs : List Char) :
    trimmed? (String.ofList (trimEnd cs)) = trimmed? (String.ofList cs) := by
  obtain ⟨trail, ht, hcs⟩ := exists_trimEnd cs
  have h := trimmed?_append allBlank_nil ht (trimEnd cs)
  rw [List.nil_append, ← hcs] at h
  exact h.symm

theorem trimmed?_of_allBlank (h : AllBlank cs) : trimmed? (String.ofList cs) = none := by
  rw [Option.eq_none_iff_forall_ne_some]
  intro t ht
  obtain ⟨rfl, hn⟩ := trimmed?_eq_some_iff.mp ht
  exact hn (by rw [trim, String.toList_ofList, trimChars_eq_nil_of_blank h])

/-! ### First words -/

namespace FirstWord

theorem trimChars_eq (h : FirstWord cs word after) : trimChars cs = word ++ trimEnd after := by
  obtain ⟨lead, hl, rfl⟩ := h.start
  obtain ⟨c, rest, hw⟩ := List.exists_cons_of_ne_nil h.ne_nil
  have hc : ¬ isBlank c = true := by
    have := h.visible c (by simp [hw])
    simp [this]
  have hs : trimStart (word ++ after) = word ++ after := by
    rw [hw, List.cons_append, trimStart, List.dropWhile_cons_of_neg hc]
  rw [trimChars, trimStart_append hl, hs, trimEnd_append_of_visible h.visible]

/-- What trimming leaves of the text behind the first word still begins with white space. -/
theorem head_trimEnd (h : FirstWord cs word after) : ∀ c ∈ (trimEnd after).head?, isBlank c = true := by
  intro c hc
  obtain ⟨trail, -, ha⟩ := exists_trimEnd after
  refine h.apart c ?_
  rw [ha, List.head?_append, Option.mem_def.mp hc]
  rfl

theorem takeWhile_visible {rest : List Char} (hv : ∀ c ∈ word, isBlank c = false)
    (hr : ∀ c ∈ rest.head?, isBlank c = true) :
    (word ++ rest).takeWhile (fun c => !isBlank c) = word ∧
      (word ++ rest).dropWhile (fun c => !isBlank c) = rest := by
  have hw : ∀ c ∈ word, (!isBlank c) = true := fun c hc => by rw [hv c hc]; rfl
  rw [List.takeWhile_append_of_pos hw, List.dropWhile_append_of_pos hw]
  cases rest with
  | nil => simp
  | cons c rest => simp [hr c rfl]

/-- **A text has one first word.** -/
theorem eq_firstWord {s : String} (h : FirstWord s.toList word after) :
    firstWord s = word ∧ afterFirstWord s = trimEnd after := by
  rw [firstWord, afterFirstWord, h.trimChars_eq]
  exact takeWhile_visible h.visible h.head_trimEnd

end FirstWord

/-- A text that is more than white space has a first word. -/
theorem exists_firstWord (h : trimChars cs ≠ []) : ∃ word after, FirstWord cs word after := by
  have hs : trimStart cs ≠ [] := by
    intro hs
    rw [trimChars, hs] at h
    exact h rfl
  refine ⟨(trimStart cs).takeWhile fun c => !isBlank c, (trimStart cs).dropWhile fun c => !isBlank c,
    ⟨cs.takeWhile isBlank, fun c hc => List.mem_takeWhile_imp hc, ?_⟩, ?_, ?_, ?_⟩
  · rw [List.takeWhile_append_dropWhile, trimStart, List.takeWhile_append_dropWhile]
  · -- what is left of the text at its start begins with a visible character
    obtain ⟨c, rest, hc⟩ := List.exists_cons_of_ne_nil hs
    have hf : cs.find? (fun c => !isBlank c) = some c := by
      rw [List.find?_not_eq_head?_dropWhile, ← trimStart, hc, List.head?_cons]
    rw [hc, List.takeWhile_cons_of_pos (List.find?_some hf)]
    exact List.cons_ne_nil _ _
  · intro c hc
    simpa using List.mem_takeWhile_imp hc
  · intro c hc
    rw [← List.find?_not_eq_head?_dropWhile] at hc
    simpa using List.find?_some hc

theorem trimEnd_trimEnd (cs : List Char) : trimEnd (trimEnd cs) = trimEnd cs := by
  obtain ⟨trail, hb, hcs⟩ := exists_trimEnd cs
  have h := trimEnd_append (trimEnd cs) hb
  rw [← hcs] at h
  exact h.symm

theorem trim_trim (s : String) : trim (trim s) = trim s := by
  have hc : trimChars (trimChars s.toList) = trimChars s.toList := by
    by_cases hn : trimChars s.toList = []
    · rw [hn]
      rfl
    · obtain ⟨word, after, h⟩ := exists_firstWord hn
      have h' : FirstWord (trimChars s.toList) word (trimEnd after) :=
        ⟨⟨[], allBlank_nil, h.trimChars_eq⟩, h.ne_nil, h.visible, h.head_trimEnd⟩
      rw [h'.trimChars_eq, trimEnd_trimEnd, ← h.trimChars_eq]
  rw [trim, trim, String.toList_ofList, hc]

end CommandMenu.Text
