import CommandMenu.Text.Octets
import CommandMenu.Text.Parts

/-! # Lines of a text and places in it

* `Text.octets_eq` says that octets are counted as the encoding of a text has them, and
  `Text.slice_append` that a slice is what stands between its places.
* `Text.ended` is the text of some lines with a line feed behind each of them.
* `Text.lines_ended_append` reads such lines back, `Text.eq_of_lines_eq` takes a text apart at one
  of its lines, and `Text.exists_ended` is for texts that end with a line. -/

namespace CommandMenu.Text

/-! ### Octets -/

theorem octets_append (as bs : List Char) : octets (as ++ bs) = octets as + octets bs := by
  induction as with
  | nil => simp [octets]
  | cons c cs ih => rw [List.cons_append, octets, octets, ih, Nat.add_assoc]

theorem octets_line_feed (cs : List Char) : octets ('\n' :: cs) = octets cs + 1 :=
  Nat.add_comm 1 _

theorem octets_eq (cs : List Char) : octets cs = (String.ofList cs).utf8ByteSize := by
  induction cs with
  | nil => rfl
  | cons c cs ih =>
      rw [octets, ih]
      simp

/-- No character is without octets, so the places behind the first character are told from it. -/
theorem octets_cons_eq (c : Char) (cs : List Char) :
    ∃ n, octets (c :: cs) = n + 1 ∧ n + 1 - c.utf8Size = octets cs := by
  have hc := c.utf8Size_pos
  exact ⟨octets (c :: cs) - 1, by rw [octets]; omega, by rw [octets]; omega⟩

theorem dropOctets_append (as bs : List Char) : dropOctets (octets as) (as ++ bs) = bs := by
  induction as with
  | nil => simp [octets, dropOctets]
  | cons c cs ih =>
      obtain ⟨n, hn, hr⟩ := octets_cons_eq c cs
      rw [hn, List.cons_append, dropOctets, hr, ih]
      simp

theorem takeOctets_append (as bs : List Char) : takeOctets (octets as) (as ++ bs) = as := by
  induction as with
  | nil => simp [octets, takeOctets]
  | cons c cs ih =>
      obtain ⟨n, hn, hr⟩ := octets_cons_eq c cs
      rw [hn, List.cons_append, takeOctets, hr, ih]
      simp

/-- A slice is what stands between its places. -/
theorem slice_append (as bs cs : List Char) :
    slice (String.ofList (as ++ (bs ++ cs))) (octets as) (octets (as ++ bs)) = String.ofList bs := by
  rw [slice, String.toList_ofList, dropOctets_append, octets_append, Nat.add_sub_cancel_left,
    takeOctets_append]

/-! ### Lines -/

theorem split_eq_splitOn (mark : Char) (cs : List Char) : split mark cs = cs.splitOn mark := by
  induction cs with
  | nil => rfl
  | cons c cs ih =>
      rw [split, ih, List.splitOn_cons_eq_if_modifyHead]
      cases hs : cs.splitOn mark with
      | nil => exact absurd hs (List.splitOn_ne_nil _ _)
      | cons part rest => simp

theorem lines_append (as bs : List Char) : lines (as ++ '\n' :: bs) = lines as ++ lines bs := by
  simp only [lines, split_eq_splitOn, List.splitOn_append_cons_self]

theorem lines_ne_nil (cs : List Char) : lines cs ≠ [] := by
  rw [lines, split_eq_splitOn]
  exact List.splitOn_ne_nil _ _

theorem lines_of_not_mem {cs : List Char} (h : '\n' ∉ cs) : lines cs = [cs] := by
  rw [lines, split_eq_splitOn]
  exact List.splitOn_eq_singleton h

theorem lines_append_of_not_mem {as : List Char} (h : '\n' ∉ as) (bs : List Char) :
    ∃ first rest, lines bs = first :: rest ∧ lines (as ++ bs) = (as ++ first) :: rest := by
  by_cases hn : '\n' ∈ bs
  · obtain ⟨cs, ds, rfl, hc⟩ := List.eq_append_cons_of_mem hn
    refine ⟨cs, lines ds, ?_, ?_⟩
    · rw [lines_append, lines_of_not_mem hc]
      rfl
    · rw [← List.append_assoc, lines_append, lines_of_not_mem (by simp [h, hc])]
      rfl
  · exact ⟨bs, [], lines_of_not_mem hn, lines_of_not_mem (by simp [h, hn])⟩

/-- A text without line feeds is a line by itself if a line ends behind it. -/
theorem lines_append_of_head? {as bs : List Char} (ha : '\n' ∉ as)
    (hb : ∀ c ∈ bs.head?, c = '\n') : ∃ rest, lines (as ++ bs) = as :: rest := by
  cases bs with
  | nil => exact ⟨[], by rw [List.append_nil, lines_of_not_mem ha]⟩
  | cons c cs =>
      obtain rfl : c = '\n' := hb c rfl
      exact ⟨lines cs, by rw [lines_append, lines_of_not_mem ha]; rfl⟩

theorem eq_of_lines_eq_cons {cs line : List Char} {after : List (List Char)}
    (h : lines cs = line :: after) :
    '\n' ∉ line ∧ (after = [] ∧ cs = line ∨ ∃ rest, cs = line ++ '\n' :: rest ∧ lines rest = after) := by
  by_cases hn : '\n' ∈ cs
  · obtain ⟨as, bs, rfl, ha⟩ := List.eq_append_cons_of_mem hn
    rw [lines_append, lines_of_not_mem ha] at h
    obtain ⟨rfl, rfl⟩ := List.cons.inj h
    exact ⟨ha, .inr ⟨bs, rfl, rfl⟩⟩
  · rw [lines_of_not_mem hn] at h
    obtain ⟨rfl, rfl⟩ := List.cons.inj h
    exact ⟨hn, .inl ⟨rfl, rfl⟩⟩

/-- Lines with a line feed behind each of them. -/
def ended (ls : List (List Char)) : List Char := ls.flatMap (· ++ ['\n'])

theorem ended_cons (line : List Char) (ls : List (List Char)) :
    ended (line :: ls) = line ++ '\n' :: ended ls := by
  simp [ended]

theorem getLast?_ended (ls : List (List Char)) : ∀ c ∈ (ended ls).getLast?, c = '\n' := by
  rcases List.eq_nil_or_concat ls with rfl | ⟨before, line, rfl⟩
  · simp [ended]
  · simp [ended]

theorem lines_ended_append {ls : List (List Char)} (h : ∀ line ∈ ls, '\n' ∉ line)
    (cs : List Char) : lines (ended ls ++ cs) = ls ++ lines cs := by
  induction ls with
  | nil => rfl
  | cons line ls ih =>
      obtain ⟨hl, hr⟩ := List.forall_mem_cons.mp h
      rw [ended_cons, List.append_assoc, List.cons_append, lines_append, lines_of_not_mem hl, ih hr]
      rfl

theorem lines_ended {ls : List (List Char)} (h : ∀ line ∈ ls, '\n' ∉ line) :
    lines (ended ls) = ls ++ [[]] := by
  rw [← List.append_nil (ended ls), lines_ended_append h]
  rfl

theorem lines_line_feed_ended {ls : List (List Char)} (h : ∀ line ∈ ls, '\n' ∉ line) :
    lines ('\n' :: ended ls) = [] :: (ls ++ [[]]) := by
  have hl := lines_ended (List.forall_mem_cons.mpr ⟨List.not_mem_nil, h⟩)
  rwa [ended_cons, List.nil_append] at hl

theorem getLast?_line_feed_ended (ls : List (List Char)) :
    ('\n' :: ended ls).getLast? = some '\n' := by
  rw [List.getLast?_cons]
  cases hl : (ended ls).getLast? with
  | none => rfl
  | some c => rw [getLast?_ended ls c hl, Option.getD_some]

/-- Everything in front of a line is lines that are ended, and everything behind it is the lines
that follow. -/
theorem eq_of_lines_eq {cs line : List Char} {before after : List (List Char)}
    (h : lines cs = before ++ line :: after) :
    (∀ l ∈ before, '\n' ∉ l) ∧ '\n' ∉ line ∧ ∃ rest, cs = ended before ++ line ++ rest ∧
      (after = [] ∧ rest = [] ∨ ∃ rest', rest = '\n' :: rest' ∧ lines rest' = after) := by
  induction before generalizing cs with
  | nil =>
      obtain ⟨hn, ⟨rfl, rfl⟩ | ⟨rest, rfl, hr⟩⟩ := eq_of_lines_eq_cons h
      · exact ⟨by simp, hn, [], by simp [ended], .inl ⟨rfl, rfl⟩⟩
      · exact ⟨by simp, hn, _, by simp [ended], .inr ⟨rest, rfl, hr⟩⟩
  | cons first before ih =>
      obtain ⟨hn, ⟨ha, -⟩ | ⟨rest, rfl, hr⟩⟩ := eq_of_lines_eq_cons h
      · simp at ha
      · obtain ⟨hb, hl, more, rfl, hm⟩ := ih hr
        exact ⟨List.forall_mem_cons.mpr ⟨hn, hb⟩, hl, more, by simp [ended_cons], hm⟩

/-- A text that is empty or ends with a line feed is lines that are all ended. -/
theorem exists_ended {cs : List Char} (h : ∀ c ∈ cs.getLast?, c = '\n') :
    ∃ ls, (∀ line ∈ ls, '\n' ∉ line) ∧ cs = ended ls := by
  rcases List.eq_nil_or_concat cs with rfl | ⟨as, c, rfl⟩
  · exact ⟨[], by simp, rfl⟩
  · obtain rfl : c = '\n' := h c (by simp)
    have he : lines (as ++ ['\n']) = lines as ++ [[]] := lines_append as []
    obtain ⟨hb, -, rest, hc, ⟨-, rfl⟩ | ⟨rest', -, hr⟩⟩ := eq_of_lines_eq he
    · exact ⟨lines as, hb, by simpa using hc⟩
    · exact absurd hr (lines_ne_nil rest')

end CommandMenu.Text
