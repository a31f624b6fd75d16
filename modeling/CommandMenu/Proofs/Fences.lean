import Mathlib.Tactic.Push
import CommandMenu.Markdown.Fence
import CommandMenu.Proofs.Lines

/-! # The block of a Markdown document

The search for the block of a menu goes from marker to marker.  What it finds can be said without
it: number the marker lines of a document from zero and take each one with an even number together
with the next one; the block is the first such pair whose opening marker has the tag of a menu.

* `Marker.Describes` says which marker lines a text has, `Marker.IsPair` which of them are a pair.
* `Search.run_eq_some_iff` says that the search ends at the first pair with an accepted tag.
* `Block.find?_first_pair` says this of documents, and what the text of a block is. -/

namespace CommandMenu.Markdown

/-! ### Markers -/

/-- Whether the tag of a marker is one for menus: `yaml` or `yml` in letters of either case, or no
tag at all, with any white space around it.  No letter beyond ASCII has one of these letters in
lower case. -/
def IsMenuTag (tag : String) : Prop :=
  String.ofList ((Text.trim tag).toList.map Char.toLower) ∈ ["yaml", "yml", ""]

instance : DecidablePred IsMenuTag := fun _ => inferInstanceAs (Decidable (_ ∈ _))

theorem Marker.isAccepted_iff {m : Marker} : m.isAccepted = true ↔ IsMenuTag m.tag := by
  rw [isAccepted, List.contains_iff_mem, IsMenuTag, Text.trim, String.toList_ofList, acceptedTags]

/-- A marker describes a line of a text: three backticks at the start of the line, the rest of the
line as its tag, and the places at which the line starts and ends.  Only a line feed, or an end of
the text, bounds a line. -/
def Marker.Describes (text : String) (m : Marker) : Prop :=
  ∃ before after : String,
    text = before ++ String.ofList backticks ++ m.tag ++ after ∧
    (∀ c ∈ before.toList.getLast?, c = '\n') ∧ '\n' ∉ m.tag.toList ∧
    (∀ c ∈ after.toList.head?, c = '\n') ∧
    m.start = before.utf8ByteSize ∧
    m.stop = (before ++ String.ofList backticks ++ m.tag).utf8ByteSize

/-- The marker with a tag that starts at an offset. -/
def Marker.tagged (offset : Nat) (tag : List Char) : Marker :=
  ⟨offset, offset + Text.octets (backticks ++ tag), String.ofList tag⟩

namespace Marker

theorem ofLines_cons_marker (offset : Nat) (tag : List Char) (rest : List (List Char)) :
    ofLines offset ((backticks ++ tag) :: rest) =
      tagged offset tag :: ofLines (offset + Text.octets (backticks ++ tag) + 1) rest := by
  have hp : backticks.isPrefixOf (backticks ++ tag) = true :=
    List.isPrefixOf_iff_prefix.mpr (List.prefix_append _ _)
  rw [ofLines, if_pos hp, List.drop_left]
  rfl

theorem ofLines_cons_other {line : List Char} (h : ¬ backticks <+: line) (offset : Nat)
    (rest : List (List Char)) :
    ofLines offset (line :: rest) = ofLines (offset + Text.octets line + 1) rest := by
  rw [ofLines, if_neg fun hp => h (List.isPrefixOf_iff_prefix.mp hp)]

theorem octets_ended_cons (offset : Nat) (line : List Char) (ls : List (List Char)) :
    offset + Text.octets (Text.ended (line :: ls)) =
      offset + Text.octets line + 1 + Text.octets (Text.ended ls) := by
  rw [Text.ended_cons, Text.octets_append, Text.octets_line_feed]
  omega

theorem ofLines_append (offset : Nat) (as bs : List (List Char)) :
    ofLines offset (as ++ bs) =
      ofLines offset as ++ ofLines (offset + Text.octets (Text.ended as)) bs := by
  induction as generalizing offset with
  | nil => rfl
  | cons line rest ih =>
      have ho := octets_ended_cons offset line rest
      by_cases hp : backticks <+: line
      · obtain ⟨tag, rfl⟩ := hp
        rw [List.cons_append, ofLines_cons_marker, ofLines_cons_marker, ih, ho, List.cons_append]
      · rw [List.cons_append, ofLines_cons_other hp, ofLines_cons_other hp, ih, ho]

theorem ofLines_eq_nil_iff {offset : Nat} {ls : List (List Char)} :
    ofLines offset ls = [] ↔ ∀ line ∈ ls, ¬ backticks <+: line := by
  induction ls generalizing offset with
  | nil => simp [ofLines]
  | cons line rest ih =>
      by_cases hp : backticks <+: line
      · obtain ⟨tag, rfl⟩ := hp
        rw [ofLines_cons_marker]
        simp
      · rw [ofLines_cons_other hp, ih]
        simp [hp]

/-- Every marker has a line of its own among the lines, and the markers in front of it and behind
it are those of the lines in front of it and behind it. -/
theorem ofLines_eq_append {offset : Nat} {ls : List (List Char)} {as bs : List Marker}
    {m : Marker} (h : ofLines offset ls = as ++ m :: bs) :
    ∃ before tag after, ls = before ++ (backticks ++ tag) :: after ∧
      ofLines offset before = as ∧ m = tagged (offset + Text.octets (Text.ended before)) tag ∧
      ofLines (m.stop + 1) after = bs := by
  induction ls generalizing offset as with
  | nil => simp [ofLines] at h
  | cons line rest ih =>
      by_cases hp : backticks <+: line
      · obtain ⟨tag, rfl⟩ := hp
        rw [ofLines_cons_marker, List.cons_eq_append_iff] at h
        rcases h with ⟨rfl, he⟩ | ⟨as, rfl, ha⟩
        · obtain ⟨rfl, rfl⟩ := List.cons.inj he
          exact ⟨[], tag, rest, rfl, rfl, rfl, rfl⟩
        · obtain ⟨before, tag', after, rfl, rfl, hm, hb⟩ := ih ha
          refine ⟨(backticks ++ tag) :: before, tag', after, rfl, ofLines_cons_marker _ _ _, ?_, hb⟩
          rw [hm, octets_ended_cons]
      · rw [ofLines_cons_other hp] at h
        obtain ⟨before, tag, after, rfl, rfl, hm, hb⟩ := ih h
        refine ⟨line :: before, tag, after, rfl, ofLines_cons_other hp _ _, ?_, hb⟩
        rw [hm, octets_ended_cons]

theorem describes_of_mem {text : String} {m : Marker} (hm : m ∈ list text) : m.Describes text := by
  obtain ⟨as, bs, hl⟩ := List.append_of_mem hm
  obtain ⟨before, tag, after, hls, -, rfl, -⟩ := ofLines_eq_append hl
  obtain ⟨-, hn, rest, ht, hr⟩ := Text.eq_of_lines_eq hls
  refine ⟨String.ofList (Text.ended before), String.ofList rest, ?_, ?_, ?_, ?_, ?_, ?_⟩
  · rw [← String.toList_inj, ht]
    simp [tagged]
  · simpa using Text.getLast?_ended before
  · simpa [tagged, backticks] using hn
  · rcases hr with ⟨-, rfl⟩ | ⟨rest, rfl, -⟩ <;> simp
  · simp [tagged, Text.octets_eq]
  · simp [tagged, Text.octets_eq, Nat.add_assoc]

theorem mem_of_describes {text : String} {m : Marker} (h : m.Describes text) : m ∈ list text := by
  obtain ⟨before, after, rfl, hb, hn, ha, hs, he⟩ := h
  obtain ⟨ls, hls, hbe⟩ := Text.exists_ended hb
  have hn' : '\n' ∉ backticks ++ m.tag.toList := by simpa [backticks] using hn
  obtain ⟨rest, hl⟩ := Text.lines_append_of_head? hn' ha
  have ht : (before ++ String.ofList backticks ++ m.tag ++ after).toList =
      Text.ended ls ++ (backticks ++ m.tag.toList ++ after.toList) := by
    simp [hbe]
  have hm : m = tagged (0 + Text.octets (Text.ended ls)) m.tag.toList := by
    obtain ⟨start, stop, tag⟩ := m
    simp only at hs he
    simp [tagged, hs, he, ← hbe, Text.octets_eq, Nat.add_assoc]
  rw [list, ht, Text.lines_ended_append hls, hl, ofLines_append, ofLines_cons_marker, ← hm]
  simp

theorem pairwise_ofLines (offset : Nat) (ls : List (List Char)) :
    (∀ m ∈ ofLines offset ls, offset ≤ m.start) ∧
      (ofLines offset ls).Pairwise fun m n => m.stop < n.start := by
  induction ls generalizing offset with
  | nil => simp [ofLines]
  | cons line rest ih =>
      by_cases hp : backticks <+: line
      · obtain ⟨tag, rfl⟩ := hp
        obtain ⟨hs, hw⟩ := ih (offset + Text.octets (backticks ++ tag) + 1)
        rw [ofLines_cons_marker]
        refine ⟨List.forall_mem_cons.mpr ⟨Nat.le_refl _, fun m hm => ?_⟩, List.pairwise_cons.mpr
          ⟨fun m hm => ?_, hw⟩⟩
        · have := hs m hm
          omega
        · exact hs m hm
      · obtain ⟨hs, hw⟩ := ih (offset + Text.octets line + 1)
        rw [ofLines_cons_other hp]
        refine ⟨fun m hm => ?_, hw⟩
        have := hs m hm
        omega

end Marker

/-! ### Pairs -/

/-- The pair of markers with a number: one opens, and the next one closes. -/
def Marker.IsPair (text : String) (i : Nat) (opening closing : Marker) : Prop :=
  (Marker.list text)[2 * i]? = some opening ∧ (Marker.list text)[2 * i + 1]? = some closing

namespace Search

theorem run_pair (o c : Marker) (rest : List Marker) :
    run .outside (o :: c :: rest) =
      if o.isAccepted then some (o, c) else run .outside rest := by
  rw [run]
  split <;> rfl

/-- **The search ends at the first pair whose opening marker is accepted.** -/
theorem run_eq_some_iff : ∀ {ms : List Marker} {o c : Marker},
    run .outside ms = some (o, c) ↔
      ∃ i, ms[2 * i]? = some o ∧ ms[2 * i + 1]? = some c ∧ o.isAccepted = true ∧
        ∀ j < i, ∀ m, ms[2 * j]? = some m → m.isAccepted = false
  | [], o, c => by simp [run]
  | [m], o, c => by
      have hr : run .outside [m] = none := by
        rw [run]
        split <;> rfl
      rw [hr]
      simp
  | m :: n :: rest, o, c => by
      rw [run_pair]
      cases hm : m.isAccepted with
      | true =>
          rw [if_pos rfl, Option.some.injEq, Prod.mk.injEq]
          constructor
          · rintro ⟨rfl, rfl⟩
            exact ⟨0, rfl, rfl, hm, by simp⟩
          · rintro ⟨i, ho, hc, -, hf⟩
            cases i with
            | zero => exact ⟨Option.some.inj ho, Option.some.inj hc⟩
            | succ i => exact absurd (hf 0 (by omega) m rfl) (by simp [hm])
      | false =>
          rw [if_neg (by simp), run_eq_some_iff]
          constructor
          · rintro ⟨i, ho, hc, ha, hf⟩
            refine ⟨i + 1, ho, hc, ha, fun j hj x hx => ?_⟩
            cases j with
            | zero =>
                have hmx : m = x := Option.some.inj hx
                rw [← hmx]
                exact hm
            | succ j => exact hf j (by omega) x hx
          · rintro ⟨i, ho, hc, ha, hf⟩
            cases i with
            | zero => simp [← Option.some.inj ho, hm] at ha
            | succ i => exact ⟨i, ho, hc, ha, fun j hj x hx => hf (j + 1) (by omega) x hx⟩

end Search

namespace Block

/-- The block that a pair of markers bounds. -/
def between (text : String) (opening closing : Marker) : Block :=
  ⟨opening.tag, opening.stop, closing.start, Text.slice text opening.stop closing.start⟩

theorem find?_eq_some_iff {text : String} {b : Block} :
    find? text = some b ↔ ∃ i o c, Marker.IsPair text i o c ∧ IsMenuTag o.tag ∧
      (∀ j < i, ∀ o' c', Marker.IsPair text j o' c' → ¬ IsMenuTag o'.tag) ∧
      b = between text o c := by
  have hr : find? text = some b ↔
      ∃ o c, Search.run .outside (Marker.list text) = some (o, c) ∧ b = between text o c := by
    rw [find?, Option.map_eq_some_iff]
    simp only [Prod.exists, between, eq_comm]
  simp only [hr, Search.run_eq_some_iff]
  constructor
  · rintro ⟨o, c, ⟨i, ho, hc, ha, hf⟩, rfl⟩
    refine ⟨i, o, c, ⟨ho, hc⟩, Marker.isAccepted_iff.mp ha, fun j hj o' c' hp hm => ?_, rfl⟩
    exact absurd (Marker.isAccepted_iff.mpr hm) (by simp [hf j hj o' hp.1])
  · rintro ⟨i, o, c, ⟨ho, hc⟩, ha, hf, rfl⟩
    refine ⟨o, c, ⟨i, ho, hc, Marker.isAccepted_iff.mpr ha, fun j hj m hm => ?_⟩, rfl⟩
    -- the marker that closes the pair is there since a later one is
    have hl := (List.getElem?_eq_some_iff.mp ho).1
    have hp : Marker.IsPair text j m _ := ⟨hm, List.getElem?_eq_getElem (by omega)⟩
    exact Bool.eq_false_iff.mpr fun hma => hf j hj _ _ hp (Marker.isAccepted_iff.mp hma)

/-- There is a block as soon as some pair of markers bounds one. -/
theorem isSome_find?_iff {text : String} :
    (find? text).isSome = true ↔ ∃ i o c, Marker.IsPair text i o c ∧ IsMenuTag o.tag := by
  constructor
  · intro h
    obtain ⟨b, hb⟩ := Option.isSome_iff_exists.mp h
    obtain ⟨i, o, c, hp, ha, -, -⟩ := find?_eq_some_iff.mp hb
    exact ⟨i, o, c, hp, ha⟩
  · rintro ⟨i, o, c, hp, ha⟩
    induction i using Nat.strongRecOn generalizing o c with
    | ind i ih =>
        by_cases hf : ∀ j < i, ∀ o' c', Marker.IsPair text j o' c' → ¬ IsMenuTag o'.tag
        · exact Option.isSome_iff_exists.mpr
            ⟨_, find?_eq_some_iff.mpr ⟨i, o, c, hp, ha, hf, rfl⟩⟩
        · push Not at hf
          obtain ⟨j, hj, o', c', hp', ha'⟩ := hf
          exact ih j hj o' c' hp' ha'

theorem find?_eq_none {text : String} (h : Marker.list text = []) : find? text = none := by
  rw [find?, h, Search.run]
  rfl

/-- Between the markers of a pair stand lines that are no markers. -/
theorem exists_lines_of_pair {text : String} {i : Nat} {o c : Marker}
    (h : Marker.IsPair text i o c) :
    ∃ before ls after, text.toList = before ++ ('\n' :: Text.ended ls ++ after) ∧
      o.stop = Text.octets before ∧ c.start = Text.octets (before ++ '\n' :: Text.ended ls) ∧
      (∀ line ∈ ls, '\n' ∉ line) ∧ ∀ line ∈ ls, ¬ backticks <+: line := by
  have hl : Marker.list text =
      (Marker.list text).take (2 * i) ++ o :: c :: (Marker.list text).drop (2 * i + 2) := by
    obtain ⟨ho, rfl⟩ := List.getElem?_eq_some_iff.mp h.1
    obtain ⟨hc, rfl⟩ := List.getElem?_eq_some_iff.mp h.2
    rw [← List.drop_eq_getElem_cons hc, ← List.drop_eq_getElem_cons ho, List.take_append_drop]
  obtain ⟨before, tag, after, hls, -, rfl, ha⟩ := Marker.ofLines_eq_append hl
  obtain ⟨inner, tag', after', rfl, hi, hc, -⟩ :=
    Marker.ofLines_eq_append (ha.trans (List.nil_append _).symm)
  obtain ⟨-, -, rest, ht, ⟨hr, -⟩ | ⟨rest, rfl, hr⟩⟩ := Text.eq_of_lines_eq hls
  · simp at hr
  · obtain ⟨hn, -, rest', rfl, -⟩ := Text.eq_of_lines_eq hr
    refine ⟨Text.ended before ++ (backticks ++ tag), inner, backticks ++ tag' ++ rest', ?_, ?_, ?_,
      hn, Marker.ofLines_eq_nil_iff.mp hi⟩
    · rw [ht]
      simp
    · simp [Marker.tagged, Text.octets_append]
    · rw [hc]
      simp only [Marker.tagged, Text.octets_append, Text.octets_line_feed, Nat.zero_add]
      omega

/-- A block stands in a text: its place is that of its own text, which goes from a line feed to a
line feed and has no marker lines. -/
structure StandsIn (text : String) (b : Block) : Prop where
  place : ∃ before after : String, text = before ++ b.body ++ after ∧
    b.start = before.utf8ByteSize ∧ b.stop = (before ++ b.body).utf8ByteSize
  head : b.body.toList.head? = some '\n'
  last : b.body.toList.getLast? = some '\n'
  lines : ∀ line ∈ Text.lines b.body.toList, ¬ backticks <+: line

theorem standsIn_of_pair {text : String} {i : Nat} {o c : Marker}
    (h : Marker.IsPair text i o c) : StandsIn text (between text o c) := by
  obtain ⟨before, ls, after, ht, hs, he, hn, hl⟩ := exists_lines_of_pair h
  have hb : between text o c = ⟨o.tag, Text.octets before,
      Text.octets (before ++ '\n' :: Text.ended ls), String.ofList ('\n' :: Text.ended ls)⟩ := by
    rw [between, hs, he, ← Text.slice_append before _ after, ← ht, String.ofList_toList]
  rw [hb]
  refine ⟨⟨String.ofList before, String.ofList after, ?_, Text.octets_eq _, ?_⟩, ?_, ?_, ?_⟩
  · rw [← String.toList_inj, ht]
    simp
  · show Text.octets _ = (String.ofList before ++ String.ofList _).utf8ByteSize
    rw [← String.ofList_append, Text.octets_eq]
  · simp
  · rw [String.toList_ofList, Text.getLast?_line_feed_ended]
  · rw [String.toList_ofList, Text.lines_line_feed_ended hn]
    intro line hline
    simp only [List.mem_cons, List.mem_append, List.not_mem_nil, or_false] at hline
    rcases hline with rfl | hline | rfl
    · simp [backticks]
    · exact hl line hline
    · simp [backticks]

theorem standsIn_of_find? {text : String} {b : Block} (h : find? text = some b) :
    b.StandsIn text := by
  obtain ⟨i, o, c, hp, -, -, rfl⟩ := find?_eq_some_iff.mp h
  exact standsIn_of_pair hp

namespace StandsIn

variable {text : String} {b : Block}

theorem start_lt_stop (h : StandsIn text b) : b.start < b.stop := by
  obtain ⟨before, after, -, hs, he⟩ := h.place
  have hn : b.body.utf8ByteSize ≠ 0 := fun h0 => by
    have hh := h.head
    rw [String.utf8ByteSize_eq_zero_iff.mp h0] at hh
    cases hh
  rw [hs, he, String.utf8ByteSize_append]
  omega

theorem stop_le (h : StandsIn text b) : b.stop ≤ text.utf8ByteSize := by
  obtain ⟨before, after, rfl, -, he⟩ := h.place
  rw [he, String.utf8ByteSize_append (s := before ++ b.body)]
  omega

theorem find?_body (h : StandsIn text b) : find? b.body = none :=
  find?_eq_none (Marker.ofLines_eq_nil_iff.mpr h.lines)

end StandsIn

/-- **The block of a document is its first pair of markers with the tag of a menu.**  Its text is
what stands between the two lines, and holds no further block. -/
theorem find?_first_pair (text : String) :
    (∀ m, m ∈ Marker.list text ↔ m.Describes text) ∧
    ((Marker.list text).Pairwise fun m n => m.stop < n.start) ∧
    ((find? text).isSome = true ↔ ∃ i o c, Marker.IsPair text i o c ∧ IsMenuTag o.tag) ∧
    ∀ b, find? text = some b →
      (∃ i o c, Marker.IsPair text i o c ∧ IsMenuTag o.tag ∧
        (∀ j < i, ∀ o' c', Marker.IsPair text j o' c' → ¬ IsMenuTag o'.tag) ∧
        b.tag = o.tag ∧ b.start = o.stop ∧ b.stop = c.start) ∧
      b.start < b.stop ∧ b.stop ≤ text.utf8ByteSize ∧ b.StandsIn text ∧ find? b.body = none := by
  refine ⟨fun m => ⟨Marker.describes_of_mem, Marker.mem_of_describes⟩,
    (Marker.pairwise_ofLines _ _).2, isSome_find?_iff, fun b hb => ?_⟩
  obtain ⟨i, o, c, hp, hm, hf, rfl⟩ := find?_eq_some_iff.mp hb
  have hs := standsIn_of_pair hp
  exact ⟨⟨i, o, c, hp, hm, hf, rfl, rfl, rfl⟩, hs.start_lt_stop, hs.stop_le, hs, hs.find?_body⟩

/-- The second block of a document whose first one is tagged for something else. -/
theorem find?_first_pair_js :
    ∃ b, find? "```js\n```\n```yaml\n- a:b\n```\n" = some b ∧ b.tag = "yaml" ∧
      b.body = "\n- a:b\n" ∧ b.start = 17 ∧ b.stop = 24 ∧
      b.StandsIn "```js\n```\n```yaml\n- a:b\n```\n" ∧ find? b.body = none := by
  have hb : find? "```js\n```\n```yaml\n- a:b\n```\n" =
      some ⟨"yaml", 17, 24, "\n- a:b\n"⟩ := by decide +kernel
  have h := (find?_first_pair _).2.2.2 _ hb
  exact ⟨_, hb, rfl, rfl, rfl, rfl, h.2.2.2.1, h.2.2.2.2⟩

end Block
end CommandMenu.Markdown
