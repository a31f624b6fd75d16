import CommandMenu.Proofs.Words
import CommandMenu.Text.Pattern

/-! # The grammar of command texts

A command text is recognised by its first word.  One may as well write it as a pattern: a name that
needs no colon, or a word with a colon, and behind white space whatever follows.  The pattern may fit
in several ways, but all of them read the same.

* `CommandText.pattern` is the pattern, and `CommandText.captured?` is what its first way reads.
* `CommandText.ofText?_eq_captured?` says that this is what a command text is split into.
* `CommandText.ofText?_eq_some_iff` says the same with the first word of the text.
* `CommandText.ofText?_firstWord` collects what holds of all texts: what they are split into, and
  that the parts are split in the same way when they are put together again. -/

namespace CommandMenu.CommandText

open Text (AllBlank FirstWord Pattern)
open Text.Pattern

/-! ### The pattern -/

/-- The pattern of a command: a name that needs no colon, or a word with a colon. -/
def idPattern : Pattern :=
  .either (.anyOf (legacyNames.map fun name => .literal name.toList))
    (.both (.many fun c => !Text.isBlank c)
      (.both (.one fun c => c == ':') (.many fun c => !Text.isBlank c)))

/-- The pattern of what follows a command: white space and anything behind it, or nothing. -/
def namePattern : Pattern :=
  .optional (.both (.several Text.isBlank) (.named "name" (.many fun _ => true)))

/-- The pattern of a command text without white space at its ends. -/
def pattern : Pattern := .both (.named "id" idPattern) (.both namePattern .stop)

/-- The command that a way of the pattern reads.  A name does not count if it is blank. -/
def ofWay? (w : Way) : Option CommandText :=
  (w.part? "id").map fun id =>
    ⟨String.ofList id, (w.part? "name").bind fun name => Text.trimmed? (String.ofList name)⟩

/-- The command that the first way of the pattern reads in a text. -/
def captured? (s : String) : Option CommandText :=
  (pattern.ways (Text.trimChars s.toList)).head?.bind ofWay?

/-! ### What the pattern takes -/

theorem visible_of_mem_legacyNames :
    ∀ name ∈ legacyNames, ∀ c ∈ name.toList, Text.isBlank c = false := by
  have h : (legacyNames.all fun name => name.toList.all fun c => !Text.isBlank c) = true := by decide
  intro name hname c hc
  have hn := List.all_eq_true.mp h name hname
  simpa using List.all_eq_true.mp hn c hc

theorem isCommand_iff {word : List Char} :
    isCommand word = true ↔ String.ofList word ∈ legacyNames ∨ ':' ∈ word := by
  simp [isCommand]

theorem mem_ways_idPattern {w : Way} {cs : List Char} : w ∈ idPattern.ways cs ↔
    ∃ id left, cs = id ++ left ∧ (∀ c ∈ id, Text.isBlank c = false) ∧ isCommand id = true ∧
      w = ⟨id, left, []⟩ := by
  refine mem_ways_either.trans ⟨?_, ?_⟩
  · rintro (h | h)
    · obtain ⟨p, hp, hw⟩ := mem_ways_anyOf.mp h
      obtain ⟨name, hname, rfl⟩ := List.mem_map.mp hp
      obtain ⟨left, rfl, rfl⟩ := mem_ways_literal.mp hw
      have hc : isCommand name.toList = true := isCommand_iff.mpr (.inl (by simpa using hname))
      exact ⟨_, left, rfl, visible_of_mem_legacyNames name hname, hc, rfl⟩
    · obtain ⟨u, hu, v, hv, rfl⟩ := mem_ways_both.mp h
      obtain ⟨before, left, rfl, hb, rfl⟩ := mem_ways_many.mp hu
      obtain ⟨x, hx, y, hy, rfl⟩ := mem_ways_both.mp hv
      obtain ⟨c, left, rfl, hc, rfl⟩ := mem_ways_one.mp hx
      obtain ⟨after, left, rfl, ha, rfl⟩ := mem_ways_many.mp hy
      obtain rfl : c = ':' := beq_iff_eq.mp hc
      refine ⟨before ++ ':' :: after, left, by simp, ?_, isCommand_iff.mpr (.inr (by simp)), by simp⟩
      intro d hd
      rcases List.mem_append.mp hd with hd | hd
      · simpa using hb d hd
      · rcases List.mem_cons.mp hd with rfl | hd
        · decide
        · simpa using ha d hd
  · rintro ⟨id, left, rfl, hv, hc, rfl⟩
    rcases isCommand_iff.mp hc with hname | hcolon
    · refine .inl (mem_ways_anyOf.mpr ⟨_, List.mem_map.mpr ⟨_, hname, rfl⟩, ?_⟩)
      exact mem_ways_literal.mpr ⟨left, by simp, by simp⟩
    · obtain ⟨before, after, rfl⟩ := List.append_of_mem hcolon
      have hb : ∀ c ∈ before, (!Text.isBlank c) = true := fun c hc => by simp [hv c (by simp [hc])]
      have ha : ∀ c ∈ after, (!Text.isBlank c) = true := fun c hc => by simp [hv c (by simp [hc])]
      have hbefore : ⟨before, ':' :: (after ++ left), []⟩ ∈
          (many fun c => !Text.isBlank c).ways (before ++ ':' :: after ++ left) :=
        mem_ways_many.mpr ⟨before, _, by simp, hb, rfl⟩
      have hone : ⟨[':'], after ++ left, []⟩ ∈
          (one fun c => c == ':').ways (':' :: (after ++ left)) :=
        mem_ways_one.mpr ⟨':', _, rfl, by simp, rfl⟩
      have hafter : ⟨after, left, []⟩ ∈ (many fun c => !Text.isBlank c).ways (after ++ left) :=
        mem_ways_many.mpr ⟨after, left, rfl, ha, rfl⟩
      have hword := mem_ways_both.mpr ⟨_, hone, _, hafter, rfl⟩
      exact .inr (mem_ways_both.mpr ⟨_, hbefore, _, hword, by simp⟩)

theorem mem_ways_namePattern_stop {w : Way} {cs : List Char} :
    w ∈ (Pattern.both namePattern .stop).ways cs ↔ cs = [] ∧ w = ⟨[], [], []⟩ ∨
      ∃ gap name, cs = gap ++ name ∧ gap ≠ [] ∧ AllBlank gap ∧ w = ⟨cs, [], [("name", name)]⟩ := by
  refine mem_ways_both.trans ⟨?_, ?_⟩
  · rintro ⟨u, hu, v, hv, rfl⟩
    obtain ⟨hl, rfl⟩ := mem_ways_stop.mp hv
    rcases mem_ways_optional.mp hu with h | rfl
    · obtain ⟨x, hx, y, hy, rfl⟩ := mem_ways_both.mp h
      obtain ⟨gap, left, rfl, hn, hb, rfl⟩ := mem_ways_several.mp hx
      obtain ⟨z, hz, rfl⟩ := mem_ways_named.mp hy
      obtain ⟨name, left, rfl, -, rfl⟩ := mem_ways_many.mp hz
      obtain rfl : left = [] := hl
      exact .inr ⟨gap, name, by simp, hn, hb, by simp⟩
    · obtain rfl : cs = [] := hl
      exact .inl ⟨rfl, rfl⟩
  · rintro (⟨rfl, rfl⟩ | ⟨gap, name, rfl, hn, hb, rfl⟩)
    · exact ⟨⟨[], [], []⟩, mem_ways_optional.mpr (.inr rfl), ⟨[], [], []⟩,
        mem_ways_stop.mpr ⟨rfl, rfl⟩, rfl⟩
    · have hgap : ⟨gap, name, []⟩ ∈ (several Text.isBlank).ways (gap ++ name) :=
        mem_ways_several.mpr ⟨gap, name, rfl, hn, hb, rfl⟩
      have hall : ⟨name, [], []⟩ ∈ (many fun _ => true).ways name :=
        mem_ways_many.mpr ⟨name, [], by simp, by simp, rfl⟩
      have hname : ⟨name, [], [("name", name)]⟩ ∈ (named "name" (many fun _ => true)).ways name :=
        mem_ways_named.mpr ⟨_, hall, rfl⟩
      have hboth : ⟨gap ++ name, [], [("name", name)]⟩ ∈ namePattern.ways (gap ++ name) :=
        mem_ways_optional.mpr (.inl (mem_ways_both.mpr ⟨_, hgap, _, hname, rfl⟩))
      exact ⟨_, hboth, _, mem_ways_stop.mpr ⟨rfl, rfl⟩, by simp⟩

/-! ### What its ways read -/

theorem ofWay?_id (taken left id : List Char) :
    ofWay? ⟨taken, left, [("id", id)]⟩ = some ⟨String.ofList id, none⟩ := by
  simp [ofWay?, Way.part?, List.lookup_cons]

theorem ofWay?_id_name (taken left id name : List Char) :
    ofWay? ⟨taken, left, [("id", id), ("name", name)]⟩ =
      some ⟨String.ofList id, Text.trimmed? (String.ofList name)⟩ := by
  simp [ofWay?, Way.part?, List.lookup_cons]

/-- The first word of a trimmed text, and what follows it, are what any way of the pattern takes them
for. -/
theorem ofWay?_of_mem {s : String} {w : Way} (h : w ∈ pattern.ways (Text.trimChars s.toList)) :
    isCommand (Text.firstWord s) = true ∧
      ofWay? w = some ⟨String.ofList (Text.firstWord s),
        Text.trimmed? (String.ofList (Text.afterFirstWord s))⟩ := by
  obtain ⟨u, hu, v, hv, rfl⟩ := mem_ways_both.mp h
  obtain ⟨x, hx, rfl⟩ := mem_ways_named.mp hu
  obtain ⟨id, after, hcs, hvisible, hcommand, rfl⟩ := mem_ways_idPattern.mp hx
  -- behind the command there is nothing or white space, so that the command is the whole first word
  have hw (hr : ∀ c ∈ after.head?, Text.isBlank c = true) :
      Text.firstWord s = id ∧ Text.afterFirstWord s = after := by
    rw [Text.firstWord, Text.afterFirstWord, hcs]
    exact FirstWord.takeWhile_visible hvisible hr
  rcases mem_ways_namePattern_stop.mp hv with ⟨hn, rfl⟩ | ⟨gap, name, ha, hn, hb, rfl⟩
  · obtain rfl : after = [] := hn
    obtain ⟨hid, hafter⟩ := hw (by simp)
    rw [hid, hafter, Text.trimmed?_of_allBlank Text.allBlank_nil]
    exact ⟨hcommand, ofWay?_id _ _ _⟩
  · obtain rfl : after = gap ++ name := ha
    obtain ⟨c, gap, rfl⟩ := List.exists_cons_of_ne_nil hn
    obtain ⟨hid, hafter⟩ := hw (by simpa using hb c)
    have ht : Text.trimmed? (String.ofList (c :: gap ++ name)) = Text.trimmed? (String.ofList name) := by
      have h := Text.trimmed?_append hb Text.allBlank_nil name
      rw [List.append_nil] at h
      exact h
    rw [hid, hafter, ht]
    exact ⟨hcommand, ofWay?_id_name _ _ _ _⟩

theorem exists_mem_ways {s : String} (h : isCommand (Text.firstWord s) = true) :
    ∃ w, w ∈ pattern.ways (Text.trimChars s.toList) := by
  have hcs : Text.trimChars s.toList = Text.firstWord s ++ Text.afterFirstWord s :=
    List.takeWhile_append_dropWhile.symm
  have hvisible : ∀ c ∈ Text.firstWord s, Text.isBlank c = false := by
    intro c hc
    simpa using List.mem_takeWhile_imp hc
  have hword := mem_ways_idPattern.mpr ⟨_, _, hcs, hvisible, h, rfl⟩
  have hid : ⟨Text.firstWord s, Text.afterFirstWord s, [("id", Text.firstWord s)]⟩ ∈
      (named "id" idPattern).ways (Text.trimChars s.toList) := mem_ways_named.mpr ⟨_, hword, rfl⟩
  cases ha : Text.afterFirstWord s with
  | nil =>
      have hstop : ⟨[], [], []⟩ ∈ (both namePattern stop).ways (Text.afterFirstWord s) :=
        mem_ways_namePattern_stop.mpr (.inl ⟨ha, rfl⟩)
      exact ⟨_, mem_ways_both.mpr ⟨_, hid, _, hstop, rfl⟩⟩
  | cons c name =>
      have hc : Text.isBlank c = true := by
        have hf := List.find?_not_eq_head?_dropWhile (fun c => !Text.isBlank c)
          (Text.trimChars s.toList)
        rw [← Text.afterFirstWord, ha] at hf
        simpa using List.find?_some hf
      have hname : ⟨c :: name, [], [("name", name)]⟩ ∈
          (both namePattern stop).ways (Text.afterFirstWord s) :=
        mem_ways_namePattern_stop.mpr
          (.inr ⟨[c], name, ha, by simp, by simpa [AllBlank] using hc, by rw [ha]⟩)
      exact ⟨_, mem_ways_both.mpr ⟨_, hid, _, hname, rfl⟩⟩

/-- **A command text is split into what the first way of the pattern reads.** -/
theorem ofText?_eq_captured? (s : String) : ofText? s = captured? s := by
  rw [ofText?_eq, captured?]
  cases hw : pattern.ways (Text.trimChars s.toList) with
  | nil =>
      have hc : ¬ isCommand (Text.firstWord s) = true := by
        intro hc
        obtain ⟨w, hm⟩ := exists_mem_ways hc
        rw [hw] at hm
        cases hm
      rw [if_neg hc]
      rfl
  | cons w ws =>
      obtain ⟨hc, hr⟩ := ofWay?_of_mem (s := s) (w := w) (hw ▸ List.mem_cons_self)
      rw [if_pos hc, List.head?_cons, Option.bind_some, hr]

/-- A command text is split into its first word, which must be a command, and into what trimming
leaves behind it. -/
theorem ofText?_eq_some_iff {s : String} {c : CommandText} : ofText? s = some c ↔
    ∃ word after, FirstWord s.toList word after ∧
      (String.ofList word ∈ legacyNames ∨ ':' ∈ word) ∧
      c = ⟨String.ofList word, Text.trimmed? (String.ofList after)⟩ := by
  rw [ofText?_eq]
  constructor
  · intro h
    split at h
    · next hc =>
        have hn : Text.trimChars s.toList ≠ [] := by
          intro hn
          rw [Text.firstWord, hn, List.takeWhile_nil, isCommand_nil] at hc
          cases hc
        obtain ⟨word, after, hf⟩ := Text.exists_firstWord hn
        obtain ⟨hword, hafter⟩ := hf.eq_firstWord
        rw [hword, hafter, Text.trimmed?_trimEnd] at h
        exact ⟨word, after, hf, isCommand_iff.mp (hword ▸ hc), (Option.some.inj h).symm⟩
    · cases h
  · rintro ⟨word, after, hf, hc, rfl⟩
    obtain ⟨hword, hafter⟩ := hf.eq_firstWord
    rw [hword, hafter, Text.trimmed?_trimEnd, if_pos (isCommand_iff.mpr hc)]

theorem isQualified_iff_firstWord {s : String} :
    isQualified s = true ↔ ∃ word after, FirstWord s.toList word after ∧ ':' ∈ word := by
  rw [isQualified_iff]
  constructor
  · intro h
    have hn : Text.trimChars s.toList ≠ [] := by
      intro hn
      rw [Text.firstWord, hn] at h
      cases h
    obtain ⟨word, after, hf⟩ := Text.exists_firstWord hn
    exact ⟨word, after, hf, hf.eq_firstWord.1 ▸ h⟩
  · rintro ⟨word, after, hf, hc⟩
    exact hf.eq_firstWord.1 ▸ hc

/-! ### Splitting again -/

section Again

variable {s lead gap trail name : String} {c : CommandText}

theorem ofText?_id (h : ofText? s = some c) (hl : Text.hasText lead = false)
    (ht : Text.hasText trail = false) (hn : c.name = none) :
    ofText? (lead ++ c.id ++ trail) = some c := by
  obtain ⟨word, after, hf, hc, rfl⟩ := ofText?_eq_some_iff.mp h
  have hblank := Text.allBlank_of_not_hasText ht
  have hf' : FirstWord (lead ++ String.ofList word ++ trail).toList word trail.toList :=
    ⟨⟨lead.toList, Text.allBlank_of_not_hasText hl, by simp⟩, hf.ne_nil, hf.visible,
      fun x hx => hblank x (List.mem_of_head? hx)⟩
  refine ofText?_eq_some_iff.mpr ⟨word, trail.toList, hf', hc, ?_⟩
  dsimp only at hn
  rw [Text.trimmed?_of_allBlank hblank, hn]

theorem ofText?_id_name (h : ofText? s = some c) (hl : Text.hasText lead = false)
    (ht : Text.hasText trail = false) (hn : c.name = some name) (hg : gap ≠ "")
    (hb : Text.hasText gap = false) :
    ofText? (lead ++ c.id ++ gap ++ name ++ trail) = some c := by
  obtain ⟨word, after, hf, hc, rfl⟩ := ofText?_eq_some_iff.mp h
  have hgap := Text.allBlank_of_not_hasText hb
  have htrail := Text.allBlank_of_not_hasText ht
  have hf' : FirstWord (lead ++ String.ofList word ++ gap ++ name ++ trail).toList word
      (gap.toList ++ (name.toList ++ trail.toList)) := by
    refine ⟨⟨lead.toList, Text.allBlank_of_not_hasText hl, by simp⟩, hf.ne_nil, hf.visible, ?_⟩
    intro x hx
    cases hgl : gap.toList with
    | nil => exact absurd (by simpa using hgl) hg
    | cons d rest =>
        rw [hgl, List.cons_append, List.head?_cons] at hx
        obtain rfl := Option.some.inj hx
        exact hgap d (by simp [hgl])
  refine ofText?_eq_some_iff.mpr ⟨word, _, hf', hc, ?_⟩
  dsimp only at hn
  obtain ⟨htrim, hne⟩ := Text.trimmed?_eq_some_iff.mp hn
  have hname : Text.trimmed? name = some name := by
    refine Text.trimmed?_eq_some_iff.mpr ⟨?_, hne⟩
    rw [← htrim, Text.trim_trim]
  rw [Text.trimmed?_append hgap htrail, String.ofList_toList, hname, hn]

end Again

/-- **Command texts.**  What a text is split into is what the first way of the pattern reads in it.

* It is split exactly if its first word is a name that needs no colon or has a colon; then the first
  word is the command, and what trimming leaves behind it, if anything, is the name.
* It is qualified exactly if the first word has a colon.
* There is no white space in the command, and none at the ends of the name, which is not blank; and
  command and name are split into themselves, whatever white space is between and around them. -/
theorem ofText?_firstWord (s : String) :
    ofText? s = captured? s ∧
    (∀ c, ofText? s = some c ↔ ∃ word after, FirstWord s.toList word after ∧
      (String.ofList word ∈ legacyNames ∨ ':' ∈ word) ∧
      c = ⟨String.ofList word, Text.trimmed? (String.ofList after)⟩) ∧
    (isQualified s = true ↔ ∃ word after, FirstWord s.toList word after ∧ ':' ∈ word) ∧
    ∀ c, ofText? s = some c →
      (∀ x ∈ c.id.toList, Text.isBlank x = false) ∧
      (∀ name, c.name = some name → Text.hasText name = true ∧ Text.trim name = name) ∧
      ∀ lead trail, Text.hasText lead = false → Text.hasText trail = false →
        (c.name = none → ofText? (lead ++ c.id ++ trail) = some c) ∧
        ∀ name gap, c.name = some name → gap ≠ "" → Text.hasText gap = false →
          ofText? (lead ++ c.id ++ gap ++ name ++ trail) = some c := by
  refine ⟨ofText?_eq_captured? s, fun c => ofText?_eq_some_iff, isQualified_iff_firstWord, ?_⟩
  intro c hc
  obtain ⟨word, after, hf, -, rfl⟩ := ofText?_eq_some_iff.mp hc
  refine ⟨by simpa using hf.visible, ?_, ?_⟩
  · intro name hn
    have hname := hasText_name hc hn
    dsimp only at hn
    obtain ⟨rfl, -⟩ := Text.trimmed?_eq_some_iff.mp hn
    exact ⟨hname, Text.trim_trim _⟩
  · intro lead trail hl ht
    exact ⟨ofText?_id hc hl ht, fun name gap hn hg hb => ofText?_id_name hc hl ht hn hg hb⟩

/-- A name that needs no colon may be the start of a longer command. -/
example : captured? "undo:last\u2003Step  back " = some ⟨"undo:last", some "Step  back"⟩ := by
  decide +kernel

end CommandMenu.CommandText
