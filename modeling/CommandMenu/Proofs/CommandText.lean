import CommandMenu.Menu.CommandText
import Mathlib.Data.List.TakeWhile

/-! # White space and command texts

* `Text.hasText_iff` says that a text holds more than white space exactly if trimming leaves
  something of it, and `Text.trimmed?_eq_some_iff` what it leaves then.
* `Text.firstWord` is the first run of characters that are not white space; it is the id of a
  command text, and decides whether the command has a colon.
* `CommandText.hasText_id` and `CommandText.hasText_name` say that what a command text is split
  into is never blank. -/

namespace CommandMenu

/-! ### White space -/

namespace Text

theorem mem_dropWhile_of_not {p : Char → Bool} {c : Char} (h : p c = false) :
    ∀ {cs : List Char}, c ∈ cs → c ∈ cs.dropWhile p
  | d :: cs, hc => by
      rw [List.dropWhile_cons]
      split
      · next hd =>
          rcases List.mem_cons.mp hc with rfl | hc
          · rw [h] at hd; cases hd
          · exact mem_dropWhile_of_not h hc
      · exact hc

/-- Trimming keeps what is not white space. -/
theorem mem_trimChars_of_not_blank {c : Char} {cs : List Char} (h : isBlank c = false)
    (hc : c ∈ cs) : c ∈ trimChars cs := by
  unfold trimChars trimEnd trimStart
  rw [List.mem_reverse]
  exact mem_dropWhile_of_not h (List.mem_reverse.mpr (mem_dropWhile_of_not h hc))

theorem trimChars_eq_nil_of_blank {cs : List Char} (h : ∀ c ∈ cs, isBlank c = true) :
    trimChars cs = [] := by
  have hs : trimStart cs = [] := List.dropWhile_eq_nil_iff.mpr h
  simp [trimChars, hs, trimEnd]

/-- A text holds more than white space if and only if trimming leaves something of it. -/
theorem hasText_iff {s : String} : hasText s = true ↔ trim s ≠ "" := by
  unfold hasText trim
  rw [List.any_eq_true, ne_eq, String.ofList_eq_empty_iff]
  constructor
  · rintro ⟨c, hc, hb⟩ hn
    have := mem_trimChars_of_not_blank (by simpa using hb) hc
    rw [hn] at this
    cases this
  · intro hn
    by_contra hb
    refine hn (trimChars_eq_nil_of_blank fun c hc => ?_)
    by_contra hbc
    exact hb ⟨c, hc, by simpa using hbc⟩

theorem nonBlank_eq_some_iff {s t : String} :
    nonBlank s = some t ↔ hasText s = true ∧ s = t := by
  unfold nonBlank
  split <;> simp_all

/-- What trimming leaves is more than white space. -/
theorem hasText_trim {s : String} (h : trim s ≠ "") : hasText (trim s) = true := by
  obtain ⟨c, hc, hb⟩ := List.any_eq_true.mp (hasText_iff.mpr h)
  refine List.any_eq_true.mpr ⟨c, ?_, hb⟩
  rw [trim, String.toList_ofList]
  exact mem_trimChars_of_not_blank (by simpa using hb) hc

theorem trimmed?_eq_some_iff {s t : String} : trimmed? s = some t ↔ trim s = t ∧ t ≠ "" := by
  rw [trimmed?, nonBlank_eq_some_iff]
  constructor
  · rintro ⟨ht, rfl⟩
    refine ⟨rfl, fun hn => ?_⟩
    rw [hn] at ht
    cases ht
  · rintro ⟨rfl, hn⟩
    exact ⟨hasText_trim hn, rfl⟩

end Text

/-! ### Command texts -/

/-- The first run of characters of a text that are not white space. -/
def Text.firstWord (s : String) : List Char :=
  (Text.trimChars s.toList).takeWhile fun c => !Text.isBlank c

/-- What follows the first run of characters of a text that are not white space. -/
def Text.afterFirstWord (s : String) : List Char :=
  (Text.trimChars s.toList).dropWhile fun c => !Text.isBlank c

namespace CommandText

theorem ofText?_eq (s : String) : ofText? s =
    if isCommand (Text.firstWord s) then
      some ⟨String.ofList (Text.firstWord s),
        Text.trimmed? (String.ofList (Text.afterFirstWord s))⟩
    else none := rfl

theorem id_of_ofText? {s : String} {c : CommandText} (h : ofText? s = some c) :
    c.id.toList = Text.firstWord s := by
  rw [ofText?_eq] at h
  split at h
  · cases h
    exact String.toList_ofList
  · cases h

theorem exists_ofText?_of_colon {s : String} (h : ':' ∈ Text.firstWord s) :
    ∃ c, ofText? s = some c := by
  have hc : isCommand (Text.firstWord s) = true := by simp [isCommand, h]
  rw [ofText?_eq, if_pos hc]
  exact ⟨_, rfl⟩

theorem isQualified_iff (s : String) : isQualified s = true ↔ ':' ∈ Text.firstWord s := by
  unfold isQualified
  rw [Option.any_eq_true]
  constructor
  · rintro ⟨c, hc, hq⟩
    rw [← id_of_ofText? hc]
    simpa using hq
  · intro h
    obtain ⟨c, hc⟩ := exists_ofText?_of_colon h
    refine ⟨c, hc, ?_⟩
    rw [id_of_ofText? hc]
    simpa using h

theorem isCommand_nil : isCommand [] = false := by decide

/-- The id of a command text is not blank. -/
theorem hasText_id {s : String} {c : CommandText} (h : ofText? s = some c) :
    Text.hasText c.id = true := by
  unfold Text.hasText
  rw [id_of_ofText? h]
  cases hw : Text.firstWord s with
  | nil =>
      rw [ofText?_eq, hw, isCommand_nil] at h
      cases h
  | cons d rest =>
      have hd : d ∈ Text.firstWord s := by simp [hw]
      have hb := List.mem_takeWhile_imp hd
      simp only [List.any_cons, hb, Bool.true_or]

/-- The name of a command text is not blank. -/
theorem hasText_name {s name : String} {c : CommandText} (h : ofText? s = some c)
    (hn : c.name = some name) : Text.hasText name = true := by
  rw [ofText?_eq] at h
  split at h
  · cases h
    dsimp only [Text.trimmed?] at hn
    obtain ⟨hb, rfl⟩ := Text.nonBlank_eq_some_iff.mp hn
    exact hb
  · cases h

end CommandText
end CommandMenu

