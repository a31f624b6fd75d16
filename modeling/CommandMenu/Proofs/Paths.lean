import CommandMenu.Files.Path
import CommandMenu.Proofs.Lines

/-! # Names of files

The name of a file does not depend on the directory from which its path is followed.

* `Path.parts_join` says what the parts of a path are that is followed from a directory.
* `Path.fileName?_join` and `Path.nameForFormat_join` say what its last part is.
* `Path.EndsIn` says where the name of a file stands in its path, and `Path.fileName?_eq_some_iff`
  that it is looked for there. -/

namespace CommandMenu.Path

theorem parts_append (before after : String) :
    parts (before ++ "/" ++ after) = parts before ++ parts after := by
  have h : (before ++ "/" ++ after).toList = before.toList ++ '/' :: after.toList := by simp
  rw [parts, h, Text.split_eq_splitOn, List.splitOn_append_cons_self, List.map_append,
    List.filter_append, ← Text.split_eq_splitOn, ← Text.split_eq_splitOn]
  rfl

/-- A path has its own parts behind those of the directory, unless it is absolute. -/
theorem parts_join (base path : String) :
    ∃ above, parts (join base path) = above ++ parts path := by
  unfold join
  split
  · exact ⟨[], rfl⟩
  · split
    · next hs =>
        obtain ⟨cs, hcs⟩ := List.getLast?_eq_some_iff.mp (beq_iff_eq.mp hs)
        have hb : base = String.ofList cs ++ "/" := by
          rw [← String.toList_inj, hcs]
          simp
        exact ⟨parts (String.ofList cs), by rw [hb, parts_append]⟩
    · exact ⟨parts base, parts_append base path⟩

/-- A file has the same name wherever its path is followed from. -/
theorem fileName?_join {path name : String} (h : fileName? path = some name) (base : String) :
    fileName? (join base path) = some name := by
  obtain ⟨above, ha⟩ := parts_join base path
  obtain ⟨hl, hn⟩ := Option.filter_eq_some_iff.mp h
  rw [fileName?, ha, List.getLast?_append, hl, Option.some_or]
  exact Option.filter_eq_some_iff.mpr ⟨rfl, hn⟩

theorem nameForFormat_join {path name : String} (h : fileName? path = some name) (base : String) :
    nameForFormat (join base path) = name := by
  rw [nameForFormat, fileName?_join h]
  rfl

/-! ### Where the name stands -/

/-- A path ends in a name: the name stands between slashes, and behind it no part but empty ones and
single points. -/
def EndsIn (path name : String) : Prop :=
  name ∉ ["", ".", ".."] ∧ ∃ before after,
    (Text.split '/' path.toList).map String.ofList = before ++ name :: after ∧
    ∀ part ∈ after, part = "" ∨ part = "."

theorem getLast?_parts_eq_some_iff {path name : String} :
    (parts path).getLast? = some name ↔ (name ≠ "" ∧ name ≠ ".") ∧ ∃ before after,
      (Text.split '/' path.toList).map String.ofList = before ++ name :: after ∧
      ∀ part ∈ after, part = "" ∨ part = "." := by
  have hempty : ∀ part : String, (!(part ≠ "" && part ≠ ".")) = true ↔ part = "" ∨ part = "." := by
    intro part
    by_cases h : part = "" <;> simp [h]
  rw [parts, List.getLast?_filter, List.find?_eq_some_iff_append]
  refine and_congr (by simp) ⟨?_, ?_⟩
  · rintro ⟨after, before, hs, ha⟩
    refine ⟨before.reverse, after.reverse, ?_, ?_⟩
    · rw [← List.reverse_inj, hs]
      simp
    · intro part hp
      exact (hempty part).mp (ha part (List.mem_reverse.mp hp))
  · rintro ⟨before, after, hs, ha⟩
    refine ⟨after.reverse, before.reverse, ?_, ?_⟩
    · rw [hs]
      simp
    · intro part hp
      exact (hempty part).mpr (ha part (List.mem_reverse.mp hp))

theorem fileName?_eq_some_iff {path name : String} :
    fileName? path = some name ↔ EndsIn path name := by
  rw [fileName?, Option.filter_eq_some_iff, getLast?_parts_eq_some_iff, EndsIn]
  have hname : name ∉ ["", ".", ".."] ↔ (name ≠ "" ∧ name ≠ ".") ∧ name ≠ ".." := by
    simp [and_assoc]
  rw [hname, decide_eq_true_eq]
  exact ⟨fun ⟨⟨hn, hs⟩, hu⟩ => ⟨⟨hn, hu⟩, hs⟩, fun ⟨⟨hn, hu⟩, hs⟩ => ⟨⟨hn, hs⟩, hu⟩⟩

end CommandMenu.Path
