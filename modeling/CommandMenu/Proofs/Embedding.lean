import CommandMenu.Menu.Document
import CommandMenu.Proofs.Build
import CommandMenu.Proofs.Fences

/-! # Menus in Markdown documents

A menu that is written in a Markdown document is the menu that its text is without the document.

* `Format.ofFileName_eq_yaml_iff` says which file names are those of YAML files.
* `Markdown.find?_embedded` finds a text between two markers, when all blocks in front of it
  are closed and tagged for something else.
* `Reading.ofContents_embedded` says that reading the document is reading the text. -/

namespace CommandMenu

/-! ### File names -/

/-- A file name that ends with `.yaml` or `.yml`, in letters of either case. -/
def Format.IsYamlName (file : String) : Prop :=
  ∃ ending ∈ [".yaml", ".yml"], ending.toList <:+ file.toList.map Char.toLower

instance : DecidablePred Format.IsYamlName := fun _ =>
  inferInstanceAs (Decidable (∃ ending ∈ [".yaml", ".yml"], _))

theorem Format.ofFileName_eq_yaml_iff {file : String} :
    ofFileName file = .yaml ↔ IsYamlName file := by
  have he : (yamlEndings.any fun ending => ending.isSuffixOf (file.toList.map Char.toLower)) = true ↔
      IsYamlName file := by
    simp [yamlEndings, IsYamlName]
  rw [← he, ofFileName]
  split <;> simp_all

/-! ### Blocks behind a text -/

namespace Markdown

/-- A text that is empty or ends with a line feed, in which every block is closed and none is tagged
for menus. -/
structure Foreign (text : String) : Prop where
  ends : ∀ c ∈ text.toList.getLast?, c = '\n'
  closed : (Marker.list text).length % 2 = 0
  tags : ∀ i m, (Marker.list text)[2 * i]? = some m → ¬ IsMenuTag m.tag

/-- A text that is empty or ends with a line feed, in which no line is a marker. -/
structure Plain (text : String) : Prop where
  ends : ∀ c ∈ text.toList.getLast?, c = '\n'
  lines : ∀ line ∈ Text.lines text.toList, ¬ backticks <+: line

/-- A text as a block of a document, between two other texts. -/
def embed (before tag text after : String) : String :=
  before ++ "```" ++ tag ++ "\n" ++ text ++ "```" ++ after

theorem Marker.list_ended {text : String} {ls : List (List Char)}
    (h : ∀ line ∈ ls, '\n' ∉ line) (ht : text.toList = Text.ended ls) :
    list text = ofLines 0 ls := by
  have he : ∀ offset, ofLines offset [[]] = [] := fun offset =>
    ofLines_eq_nil_iff.mpr (by simp [backticks])
  rw [list, ht, Text.lines_ended h, ofLines_append, he, List.append_nil]

section Lines

variable {before tag text : String} {bs ls : List (List Char)}

theorem Plain.ofLines_eq_nil (h : Plain text) (hls : ∀ line ∈ ls, '\n' ∉ line)
    (hle : text.toList = Text.ended ls) (offset : Nat) : Marker.ofLines offset ls = [] := by
  refine Marker.ofLines_eq_nil_iff.mpr fun line hline => h.lines line ?_
  rw [hle, Text.lines_ended hls]
  exact List.mem_append_left _ hline

theorem toList_embed (hbe : before.toList = Text.ended bs) (hle : text.toList = Text.ended ls)
    (after : String) : (embed before tag text after).toList =
      Text.ended bs ++ (backticks ++ tag.toList) ++
        ('\n' :: Text.ended ls ++ (backticks ++ after.toList)) := by
  simp [embed, hbe, hle, backticks]

theorem exists_lines_embed (hbs : ∀ line ∈ bs, '\n' ∉ line) (hbe : before.toList = Text.ended bs)
    (hls : ∀ line ∈ ls, '\n' ∉ line) (hle : text.toList = Text.ended ls)
    (hn : '\n' ∉ tag.toList) (after : String) :
    ∃ first rest, Text.lines (embed before tag text after).toList =
      bs ++ (backticks ++ tag.toList) :: (ls ++ (backticks ++ first) :: rest) := by
  have hf : '\n' ∉ backticks := by simp [backticks]
  have ht : '\n' ∉ backticks ++ tag.toList := by simp [hf, hn]
  obtain ⟨first, rest, -, hr⟩ := Text.lines_append_of_not_mem hf after.toList
  refine ⟨first, rest, ?_⟩
  rw [toList_embed hbe hle, List.append_assoc, Text.lines_ended_append hbs, List.cons_append,
    Text.lines_append, Text.lines_of_not_mem ht, Text.lines_ended_append hls, hr]
  rfl

end Lines

/-- The markers of a document are those of the text in front of the block, the two of the block, and
those behind it. -/
theorem exists_list_embed {before tag text : String} (hb : ∀ c ∈ before.toList.getLast?, c = '\n')
    (ht : Plain text) (hn : '\n' ∉ tag.toList) (after : String) :
    ∃ o c rest, Marker.list (embed before tag text after) = Marker.list before ++ o :: c :: rest ∧
      o.tag = tag ∧ Text.slice (embed before tag text after) o.stop c.start = "\n" ++ text := by
  obtain ⟨bs, hbs, hbe⟩ := Text.exists_ended hb
  obtain ⟨ls, hls, hle⟩ := Text.exists_ended ht.ends
  obtain ⟨first, rest, hl⟩ := exists_lines_embed hbs hbe hls hle hn after
  let o := Marker.tagged (0 + Text.octets (Text.ended bs)) tag.toList
  let c := Marker.tagged (o.stop + 1 + Text.octets (Text.ended ls)) first
  have hm : Marker.list (embed before tag text after) =
      Marker.list before ++ o :: c :: Marker.ofLines (c.stop + 1) rest := by
    rw [Marker.list_ended hbs hbe, Marker.list, hl, Marker.ofLines_append,
      Marker.ofLines_cons_marker, Marker.ofLines_append, ht.ofLines_eq_nil hls hle,
      List.nil_append, Marker.ofLines_cons_marker]
    rfl
  have ho : o.stop = Text.octets (Text.ended bs ++ (backticks ++ tag.toList)) := by
    simp only [o, Marker.tagged, Text.octets_append, Nat.zero_add]
  have hc : c.start =
      Text.octets (Text.ended bs ++ (backticks ++ tag.toList) ++ '\n' :: Text.ended ls) := by
    rw [Text.octets_append, Text.octets_line_feed, ← ho]
    simp only [c, Marker.tagged]
    omega
  refine ⟨o, c, _, hm, String.ofList_toList, ?_⟩
  rw [ho, hc, ← String.ofList_toList (s := embed before tag text after), toList_embed hbe hle,
    Text.slice_append, ← hle]
  simp

/-- The block of a document is found behind foreign blocks, whatever stands behind it. -/
theorem find?_embedded {before tag text : String} (hb : Foreign before) (ht : Plain text)
    (hm : IsMenuTag tag) (hn : '\n' ∉ tag.toList) (after : String) :
    ∃ b, Block.find? (embed before tag text after) = some b ∧ b.body = "\n" ++ text := by
  obtain ⟨o, c, rest, hl, rfl, hs⟩ := exists_list_embed hb.ends ht hn after
  refine ⟨Block.between (embed before o.tag text after) o c, ?_, hs⟩
  have hc := hb.closed
  have hlen : 2 * ((Marker.list before).length / 2) = (Marker.list before).length := by omega
  refine Block.find?_eq_some_iff.mpr
    ⟨(Marker.list before).length / 2, o, c, ⟨?_, ?_⟩, hm, fun j hj o' c' hp => ?_, rfl⟩
  · rw [hl, hlen, List.getElem?_append_right (Nat.le_refl _)]
    simp
  · rw [hl, hlen, List.getElem?_append_right (Nat.le_succ _)]
    simp
  · have ho := hp.1
    rw [hl, List.getElem?_append_left (by omega)] at ho
    exact hb.tags j o' ho

end Markdown

/-! ### Menus -/

namespace Reading

open Markdown

theorem build_markdown {contents : String} {b : Block} (h : Block.find? contents = some b) :
    build .markdown contents = build .yaml b.body := by
  simp only [build, h]

/-- **A menu in a Markdown document is the menu of its text.**  Nothing in front of the block or
behind it makes a difference to the menu, to the warnings or to the fault. -/
theorem ofContents_embedded {before tag text file file' : String} (hb : Foreign before)
    (ht : Plain text) (hm : IsMenuTag tag) (hn : '\n' ∉ tag.toList)
    (hf : ¬ Format.IsYamlName file) (hf' : Format.IsYamlName file') (after : String)
    (now : Instant) :
    ofContents file (embed before tag text after) now =
      (ofContents file' ("\n" ++ text) now).map (fun r =>
        { r with configuration := { r.configuration with format := .markdown } }) ∧
    ∀ r, ofContents file' ("\n" ++ text) now = .ok r →
      r.configuration.format = .yaml ∧ r.blockFound = true := by
  have hy : Format.ofFileName file' = .yaml := Format.ofFileName_eq_yaml_iff.mpr hf'
  have hmd : Format.ofFileName file = .markdown := by
    cases h : Format.ofFileName file with
    | markdown => rfl
    | yaml => exact absurd (Format.ofFileName_eq_yaml_iff.mp h) hf
  obtain ⟨b, hfind, hbody⟩ := find?_embedded hb ht hm hn after
  constructor
  · rw [ofContents, ofContents, hy, hmd, build_markdown hfind, hbody]
    cases (build .yaml ("\n" ++ text)).result <;> rfl
  · intro r hr
    rw [ofContents_yaml hy, Except.map_eq_ok_iff] at hr
    obtain ⟨menu, -, rfl⟩ := hr
    exact ⟨rfl, rfl⟩

theorem ofContents_embedded_js :
    ofContents "menu.YML" "\n- a:b\n" default =
      .ok ⟨⟨Group.root [.action { id := "a:b" }], .yaml, default⟩, [], true⟩ ∧
    ofContents "menu.md" "Notes\n```js\n```yaml\n``` YAML \n- a:b\n```tail\n```" default =
      .ok ⟨⟨Group.root [.action { id := "a:b" }], .markdown, default⟩, [], true⟩ := by
  have hb : Foreign "Notes\n```js\n```yaml\n" := by
    have hl : Marker.list "Notes\n```js\n```yaml\n" = [⟨6, 11, "js"⟩, ⟨12, 19, "yaml"⟩] := by
      decide +kernel
    refine ⟨by simp, by rw [hl]; rfl, fun i m hm => ?_⟩
    rw [hl] at hm
    cases i with
    | zero =>
        rw [← Option.some.inj hm]
        decide +kernel
    | succ i => simp [Nat.mul_succ] at hm
  have ht : Plain "- a:b\n" := ⟨by simp, by decide +kernel⟩
  have htag : IsMenuTag " YAML " := by decide +kernel
  have hmd : ¬ Format.IsYamlName "menu.md" := by decide +kernel
  have hyml : Format.IsYamlName "menu.YML" := by decide +kernel
  have hs := (ofContents_embedded hb ht htag (by decide +kernel) hmd hyml "tail\n```" default).1
  have hy : ofContents "menu.YML" "\n- a:b\n" default =
      .ok ⟨⟨Group.root [.action { id := "a:b" }], .yaml, default⟩, [], true⟩ :=
    ofContents_command (s := "a:b") (c := ⟨"a:b", none⟩) (Format.ofFileName_eq_yaml_iff.mpr hyml)
      (by decide +kernel) (by decide) default
  exact ⟨hy, hs.trans (congrArg (Except.map _) hy)⟩

end Reading
end CommandMenu
