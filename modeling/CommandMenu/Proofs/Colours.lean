import CommandMenu.Proofs.Digits
import CommandMenu.Proofs.MenuLines

/-! # What colours change

What is shown in colours is what is shown without them, with escape codes put in.

* `Style.bare` deletes the escape codes of a text.
* `Style.Shows` says that deleting the escape codes of a text leaves another one, also in front of
  any text.  It is kept when texts are put together, and `Style.shows_apply` is the case of one
  text in a style.
* `Layout.bare_render` says it of everything that is shown. -/

namespace CommandMenu

namespace Style

/-! ### Deleting escape codes -/

/-- What stands behind the escape code that a text begins with: an escape character, a bracket,
digits and the letter `m`. -/
def behindCode? : List Char → Option (List Char)
  | '\x1B' :: '[' :: rest =>
    match rest.takeWhile Char.isDigit, rest.dropWhile Char.isDigit with
    | _ :: _, 'm' :: behind => some behind
    | _, _ => none
  | _ => none

theorem length_behindCode?_lt {cs behind : List Char} (h : behindCode? cs = some behind) :
    behind.length < cs.length := by
  unfold behindCode? at h
  split at h
  · next rest =>
      split at h
      · next hd =>
          cases h
          have hlen := (List.dropWhile_sublist (l := rest) Char.isDigit).length_le
          rw [hd] at hlen
          simp only [List.length_cons] at hlen ⊢
          omega
      · cases h
  · cases h

/-- The characters that are left when all escape codes are deleted. -/
def bareChars : List Char → List Char
  | [] => []
  | c :: rest =>
    match _h : behindCode? (c :: rest) with
    | some behind => bareChars behind
    | none => c :: bareChars rest
termination_by cs => cs.length
decreasing_by
  · exact length_behindCode?_lt _h
  · exact Nat.lt_succ_self _

/-- A text without its escape codes. -/
def bare (s : String) : String := String.ofList (bareChars s.toList)

theorem bareChars_nil : bareChars [] = [] := by
  rw [bareChars]

theorem bareChars_of_code {cs behind : List Char} (h : behindCode? cs = some behind) :
    bareChars cs = bareChars behind := by
  cases cs with
  | nil => cases h
  | cons c rest =>
      rw [bareChars]
      split
      · next h' =>
          rw [h] at h'
          cases h'
          rfl
      · next h' => rw [h] at h'; cases h'

theorem bareChars_cons {c : Char} (h : c ≠ '\x1B') (rest : List Char) :
    bareChars (c :: rest) = c :: bareChars rest := by
  have hn : behindCode? (c :: rest) = none := by
    unfold behindCode?
    split
    · next heq => exact absurd (List.cons.inj heq).1 h
    · rfl
  rw [bareChars]
  split
  · next h' => rw [hn] at h'; cases h'
  · rfl

/-- Characters that are no escapes stay. -/
theorem bareChars_append {cs : List Char} (h : '\x1B' ∉ cs) (rest : List Char) :
    bareChars (cs ++ rest) = cs ++ bareChars rest := by
  induction cs with
  | nil => rfl
  | cons c cs ih =>
      obtain ⟨hc, hcs⟩ := not_or.mp (mt List.mem_cons.mpr h)
      rw [List.cons_append, bareChars_cons (Ne.symm hc), ih hcs, List.cons_append]

/-- An escape code goes. -/
theorem behindCode?_escape (n : Nat) (rest : List Char) :
    behindCode? ((escape n).toList ++ rest) = some rest := by
  have hdigits : ∀ c ∈ Nat.toDigits 10 n, c.isDigit = true := fun c hc =>
    Nat.isDigit_of_mem_toDigits (by decide) (by decide) hc
  have hlist : (escape n).toList ++ rest =
      '\x1B' :: '[' :: (Nat.toDigits 10 n ++ 'm' :: rest) := by
    simp [escape, Nat.toString_eq_repr, Nat.toList_repr]
  obtain ⟨d, ds, hd, -⟩ := Text.exists_toDigits_eq_cons n
  rw [hlist, behindCode?, List.takeWhile_append_of_pos hdigits, List.dropWhile_append_of_pos hdigits,
    hd]
  rfl

/-! ### Texts with escape codes put in -/

/-- There is no escape character in a text. -/
def EscapeFree (s : String) : Prop := '\x1B' ∉ s.toList

instance (s : String) : Decidable (EscapeFree s) :=
  inferInstanceAs (Decidable ('\x1B' ∉ s.toList))

theorem EscapeFree.append {s t : String} (hs : EscapeFree s) (ht : EscapeFree t) :
    EscapeFree (s ++ t) := by
  unfold EscapeFree
  rw [String.toList_append, List.mem_append]
  exact not_or.mpr ⟨hs, ht⟩

theorem escapeFree_blanks (n : Nat) : EscapeFree (String.ofList (List.replicate n ' ')) := by
  unfold EscapeFree
  rw [String.toList_ofList]
  exact fun h => absurd (List.eq_of_mem_replicate h) (by decide)

theorem escapeFree_toString (n : Nat) : EscapeFree (toString n) := by
  unfold EscapeFree
  rw [Nat.toString_eq_repr, Nat.toList_repr]
  exact fun h => absurd (Nat.isDigit_of_mem_toDigits (by decide) (by decide) h) (by decide)

/-- Deleting the escape codes of a text leaves another one, whatever stands behind it. -/
def Shows (shown plain : String) : Prop :=
  ∀ rest, bareChars (shown.toList ++ rest) = plain.toList ++ bareChars rest

theorem Shows.bare {shown plain : String} (h : Shows shown plain) : bare shown = plain := by
  have hall := h []
  rw [List.append_nil, bareChars_nil, List.append_nil] at hall
  rw [Style.bare, hall, String.ofList_toList]

theorem Shows.append {s t p q : String} (hs : Shows s p) (ht : Shows t q) :
    Shows (s ++ t) (p ++ q) := by
  intro rest
  rw [String.toList_append, String.toList_append, List.append_assoc, hs, ht, List.append_assoc]

/-- A text without escapes is shown as it is. -/
theorem shows_self {s : String} (h : EscapeFree s) : Shows s s :=
  fun rest => bareChars_append h rest

theorem shows_escape (n : Nat) : Shows (escape n) "" :=
  fun rest => bareChars_of_code (behindCode?_escape n rest)

theorem shows_start (s : Style) : Shows s.start "" := by
  have hempty : Shows "" "" := shows_self (List.not_mem_nil)
  obtain ⟨colour, weight⟩ := s
  cases colour with
  | none =>
      cases weight with
      | none => exact hempty.append hempty
      | some w => exact hempty.append (shows_escape _)
  | some c =>
      cases weight with
      | none => exact (shows_escape _).append hempty
      | some w => exact (shows_escape _).append (shows_escape _)

/-- **A text in a style is the text with escape codes around it.** -/
theorem shows_apply (s : Style) {text : String} (h : EscapeFree text) :
    Shows (s.apply true text) (s.apply false text) := by
  have h := ((shows_start s).append (shows_self h)).append (shows_escape 0)
  rwa [String.empty_append, String.append_empty] at h

theorem shows_intercalate {sep : String} (hsep : EscapeFree sep) {ss ps : List String}
    (h : List.Forall₂ Shows ss ps) :
    Shows (String.intercalate sep ss) (String.intercalate sep ps) := by
  induction h with
  | nil => exact shows_self List.not_mem_nil
  | @cons s p ss ps hsp htail ih =>
      cases htail with
      | nil => simpa using hsp
      | cons =>
          rw [String.intercalate_cons_cons, String.intercalate_cons_cons]
          exact (hsp.append (shows_self hsep)).append ih

end Style

/-! ### What is shown -/

open Style

/-- The texts that are shown of an item, apart from the items in it. -/
def Item.texts : Item → List String
  | .action a => a.id :: (a.name.toList ++ a.keycode.toList)
  | .group g => g.name :: g.keycode.toList

/-- The texts that a part of what is shown is made of. -/
def Layout.Block.texts : Layout.Block → List String
  | .title text => [text]
  | .pair key value => [key, value]
  | .blank => []
  | .line text => [text]
  | .menu g => g.name :: (Group.nodes g).flatMap fun e => e.2.texts

theorem Layout.shows_keyText {keycode : Option String}
    (h : ∀ key ∈ keycode.toList, EscapeFree key) :
    Shows (keyText true keycode) (keyText false keycode) := by
  cases keycode with
  | none => exact shows_self List.not_mem_nil
  | some key =>
      have hkey : EscapeFree ("[" ++ key ++ "]") :=
        (EscapeFree.append (by decide) (h key List.mem_cons_self)).append (by decide)
      exact (shows_apply cyan hkey).append (shows_self (by decide))

theorem Layout.escapeFree_countText (n : Nat) : EscapeFree (countText n) := by
  unfold countText
  split
  · decide
  · exact (escapeFree_toString n).append (by decide)

theorem Item.shows_line (level : Nat) {item : Item} (h : ∀ s ∈ item.texts, EscapeFree s) :
    Shows (item.line true level) (item.line false level) := by
  have hindent : Shows (Layout.indent level) (Layout.indent level) :=
    shows_self (escapeFree_blanks _)
  cases item with
  | group g =>
      have hkey : Shows (Layout.keyText true g.keycode) (Layout.keyText false g.keycode) :=
        Layout.shows_keyText fun key hk => h key (List.mem_cons_of_mem _ hk)
      have hname : EscapeFree (g.name ++ "/") :=
        (h g.name List.mem_cons_self).append (by decide)
      exact (hindent.append hkey).append (shows_apply bold hname)
  | action a =>
      have hid : EscapeFree a.id := h a.id List.mem_cons_self
      have hkey : Shows (Layout.keyText true a.keycode) (Layout.keyText false a.keycode) :=
        Layout.shows_keyText fun key hk =>
          h key (List.mem_cons_of_mem _ (List.mem_append_right _ hk))
      refine (hindent.append hkey).append ?_
      cases hn : a.name with
      | none => exact shows_self hid
      | some name =>
          have hname : EscapeFree name := h name (by simp [Item.texts, hn])
          have hbracket : EscapeFree ("(" ++ a.id ++ ")") :=
            (EscapeFree.append (by decide) hid).append (by decide)
          exact ((shows_self hname).append (shows_self (by decide))).append
            (shows_apply dim hbracket)

/-- The lines of a menu are shown one by one. -/
theorem Group.shows_lines {g : Group} (h : ∀ s ∈ (Layout.Block.menu g).texts, EscapeFree s) :
    List.Forall₂ Shows (Group.lines true g) (Group.lines false g) := by
  rw [Group.lines_eq, Group.lines_eq]
  refine .cons ?_ ?_
  · exact (((shows_apply bold (h g.name List.mem_cons_self)).append (shows_self (by decide))).append
      (shows_self (Layout.escapeFree_countText _))).append (shows_self (by decide))
  · rw [List.forall₂_map_left_iff, List.forall₂_map_right_iff, List.forall₂_same]
    intro e he
    exact Item.shows_line _ fun s hs =>
      h s (List.mem_cons_of_mem _ (List.mem_flatMap.mpr ⟨e, he, hs⟩))

/-- The lines of a part are shown one by one. -/
theorem Layout.Block.shows_lines {b : Layout.Block} (h : ∀ s ∈ b.texts, EscapeFree s) :
    List.Forall₂ Shows (b.lines true) (b.lines false) := by
  have hempty : Shows "" "" := shows_self List.not_mem_nil
  cases b with
  | title text => exact .cons (shows_apply bold (h text List.mem_cons_self)) (.cons hempty .nil)
  | pair key value =>
      have hkey : EscapeFree (Layout.padded Layout.keyWidth key) :=
        (h key List.mem_cons_self).append (escapeFree_blanks _)
      have hvalue : EscapeFree value := h value (by simp [Layout.Block.texts])
      exact .cons (((shows_apply dim hkey).append (shows_self (by decide))).append
        (shows_self hvalue)) .nil
  | blank => exact .cons hempty .nil
  | line text => exact .cons (shows_self (h text List.mem_cons_self)) .nil
  | menu g => exact Group.shows_lines h

theorem Layout.shows_lines {l : Layout} (h : ∀ b ∈ l, ∀ s ∈ b.texts, EscapeFree s) :
    List.Forall₂ Shows (l.lines true) (l.lines false) := by
  induction l with
  | nil => exact .nil
  | cons b rest ih =>
      have hb := Layout.Block.shows_lines (h b List.mem_cons_self)
      exact List.rel_append hb (ih fun b hm => h b (List.mem_cons_of_mem _ hm))

/-- **Colours change nothing but the escape codes.**  If the texts that are shown have no escape
characters, then deleting the escape codes from what is shown in colours leaves what is shown
without them, line by line and as a whole. -/
theorem Layout.bare_render (l : Layout) (h : ∀ b ∈ l, ∀ s ∈ b.texts, EscapeFree s) :
    bare (l.render true) = l.render false ∧ (l.lines true).map bare = l.lines false := by
  have hlines := Layout.shows_lines h
  refine ⟨(shows_intercalate (by decide) hlines).bare, ?_⟩
  have hbare := List.forall₂_map_left_iff.mpr (hlines.imp fun _ _ hs => hs.bare)
  rwa [List.forall₂_eq_eq_eq] at hbare

/-- A title, a padded key, a line that looks like a part of an escape code, and a menu with keys. -/
theorem Layout.bare_render_parts :
    ∃ l : Layout, (∀ b ∈ l, ∀ s ∈ b.texts, EscapeFree s) ∧
      l.render true = "\x1B[1mMenu\x1B[0m\n\n\x1B[2mformat      \x1B[0m yaml\n[0m\n" ++
        "\x1B[1mTools\x1B[0m (1 item)\n  \x1B[36m[c]\x1B[0m \x1B[1mClose/\x1B[0m\n" ++
        "    \x1B[36m[b]\x1B[0m Back \x1B[2m(app:back)\x1B[0m" ∧
      bare (l.render true) = "Menu\n\nformat       yaml\n[0m\nTools (1 item)\n  [c] Close/\n" ++
        "    [b] Back (app:back)" := by
  refine ⟨[.title "Menu", .pair "format" "yaml", .line "[0m",
    .menu { name := "Tools", items := [.group { name := "Close", keycode := some "c", items :=
      [.action { id := "app:back", name := some "Back", keycode := some "b" }] }] }],
    by decide, by decide, ?_⟩
  exact (Layout.bare_render _ (by decide)).1.trans (by decide)

end CommandMenu
