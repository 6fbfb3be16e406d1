import Thompson.Regex.Outline

/-!
Outlines can be cut apart. The first letter of a line tells the node, and the node tells how
many outlines follow one level further in, whatever characters the leaves hold. So no text
begins with two outlines of one depth.
-/

namespace Thompson

namespace Regex

/-- The first letter of the line of a node. No two kinds of node share it. -/
def initial : Regex → Char
  | .char _ => 'L'
  | .any => 'A'
  | .cat _ _ => 'C'
  | .alt _ _ => 'O'
  | .star _ => 'S'

variable {t u : Regex} {x y : Text} {depth : Nat}

theorem exists_outlineOnto_eq (t : Regex) (x : Text) (depth : Nat) :
    ∃ more, t.outlineOnto x depth = Text.indent depth ++ t.initial :: more := by
  cases t with
  | char c | any | cat l r | alt l r | star r =>
      rw [outlineOnto, lit_eq]
      exact ⟨_, rfl⟩

theorem initial_eq_of_outlineOnto_eq (h : t.outlineOnto x depth = u.outlineOnto y depth) :
    t.initial = u.initial := by
  obtain ⟨more, ht⟩ := exists_outlineOnto_eq t x depth
  obtain ⟨more', hu⟩ := exists_outlineOnto_eq u y depth
  rw [ht, hu] at h
  exact (List.cons.inj (List.append_cancel_left h)).1

/-- An outline in front of a text can be told from the text. -/
theorem outlineOnto_inj (h : t.outlineOnto x depth = u.outlineOnto y depth) :
    t = u ∧ x = y := by
  induction t generalizing u x y depth with
  | char c =>
      cases u with
      | char d =>
          have hleaf := List.append_cancel_left (List.append_cancel_left h)
          obtain ⟨rfl, hrest⟩ := List.cons.inj hleaf
          exact ⟨rfl, (List.cons.inj hrest).2⟩
      | any | cat l' r' | alt l' r' | star r' => cases initial_eq_of_outlineOnto_eq h
  | any =>
      cases u with
      | any => exact ⟨rfl, List.append_cancel_left (List.append_cancel_left h)⟩
      | char d | cat l' r' | alt l' r' | star r' => cases initial_eq_of_outlineOnto_eq h
  | cat l r ihl ihr =>
      cases u with
      | cat l' r' =>
          have hleft := List.append_cancel_left (List.append_cancel_left h)
          obtain ⟨rfl, hright⟩ := ihl hleft
          obtain ⟨rfl, hrest⟩ := ihr hright
          exact ⟨rfl, hrest⟩
      | char d | any | alt l' r' | star r' => cases initial_eq_of_outlineOnto_eq h
  | alt l r ihl ihr =>
      cases u with
      | alt l' r' =>
          have hleft := List.append_cancel_left (List.append_cancel_left h)
          obtain ⟨rfl, hright⟩ := ihl hleft
          obtain ⟨rfl, hrest⟩ := ihr hright
          exact ⟨rfl, hrest⟩
      | char d | any | cat l' r' | star r' => cases initial_eq_of_outlineOnto_eq h
  | star r ih =>
      cases u with
      | star r' =>
          have hbody := List.append_cancel_left (List.append_cancel_left h)
          obtain ⟨rfl, hrest⟩ := ih hbody
          exact ⟨rfl, hrest⟩
      | char d | any | cat l' r' | alt l' r' => cases initial_eq_of_outlineOnto_eq h

/-- Whatever follows them, outlines of one depth are told apart, and what follows is told from
them. So an outline is that of one expression only. -/
theorem outlineAt_append_inj (t u : Regex) :
    (∀ depth x y, t.outlineAt depth ++ x = u.outlineAt depth ++ y ↔ t = u ∧ x = y) ∧
      (t.outline = u.outline ↔ t = u) := by
  have hcode : ∀ depth x y,
      t.outlineAt depth ++ x = u.outlineAt depth ++ y ↔ t = u ∧ x = y := by
    intro depth x y
    constructor
    · intro h
      rw [← outlineOnto_eq, ← outlineOnto_eq] at h
      exact outlineOnto_inj h
    · rintro ⟨rfl, rfl⟩
      rfl
  refine ⟨hcode, ?_⟩
  have hwhole := hcode 0 [] []
  rw [List.append_nil, List.append_nil, and_iff_left rfl] at hwhole
  exact hwhole

end Regex

end Thompson
