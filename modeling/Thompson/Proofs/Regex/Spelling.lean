import Thompson.Proofs.Pattern.Derivation
import Thompson.Proofs.Pattern.Parsing

/-!
The spelling of a regular expression is a pattern that is read back as this expression, and
the least one. Every other pattern for the expression has the characters of the spelling in
their order, so it differs from the spelling only by what could be left out.
-/

namespace Thompson

namespace Pattern

open Regex

/-- Two stars meet in a text that is put together only within a part or at the seam. -/
theorem not_doubled_append {u v : Text} (hu : ¬ ['*', '*'] <:+: u) (hv : ¬ ['*', '*'] <:+: v)
    (hseam : u.getLast? = some '*' → v.head? ≠ some '*') : ¬ ['*', '*'] <:+: u ++ v := by
  intro h
  rcases List.infix_append_iff.mp h with hleft | hright | ⟨left, right, hstars, hleft, hright⟩
  · exact hu hleft
  · exact hv hright
  · match left, hstars with
    | [], hstars =>
        rw [List.nil_append] at hstars
        rw [← hstars] at hright
        exact hv hright.isInfix
    | [c], hstars =>
        obtain ⟨rfl, rfl⟩ := List.cons.inj hstars
        obtain ⟨before, rfl⟩ := hleft
        obtain ⟨after, rfl⟩ := hright
        exact hseam List.getLast?_concat rfl
    | c :: d :: more, hstars =>
        obtain ⟨rfl, htail⟩ := List.cons.inj hstars
        obtain ⟨rfl, hrest⟩ := List.cons.inj htail
        obtain ⟨rfl, -⟩ := List.append_eq_nil_iff.mp hrest.symm
        exact hu hleft.isInfix

theorem not_doubled_singleton (c : Char) : ¬ ['*', '*'] <:+: [c] := by
  intro h
  have hlength := h.length_le
  simp at hlength

/-- No single item ends with a star. -/
theorem getLast?_ne_of_atom {w : Text} {r : Regex} (h : Derives .atom w r) :
    w.getLast? ≠ some '*' := by
  cases h with
  | char hc =>
      obtain ⟨-, -, hstar, -⟩ := ne_of_item (Token.ofChar_of_isAlphanumeric hc)
      simpa using hstar
  | any => decide
  | group _ =>
      rw [← List.cons_append, List.getLast?_concat]
      decide

end Pattern

namespace Regex

open Pattern

section Guard

variable (need : Phrase) (r : Regex)

theorem spellAs_eq_guarded : r.spellAs need = guarded need r r.spell := by
  cases r <;> cases need <;> rfl

theorem sublist_group (text : Text) : text.Sublist ('(' :: (text ++ [')'])) :=
  (List.sublist_append_left text [')']).cons '('

/-- The guard makes a phrase one of the kind that the place needs. -/
theorem derives_guarded {text : Text} (h : Derives r.phrase text r) :
    Derives need (guarded need r text) r := by
  unfold guarded
  split
  · have hinner : Derives .expression text r := h.loosen (Nat.zero_le _)
    exact (Derives.group hinner).loosen (tightness_le_atom need)
  · next hloose => exact h.loosen (Nat.le_of_not_lt hloose)

theorem not_doubled_guarded {text : Text} (h : ¬ ['*', '*'] <:+: text) :
    ¬ ['*', '*'] <:+: guarded need r text := by
  unfold guarded
  split
  · have hclosed := not_doubled_append h (not_doubled_singleton ')') (fun _ => by decide)
    exact not_doubled_append (not_doubled_singleton '(') hclosed (fun hlast => by cases hlast)
  · exact h

end Guard

/-- A place that needs less has a pattern with fewer parentheses. -/
theorem spellAs_sublist_spellAs {loose tight : Phrase} (hle : tightness loose ≤ tightness tight)
    (r : Regex) : (r.spellAs loose).Sublist (r.spellAs tight) := by
  rw [spellAs_eq_guarded loose, spellAs_eq_guarded tight, guarded, guarded]
  split
  · next hloose =>
      have htight := Nat.lt_of_lt_of_le hloose hle
      simp only [if_pos htight, List.Sublist.refl]
  · split
    · exact sublist_group _
    · exact List.Sublist.refl _

/-- Over alphanumeric literals, a spelling is a phrase of the kind that was asked for. -/
theorem derives_spellAs {r : Regex} (h : ∀ c ∈ r.literals, isAlphanumeric c = true)
    (need : Phrase) : Derives need (r.spellAs need) r := by
  induction r generalizing need with
  | char c =>
      have hchar : Derives .atom [c] (.char c) := .char (h c List.mem_cons_self)
      exact hchar.loosen (tightness_le_atom need)
  | any => exact Derives.any.loosen (tightness_le_atom need)
  | cat l r ihl ihr =>
      obtain ⟨hl, hr⟩ := List.forall_mem_append.mp h
      exact derives_guarded need _ (.cat (ihl hl .concatenation) (ihr hr .repetition))
  | alt l r ihl ihr =>
      obtain ⟨hl, hr⟩ := List.forall_mem_append.mp h
      exact derives_guarded need _ (.alt (ihl hl .expression) (ihr hr .concatenation))
  | star r ih => exact derives_guarded need _ (.star (.atom (ih h .atom)))

theorem not_doubled_spellAs {r : Regex} (h : ∀ c ∈ r.literals, isAlphanumeric c = true)
    (need : Phrase) : ¬ ['*', '*'] <:+: r.spellAs need := by
  induction r generalizing need with
  | char c => exact not_doubled_singleton c
  | any => exact not_doubled_singleton '.'
  | cat l r ihl ihr =>
      obtain ⟨hl, hr⟩ := List.forall_mem_append.mp h
      apply not_doubled_guarded
      apply not_doubled_append (ihl hl .concatenation) (ihr hr .repetition)
      intro _ hhead
      obtain ⟨c, rest, htext, hc, -⟩ := exists_head_of_derives (derives_spellAs hr .repetition)
      rw [htext] at hhead
      exact hc (Option.some.inj hhead)
  | alt l r ihl ihr =>
      obtain ⟨hl, hr⟩ := List.forall_mem_append.mp h
      have hright := not_doubled_append (not_doubled_singleton '|') (ihr hr .concatenation)
        (fun hlast => by cases hlast)
      apply not_doubled_guarded
      exact not_doubled_append (ihl hl .expression) hright (fun _ hhead => by cases hhead)
  | star r ih =>
      have hlast := getLast?_ne_of_atom (derives_spellAs (r := r) h .atom)
      apply not_doubled_guarded
      exact not_doubled_append (ih h .atom) (not_doubled_singleton '*')
        (fun hend => absurd hend hlast)

/-- Every text without doubled stars has the characters of the spelling of its tree in their
order. -/
theorem spellAs_sublist_of_derives {phrase : Phrase} {w : Text} {r : Regex}
    (h : Derives phrase w r) (hstars : ¬ ['*', '*'] <:+: w) :
    (r.spellAs phrase).Sublist w ∧
      (phrase = .repetition → w.getLast? ≠ some '*' → (r.spellAs .atom).Sublist w) := by
  -- A star applies to a single item where no two stars meet, so what stands before it is
  -- spelled as an atom. The second part carries this through the repetition.
  induction h with
  | char _ | any => exact ⟨List.Sublist.refl _, fun hphrase => nomatch hphrase⟩
  | @group w r _ ih =>
      have hinner : ¬ ['*', '*'] <:+: w := fun hdoubled =>
        hstars (List.infix_cons (List.infix_append_of_infix_left hdoubled))
      obtain ⟨hspell, -⟩ := ih hinner
      refine ⟨?_, fun hphrase => nomatch hphrase⟩
      rw [spellAs_eq_guarded, guarded]
      split
      · exact (hspell.append (List.Sublist.refl [')'])).cons_cons '('
      · exact hspell.trans (sublist_group w)
  | atom _ ih =>
      obtain ⟨hatom, -⟩ := ih hstars
      exact ⟨(spellAs_sublist_spellAs (by decide) _).trans hatom, fun _ _ => hatom⟩
  | @star w r _ ih =>
      have hinner : ¬ ['*', '*'] <:+: w := fun hdoubled =>
        hstars (List.infix_append_of_infix_left hdoubled)
      have hlast : w.getLast? ≠ some '*' := by
        intro hend
        obtain ⟨before, rfl⟩ := List.getLast?_eq_some_iff.mp hend
        rw [List.append_assoc] at hstars
        exact hstars List.infix_append_right
      have hatom := (ih hinner).2 rfl hlast
      exact ⟨hatom.append (List.Sublist.refl ['*']),
        fun _ hend => absurd List.getLast?_concat hend⟩
  | repetition _ ih =>
      obtain ⟨hspell, -⟩ := ih hstars
      refine ⟨?_, fun hphrase => nomatch hphrase⟩
      exact (spellAs_sublist_spellAs (by decide) _).trans hspell
  | cat _ _ ihu ihv =>
      obtain ⟨hu, -⟩ := ihu fun hdoubled => hstars (List.infix_append_of_infix_left hdoubled)
      obtain ⟨hv, -⟩ := ihv fun hdoubled => hstars (List.infix_append_of_infix_right hdoubled)
      exact ⟨hu.append hv, fun hphrase => nomatch hphrase⟩
  | concatenation _ ih =>
      obtain ⟨hspell, -⟩ := ih hstars
      refine ⟨?_, fun hphrase => nomatch hphrase⟩
      exact (spellAs_sublist_spellAs (by decide) _).trans hspell
  | alt _ _ ihu ihv =>
      obtain ⟨hu, -⟩ := ihu fun hdoubled => hstars (List.infix_append_of_infix_left hdoubled)
      obtain ⟨hv, -⟩ := ihv fun hdoubled =>
        hstars (List.infix_append_of_infix_right (List.infix_cons hdoubled))
      exact ⟨hu.append (hv.cons_cons '|'), fun hphrase => nomatch hphrase⟩

/-- An expression can be written as a pattern if and only if its literals are alphanumeric.
Then its spelling is such a pattern, and the least one: any other keeps the characters of the
spelling and their order. -/
theorem parse_spell (tree : Regex) :
    (Regex.parse tree.spell = .ok tree ↔ ∀ c ∈ tree.literals, isAlphanumeric c = true) ∧
      ∀ pattern, Regex.parse pattern = .ok tree →
        (∀ c ∈ tree.literals, isAlphanumeric c = true) ∧ tree.spell.Sublist pattern := by
  have hconverse : ∀ pattern, Regex.parse pattern = .ok tree →
      (∀ c ∈ tree.literals, isAlphanumeric c = true) ∧ tree.spell.Sublist pattern := by
    intro pattern hparse
    obtain ⟨hstars, hderives⟩ := parse_eq_ok_iff_derives.mp hparse
    refine ⟨?_, (spellAs_sublist_of_derives hderives hstars).1⟩
    intro c hc
    rw [literals_of_derives hderives] at hc
    exact (List.mem_filter.mp hc).2
  refine ⟨⟨fun hparse => (hconverse _ hparse).1, ?_⟩, hconverse⟩
  intro h
  exact parse_eq_ok_iff_derives.mpr ⟨not_doubled_spellAs h _, derives_spellAs h _⟩

/-- Right operands of their own kind are put in parentheses, left ones are not. -/
example : spell (.star (.star (.cat (.cat (.char 'a') .any)
    (.cat (.alt (.alt (.char 'b') (.char 'c')) (.alt (.char 'd') .any)) (.char 'e'))))) =
    "((a.((b|c|(d|.))e))*)*".toList := rfl

end Regex

end Thompson
