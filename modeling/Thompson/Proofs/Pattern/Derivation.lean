import Thompson.Proofs.Pattern.Balance
import Thompson.Regex.Spelling

/-!
Where a phrase of the grammar can end. Within a phrase, a parenthesis is open or the next
character goes on with it, so no phrase begins with a shorter one of its kind that ends there.
A phrase that is none of a tighter kind does begin with a shorter one of that kind.
-/

namespace Thompson

namespace Pattern

open Regex

/-- A phrase is also one of every looser kind. -/
theorem Derives.loosen {tight loose : Phrase} {w : Text} {r : Regex}
    (hle : tightness loose ≤ tightness tight) (h : Derives tight w r) : Derives loose w r := by
  cases tight with
  | expression =>
      cases loose with
      | expression => exact h
      | concatenation | repetition | atom => exact absurd hle (by decide)
  | concatenation =>
      cases loose with
      | expression => exact .concatenation h
      | concatenation => exact h
      | repetition | atom => exact absurd hle (by decide)
  | repetition =>
      cases loose with
      | expression => exact .concatenation (.repetition h)
      | concatenation => exact .repetition h
      | repetition => exact h
      | atom => exact absurd hle (by decide)
  | atom =>
      cases loose with
      | expression => exact .concatenation (.repetition (.atom h))
      | concatenation => exact .repetition (.atom h)
      | repetition => exact .atom h
      | atom => exact h

theorem tightness_le_atom (phrase : Phrase) : tightness phrase ≤ tightness .atom := by
  cases phrase <;> decide

/-- What ends a phrase ends every tighter one. -/
theorem Phrase.EndsBefore.tighten {loose tight : Phrase} {c : Char}
    (hle : tightness loose ≤ tightness tight) (h : loose.EndsBefore c) : tight.EndsBefore c := by
  cases loose with
  | expression =>
      obtain rfl : c = ')' := h
      cases tight with
      | expression | concatenation | repetition | atom => decide
  | concatenation =>
      cases tight with
      | expression => exact absurd hle (by decide)
      | concatenation => exact h
      | repetition =>
          rcases h with rfl | rfl
          · decide
          · decide
      | atom => trivial
  | repetition =>
      cases tight with
      | expression | concatenation => exact absurd hle (by decide)
      | repetition => exact h
      | atom => trivial
  | atom =>
      cases tight with
      | expression | concatenation | repetition => exact absurd hle (by decide)
      | atom => trivial

/-- A phrase begins with an item or a group. -/
theorem exists_head_of_derives {phrase : Phrase} {w : Text} {r : Regex} (h : Derives phrase w r) :
    ∃ c rest, w = c :: rest ∧ c ≠ '*' ∧ c ≠ '|' ∧ c ≠ ')' := by
  induction h with
  | @char c hc =>
      obtain ⟨-, hclosing, hstar, hbar⟩ := ne_of_item (Token.ofChar_of_isAlphanumeric hc)
      exact ⟨c, [], rfl, hstar, hbar, hclosing⟩
  | any => exact ⟨'.', [], rfl, by decide⟩
  | group _ _ => exact ⟨'(', _, rfl, by decide⟩
  | atom _ ih | repetition _ ih | concatenation _ ih => exact ih
  | star _ ih | cat _ _ ih _ | alt _ _ ih _ =>
      obtain ⟨c, rest, rfl, hc⟩ := ih
      exact ⟨c, _, rfl, hc⟩

/-- A character of a text that is put together is in the first part or in the second. -/
private theorem split_append {a b u v : Text} {c : Char} (h : a ++ b = u ++ c :: v) :
    (∃ x, a = u ++ c :: x) ∨ ∃ x, u = a ++ x ∧ b = x ++ c :: v := by
  rcases List.append_eq_append_iff.mp h with ⟨x, hu, hb⟩ | ⟨x, ha, hx⟩
  · exact Or.inr ⟨x, hu, hb⟩
  · cases x with
    | nil =>
        rw [List.append_nil] at ha
        exact Or.inr ⟨[], by rw [ha, List.append_nil], hx.symm⟩
    | cons d x =>
        obtain ⟨rfl, -⟩ := List.cons.inj hx
        exact Or.inl ⟨x, ha⟩

/-- What is left of a text after a part that closes its groups closes its own. -/
private theorem closed_of_append {a x : Text} (ha : Balanced a)
    (h : (a ++ x).count ')' = (a ++ x).count '(') : x.count ')' = x.count '(' := by
  rw [List.count_append, List.count_append, ha.closes_all] at h
  exact Nat.add_left_cancel h

/-- The second part of a phrase is neither ended where it begins nor within. -/
private theorem not_endsBefore_of_second {kind : Phrase} {b x v : Text} {c : Char} {r : Regex}
    (hb : Derives kind b r) (hkind : tightness .concatenation ≤ tightness kind)
    (hsecond : b = x ++ c :: v) (hinside : x ≠ [] → ¬ kind.EndsBefore c) :
    ¬ Phrase.concatenation.EndsBefore c := by
  cases x with
  | nil =>
      obtain ⟨d, rest, rfl, -, hbar, hclosing⟩ := exists_head_of_derives hb
      obtain ⟨rfl, -⟩ := List.cons.inj hsecond
      exact not_or.mpr ⟨hbar, hclosing⟩
  | cons d x =>
      intro hc
      exact hinside (List.cons_ne_nil d x) (hc.tighten hkind)

/-- Outside of its groups, a phrase goes on with every character but the first. -/
theorem not_endsBefore_of_derives {phrase : Phrase} {w u v : Text} {c : Char} {r : Regex}
    (h : Derives phrase w r) (hw : w = u ++ c :: v) (hne : u ≠ [])
    (hclosed : u.count ')' = u.count '(') : ¬ phrase.EndsBefore c := by
  induction h generalizing u v with
  | char _ | any =>
      obtain ⟨d, rest, rfl⟩ := List.exists_cons_of_ne_nil hne
      simp at hw
  | @group w r hinner _ =>
      -- The parenthesis at the beginning has no partner before the last character.
      obtain ⟨d, rest, rfl⟩ := List.exists_cons_of_ne_nil hne
      obtain ⟨rfl, hrest⟩ := List.cons.inj hw
      have hbegins : rest <+: w := by
        rcases split_append hrest with ⟨x, rfl⟩ | ⟨x, rfl, hlast⟩
        · exact List.prefix_append rest (c :: x)
        · cases x with
          | nil => simp only [List.append_nil, List.prefix_rfl]
          | cons d x => simp at hlast
      have hopened := (Balanced.of_derives hinner).opens_first rest hbegins
      simp at hclosed
      omega
  | atom _ ih | repetition _ ih | concatenation _ ih =>
      intro hc
      exact ih hw hne hclosed (hc.tighten (by decide))
  | star _ ih =>
      rcases split_append hw with ⟨x, hfirst⟩ | ⟨x, -, hlast⟩
      · exact ih hfirst hne hclosed
      · intro hc
        cases x with
        | nil => exact hc (List.cons.inj hlast).1.symm
        | cons d x => simp at hlast
  | cat ha hb iha ihb =>
      rcases split_append hw with ⟨x, hfirst⟩ | ⟨x, rfl, hsecond⟩
      · exact iha hfirst hne hclosed
      · have hrest := closed_of_append (Balanced.of_derives ha) hclosed
        exact not_endsBefore_of_second hb (by decide) hsecond fun hx => ihb hsecond hx hrest
  | alt ha hb iha ihb =>
      rcases split_append hw with ⟨x, hfirst⟩ | ⟨x, rfl, hsecond⟩
      · exact iha hfirst hne hclosed
      · have hrest := closed_of_append (Balanced.of_derives ha) hclosed
        intro hc
        cases x with
        | nil =>
            obtain ⟨rfl, -⟩ := List.cons.inj hsecond
            exact absurd hc (by decide)
        | cons d x =>
            obtain ⟨rfl, hlast⟩ := List.cons.inj hsecond
            have hx : x.count ')' = x.count '(' := by simpa using hrest
            have hnone := not_endsBefore_of_second hb (Nat.le_refl _) hlast fun hne =>
              ihb hlast hne hx
            exact hnone (hc.tighten (by decide))

/-- A phrase of the kind is at the beginning of the text and ends before the next character. -/
def Begins (phrase : Phrase) (w : Text) : Prop :=
  ∃ u c v r, w = u ++ c :: v ∧ Derives phrase u r ∧ phrase.EndsBefore c

theorem Begins.append {phrase : Phrase} {w : Text} (h : Begins phrase w) (x : Text) :
    Begins phrase (w ++ x) := by
  obtain ⟨u, c, v, r, rfl, hu, hc⟩ := h
  exact ⟨u, c, v ++ x, r, by simp, hu, hc⟩

/-- A phrase is one of any other kind too, or begins with one. -/
theorem derives_or_begins {kind : Phrase} {w : Text} {r : Regex} (h : Derives kind w r)
    (phrase : Phrase) : Derives phrase w r ∨ Begins phrase w := by
  induction h generalizing phrase with
  | char hc => exact Or.inl ((Derives.char hc).loosen (tightness_le_atom phrase))
  | any => exact Or.inl (Derives.any.loosen (tightness_le_atom phrase))
  | group hw _ => exact Or.inl ((Derives.group hw).loosen (tightness_le_atom phrase))
  | atom _ ih | repetition _ ih | concatenation _ ih => exact ih phrase
  | @star w r hw ih =>
      rcases ih phrase with hwhole | hbegins
      · cases phrase with
        | expression | concatenation | repetition =>
            exact Or.inl ((Derives.star hw).loosen (by decide))
        | atom => exact Or.inr ⟨w, '*', [], r, rfl, hwhole, trivial⟩
      · exact Or.inr (hbegins.append ['*'])
  | @cat u v l r hu hv ihu _ =>
      rcases ihu phrase with hwhole | hbegins
      · obtain ⟨c, rest, rfl, hstar, -⟩ := exists_head_of_derives hv
        cases phrase with
        | expression | concatenation => exact Or.inl ((Derives.cat hu hv).loosen (by decide))
        | repetition => exact Or.inr ⟨u, c, rest, l, rfl, hwhole, hstar⟩
        | atom => exact Or.inr ⟨u, c, rest, l, rfl, hwhole, trivial⟩
      · exact Or.inr (hbegins.append v)
  | @alt u v l r hu hv ihu _ =>
      rcases ihu phrase with hwhole | hbegins
      · cases phrase with
        | expression => exact Or.inl (.alt hu hv)
        | concatenation => exact Or.inr ⟨u, '|', v, l, rfl, hwhole, Or.inl rfl⟩
        | repetition => exact Or.inr ⟨u, '|', v, l, rfl, hwhole, by decide⟩
        | atom => exact Or.inr ⟨u, '|', v, l, rfl, hwhole, trivial⟩
      · exact Or.inr (hbegins.append ('|' :: v))

end Pattern

end Thompson
