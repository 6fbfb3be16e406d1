import Thompson.Pattern.Phrase

/-!
The grammar of patterns, as derivations that carry the regular expression they
stand for. Alternatives and sequences group to the left. Stars may follow each
other here.
-/

namespace Thompson

namespace Pattern

inductive Derives : Phrase → Text → Regex → Prop where
  | char {c : Char} : isAlphanumeric c = true → Derives .atom [c] (.char c)
  | any : Derives .atom ['.'] .any
  | group {w : Text} {r : Regex} :
      Derives .expression w r → Derives .atom ('(' :: (w ++ [')'])) r
  | atom {w : Text} {r : Regex} : Derives .atom w r → Derives .repetition w r
  | star {w : Text} {r : Regex} :
      Derives .repetition w r → Derives .repetition (w ++ ['*']) (.star r)
  | repetition {w : Text} {r : Regex} :
      Derives .repetition w r → Derives .concatenation w r
  | cat {u v : Text} {l r : Regex} :
      Derives .concatenation u l → Derives .repetition v r →
        Derives .concatenation (u ++ v) (.cat l r)
  | concatenation {w : Text} {r : Regex} :
      Derives .concatenation w r → Derives .expression w r
  | alt {u v : Text} {l r : Regex} :
      Derives .expression u l → Derives .concatenation v r →
        Derives .expression (u ++ '|' :: v) (.alt l r)

/-- The characters that can not go on with a phrase of this kind. -/
def Phrase.EndsBefore : Phrase → Char → Prop
  | .expression, c => c = ')'
  | .concatenation, c => c = '|' ∨ c = ')'
  | .repetition, c => c ≠ '*'
  | .atom, _ => True

instance (phrase : Phrase) (c : Char) : Decidable (phrase.EndsBefore c) :=
  match phrase with
  | .expression => inferInstanceAs (Decidable (c = ')'))
  | .concatenation => inferInstanceAs (Decidable (c = '|' ∨ c = ')'))
  | .repetition => inferInstanceAs (Decidable (c ≠ '*'))
  | .atom => inferInstanceAs (Decidable True)

/-- The literals are the alphanumeric characters of the text, in their order. -/
theorem literals_of_derives {phrase : Phrase} {w : Text} {r : Regex} (h : Derives phrase w r) :
    r.literals = w.filter isAlphanumeric := by
  have hopening : isAlphanumeric '(' = false := by decide
  have hclosing : isAlphanumeric ')' = false := by decide
  have hstar : isAlphanumeric '*' = false := by decide
  have hbar : isAlphanumeric '|' = false := by decide
  induction h with
  | char hc => simp [Regex.literals, hc]
  | any => rfl
  | group hw ih => simp [ih, hopening, hclosing]
  | atom hw ih => exact ih
  | star hw ih => simp [Regex.literals, ih, hstar]
  | repetition hw ih => exact ih
  | cat hu hv ihu ihv => rw [Regex.literals, ihu, ihv, List.filter_append]
  | concatenation hw ih => exact ih
  | alt hu hv ihu ihv => simp [Regex.literals, ihu, ihv, hbar]

end Pattern

end Thompson
