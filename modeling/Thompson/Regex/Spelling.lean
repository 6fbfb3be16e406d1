import Thompson.Pattern.Phrase

/-!
A regular expression as a pattern, with parentheses only where the place would
otherwise read it differently.
-/

namespace Thompson

namespace Regex

open Pattern

/-- How tightly a phrase holds together. -/
def tightness : Phrase → Nat
  | .expression => 0
  | .concatenation => 1
  | .repetition => 2
  | .atom => 3

/-- The kind of phrase that a regular expression is without parentheses. -/
def phrase : Regex → Phrase
  | .char _ | .any => .atom
  | .star _ => .repetition
  | .cat _ _ => .concatenation
  | .alt _ _ => .expression

/-- The pattern of `r` for a place that needs a phrase of the given kind, where
`text` is the pattern of `r` without parentheses around it. -/
def guarded (need : Phrase) (r : Regex) (text : Text) : Text :=
  if tightness r.phrase < tightness need then '(' :: (text ++ [')']) else text

def spellAs (need : Phrase) : Regex → Text
  | .char c => [c]
  | .any => ['.']
  | .cat l r => guarded need (.cat l r) (l.spellAs .concatenation ++ r.spellAs .repetition)
  | .alt l r => guarded need (.alt l r) (l.spellAs .expression ++ '|' :: r.spellAs .concatenation)
  | .star r => guarded need (.star r) (r.spellAs .atom ++ ['*'])

/-- The pattern of a whole expression. -/
def spell (r : Regex) : Text := r.spellAs .expression

end Regex

end Thompson
