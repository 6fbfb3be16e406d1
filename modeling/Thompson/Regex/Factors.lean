import Thompson.Regex.Basic

/-!
Regular expressions up to the grouping of their concatenations. A maximal tree
of concatenations becomes the list of its operands, at every level.
-/

namespace Thompson

/-- An operand of a concatenation. It is no concatenation itself. -/
inductive Factor where
  | char : Char → Factor
  | any : Factor
  | alt : List Factor → List Factor → Factor
  | star : List Factor → Factor

namespace Regex

def factors : Regex → List Factor
  | .char c => [.char c]
  | .any => [.any]
  | .cat l r => l.factors ++ r.factors
  | .alt l r => [.alt l.factors r.factors]
  | .star r => [.star r.factors]

/-- Regrouping a concatenation leaves its factors as they are. -/
theorem factors_cat_assoc (a b c : Regex) :
    (Regex.cat (.cat a b) c).factors = (Regex.cat a (.cat b c)).factors :=
  List.append_assoc _ _ _

end Regex

end Thompson
