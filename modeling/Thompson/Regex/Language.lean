import Thompson.Regex.Basic

/-!
The words that a regular expression stands for, as an inductive relation that
follows the five forms. Whether the empty word is one of them is read off the form.
-/

namespace Thompson

namespace Regex

inductive Matches : Regex → List Char → Prop where
  | char (c : Char) : Matches (.char c) [c]
  | any (c : Char) : Matches .any [c]
  | cat {l r : Regex} {u v : List Char} :
      Matches l u → Matches r v → Matches (.cat l r) (u ++ v)
  | altLeft {l r : Regex} {w : List Char} : Matches l w → Matches (.alt l r) w
  | altRight {l r : Regex} {w : List Char} : Matches r w → Matches (.alt l r) w
  | starNil {r : Regex} : Matches (.star r) []
  | starCons {r : Regex} {u v : List Char} :
      Matches r u → Matches (.star r) v → Matches (.star r) (u ++ v)

/-- Whether the empty word is among the words. -/
def nullable : Regex → Bool
  | .char _ | .any => false
  | .cat l r => l.nullable && r.nullable
  | .alt l r => l.nullable || r.nullable
  | .star _ => true

end Regex

end Thompson
