/-!
Regular expressions over characters: a literal character, the wildcard that
stands for any one character, and the three ways of building larger ones.
-/

namespace Thompson

inductive Regex where
  | char : Char → Regex
  | any : Regex
  | cat : Regex → Regex → Regex
  | alt : Regex → Regex → Regex
  | star : Regex → Regex
  deriving DecidableEq, Repr

namespace Regex

/-- How many nodes are not concatenations. These are the ones that need states
of their own in an automaton; a concatenation only joins what its parts have. -/
def weight : Regex → Nat
  | .char _ | .any => 1
  | .cat l r => l.weight + r.weight
  | .alt l r => l.weight + r.weight + 1
  | .star r => r.weight + 1

/-- The literal characters, from left to right. -/
def literals : Regex → List Char
  | .char c => [c]
  | .any => []
  | .cat l r | .alt l r => l.literals ++ r.literals
  | .star r => r.literals

theorem weight_pos (r : Regex) : 0 < r.weight := by
  induction r with
  | char c => exact Nat.one_pos
  | any => exact Nat.one_pos
  | cat l r ihl ihr => exact Nat.add_pos_left ihl _
  | alt l r ihl ihr => exact Nat.succ_pos _
  | star r ih => exact Nat.succ_pos _

end Regex

end Thompson
