import Thompson.Regex.Basic

/-!
The nodes of a regular expression in the order in which a traversal leaves them. Those of a part
stand next to each other, and the part itself is the last of them.
-/

namespace Thompson

namespace Regex

/-- All nodes, operands before the node that they belong to and the left one first. -/
def postorder : Regex → List Regex
  | .char c => [.char c]
  | .any => [.any]
  | .cat l r => l.postorder ++ r.postorder ++ [.cat l r]
  | .alt l r => l.postorder ++ r.postorder ++ [.alt l r]
  | .star r => r.postorder ++ [.star r]

def isCat : Regex → Bool
  | .cat _ _ => true
  | .char _ | .any | .alt _ _ | .star _ => false

theorem countP_postorder (r : Regex) : r.postorder.countP (!·.isCat) = r.weight := by
  induction r with
  | char c => rfl
  | any => rfl
  | cat l r ihl ihr | alt l r ihl ihr =>
      rw [postorder, List.countP_append, List.countP_append, ihl, ihr]
      rfl
  | star r ih =>
      rw [postorder, List.countP_append, ih]
      rfl

end Regex

end Thompson
