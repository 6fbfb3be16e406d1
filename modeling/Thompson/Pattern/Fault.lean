import Thompson.Text.Basic

/-!
What can be wrong with a pattern. Each cause carries the position that it is
reported at, counted in characters from zero.
-/

namespace Thompson

namespace Pattern

inductive Fault where
  /-- A closing parenthesis has no opening one before it. -/
  | unopened : Nat → Fault
  /-- An operator follows itself at once; the position is that of the second. -/
  | doubled : Char → Nat → Fault
  /-- The input ended inside the group that was opened at the position. -/
  | unclosed : Nat → Fault
  /-- The input ended where an item had to follow. -/
  | ended : Nat → Fault
  /-- A character stands where it can not continue the pattern. -/
  | misplaced : Char → Nat → Fault
  deriving DecidableEq, Repr

namespace Fault

/-- The cause in words. Characters are written as they are. -/
def detail : Fault → Text
  | .unopened pos => lit "unmatched ')' at position " ++ Text.ofNat pos
  | .doubled operator pos =>
      lit "repeated operator '" ++ [operator] ++ lit "' at position " ++ Text.ofNat pos
  | .unclosed pos => lit "unmatched '(' opened at position " ++ Text.ofNat pos
  | .ended pos =>
      lit "expected a symbol, '.' or '(' at position " ++ Text.ofNat pos ++
        lit " but input ended"
  | .misplaced c pos =>
      lit "unexpected '" ++ [c] ++ lit "' at position " ++ Text.ofNat pos

def message (fault : Fault) : Text := lit "invalid regular expression: " ++ fault.detail

end Fault

end Pattern

end Thompson
