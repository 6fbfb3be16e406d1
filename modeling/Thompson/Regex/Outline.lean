import Thompson.Regex.Basic
import Thompson.Text.Basic

/-!
The outline of a regular expression: a line for each node, with the operands
of a node below it and one level further in. An outline is written in front of
the text that follows it, so no line is written more than once.
-/

namespace Thompson

namespace Regex

/-- The outline at a level of depth, in front of a text. -/
def outlineOnto (rest : Text) (depth : Nat) : Regex → Text
  | .char c => Text.indent depth ++ (lit "Leaf: " ++ c :: '\n' :: rest)
  | .any => Text.indent depth ++ (lit "AnyChar\n" ++ rest)
  | .cat l r =>
      Text.indent depth ++ (lit "Concatenation\n" ++
        l.outlineOnto (r.outlineOnto rest (depth + 1)) (depth + 1))
  | .alt l r =>
      Text.indent depth ++ (lit "Or\n" ++
        l.outlineOnto (r.outlineOnto rest (depth + 1)) (depth + 1))
  | .star r => Text.indent depth ++ (lit "Star\n" ++ r.outlineOnto rest (depth + 1))

def outlineAt (depth : Nat) (r : Regex) : Text := r.outlineOnto [] depth

def outline (r : Regex) : Text := r.outlineAt 0

/-- What follows an outline has no part in it. -/
theorem outlineOnto_append (r : Regex) (x y : Text) (depth : Nat) :
    r.outlineOnto (x ++ y) depth = r.outlineOnto x depth ++ y := by
  induction r generalizing x depth with
  | char c | any => simp only [outlineOnto, List.append_assoc, List.cons_append]
  | cat l r ihl ihr | alt l r ihl ihr =>
      simp only [outlineOnto, ihl, ihr, List.append_assoc]
  | star r ih => simp only [outlineOnto, ih, List.append_assoc]

theorem outlineOnto_eq (r : Regex) (rest : Text) (depth : Nat) :
    r.outlineOnto rest depth = r.outlineAt depth ++ rest :=
  r.outlineOnto_append [] rest depth

end Regex

end Thompson
