import Thompson.Regex.Basic
import Thompson.Text.Quoted

/-!
A regular expression as a term on one line: the name of the node, and its
operands in parentheses. A literal is a quoted character. A term is written in
front of the text that follows it, so no part is written more than once.
-/

namespace Thompson

namespace Regex

/-- The term in front of a text. -/
def termOnto (rest : Text) : Regex → Text
  | .char c => lit "Leaf(" ++ (Text.quoted '\'' [c] ++ ')' :: rest)
  | .any => lit "AnyChar" ++ rest
  | .cat l r =>
      lit "Concatenation(" ++ l.termOnto (lit ", " ++ r.termOnto (')' :: rest))
  | .alt l r => lit "Or(" ++ l.termOnto (lit ", " ++ r.termOnto (')' :: rest))
  | .star r => lit "Star(" ++ r.termOnto (')' :: rest)

def term (r : Regex) : Text := r.termOnto []

/-- What follows a term has no part in it. -/
theorem termOnto_append (r : Regex) (x y : Text) : r.termOnto (x ++ y) = r.termOnto x ++ y := by
  induction r generalizing x with
  | char c | any => simp only [termOnto, List.append_assoc, List.cons_append]
  | cat l r ihl ihr | alt l r ihl ihr =>
      simp only [termOnto, ← List.cons_append, ihl, ihr, ← List.append_assoc]
  | star r ih => simp only [termOnto, ← List.cons_append, ih, ← List.append_assoc]

theorem termOnto_eq (r : Regex) (rest : Text) : r.termOnto rest = r.term ++ rest :=
  r.termOnto_append [] rest

section Nodes

variable (l r : Regex)

theorem term_char (c : Char) :
    (Regex.char c).term = lit "Leaf(" ++ Text.quoted '\'' [c] ++ [')'] := by
  rw [term, termOnto, List.append_assoc]

theorem term_any : Regex.any.term = lit "AnyChar" := by
  rw [term, termOnto, List.append_nil]

theorem term_cat :
    (Regex.cat l r).term =
      lit "Concatenation(" ++ l.term ++ lit ", " ++ r.term ++ [')'] := by
  rw [term, termOnto, termOnto_eq, termOnto_eq]
  simp only [List.append_assoc]

theorem term_alt :
    (Regex.alt l r).term = lit "Or(" ++ l.term ++ lit ", " ++ r.term ++ [')'] := by
  rw [term, termOnto, termOnto_eq, termOnto_eq]
  simp only [List.append_assoc]

theorem term_star : (Regex.star r).term = lit "Star(" ++ r.term ++ [')'] := by
  rw [term, termOnto, termOnto_eq, List.append_assoc]

end Nodes

end Regex

end Thompson
