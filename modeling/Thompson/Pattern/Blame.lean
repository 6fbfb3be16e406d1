import Thompson.Pattern.Parse

/-!
Where a fault belongs. A pattern fails at the first character that no accepted pattern
could have in its place. One whose characters are all in place fails at its end: for an
item that is missing, or else for the innermost group that is left open. A reader that reports
a fault stands behind the character that it took, or at the end.
-/

namespace Thompson

namespace Pattern

/-- No parenthesis is closed before it is opened, and all of them are closed. -/
structure Balanced (text : Text) : Prop where
  closes_all : text.count ')' = text.count '('
  opens_first : ∀ start, start <+: text → start.count ')' ≤ start.count '('

/-- An item has to follow. -/
def AwaitsItem (text : Text) : Prop :=
  text = [] ∨ text.getLast? = some '(' ∨ text.getLast? = some '|'

/-- The text with a closing parenthesis for every group that it leaves open. -/
def closeAll (text : Text) : Text :=
  text ++ List.replicate (text.count '(' - text.count ')') ')'

/-- The fault is what is wrong with the pattern, at the place where it goes wrong. The
faults of the scan are not among these. -/
def Fault.Located (pattern : Text) : Fault → Prop
  | .misplaced c pos =>
      pattern[pos]? = some c ∧ Viable (pattern.take pos) ∧ ¬ Viable (pattern.take (pos + 1))
  | .ended pos => pos = pattern.length ∧ Viable pattern ∧ AwaitsItem pattern
  | .unclosed pos =>
      Viable pattern ∧ ¬ AwaitsItem pattern ∧ pattern[pos]? = some '(' ∧
        Balanced (pattern.drop (pos + 1)) ∧ ∃ tree, Regex.parse (closeAll pattern) = .ok tree
  | .unopened _ | .doubled _ _ => False

/-- The fault is about the stream from `start` on, and the reader reports it at the place. No
group is blamed before the input has ended. -/
def Fault.ReportedAt (stream : Text) (start : Nat) (place : Cursor Char) : Fault → Prop
  | .misplaced c pos =>
      start ≤ pos ∧ stream[pos]? = some c ∧ place = ⟨stream.drop (pos + 1), pos + 1⟩
  | .ended pos => pos = stream.length ∧ place = ⟨[], pos⟩
  | .unclosed pos => start ≤ pos ∧ stream[pos]? = some '(' ∧ place = ⟨[], stream.length⟩
  | .unopened _ | .doubled _ _ => False

end Pattern

end Thompson
