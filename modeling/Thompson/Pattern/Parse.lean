import Thompson.Pattern.Phrase
import Thompson.Pattern.Violation

/-!
From a pattern to its regular expression. The scan for violations comes first,
so its faults win over those of the phrases.
-/

namespace Thompson

open Pattern

/-- Reads a whole pattern as an expression. -/
def Regex.parse (pattern : Text) : Except Fault Regex := do
  check pattern
  match Phrase.expression.read (.ofList pattern) with
  | (.error fault, _) => .error fault
  | (.ok tree, place) =>
      match place.peek with
      | none => .ok tree
      | some c => .error (.misplaced c place.pos)

/-- A text that some pattern begins with. -/
def Pattern.Viable (text : Text) : Prop :=
  ∃ rest tree, Regex.parse (text ++ rest) = .ok tree

end Thompson
