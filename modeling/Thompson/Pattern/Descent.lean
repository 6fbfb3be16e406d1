import Thompson.Pattern.Phrase

/-!
Reading phrases by recursive descent: one rule for each kind of phrase, which calls the rule of
the next tighter kind and goes on in a loop. The rule of an item calls that of an expression for
what stands in parentheses, so the depth of the recursion is that of the groups.

A rule that succeeds has taken a character, and an outcome says so. So a rule that calls another
one for what follows has less ahead of it, and where it calls one for the same place, the kind
of phrase is tighter.
-/

namespace Thompson

namespace Pattern

/-- What a rule comes to: a fault and the place where the reader was left, or a tree and a place
with fewer characters ahead than the bound. -/
inductive Outcome (bound : Nat) where
  | failed (fault : Fault) (place : Cursor Char) : Outcome bound
  | read (tree : Regex) (place : Cursor Char) (ahead : place.rest.length < bound) : Outcome bound

namespace Outcome

/-- Goes on where a rule has succeeded. A failure stays as it is. -/
def andThen {n m : Nat} (outcome : Outcome n)
    (next : (tree : Regex) → (place : Cursor Char) → place.rest.length < n → Outcome m) :
    Outcome m :=
  match outcome with
  | .failed fault place => .failed fault place
  | .read tree place ahead => next tree place ahead

/-- The same outcome under a larger bound. -/
def within {n m : Nat} (h : n ≤ m) (outcome : Outcome n) : Outcome m :=
  outcome.andThen fun tree place ahead => .read tree place (Nat.lt_of_lt_of_le ahead h)

def result {n : Nat} : Outcome n → Except Fault Regex × Cursor Char
  | .failed fault place => (.error fault, place)
  | .read tree place _ => (.ok tree, place)

end Outcome

namespace Descent

theorem length_of_pop {cursor next : Cursor Char} {c : Char} (h : cursor.pop = (some c, next)) :
    next.rest.length < cursor.rest.length := by
  rw [(Cursor.pop_eq_some_iff.mp h).1]
  exact Nat.lt_succ_self _

theorem length_of_popIf {cursor next : Cursor Char} {c : Char}
    (h : cursor.popIf c = (true, next)) : next.rest.length < cursor.rest.length :=
  length_of_pop (Cursor.popIf_eq_true_iff.mp h)

/-- The stars after an item apply to it, one after the other. -/
def stars (item : Regex) (cursor : Cursor Char) : Outcome (cursor.rest.length + 1) :=
  match h : cursor.popIf '*' with
  | (true, next) =>
      have shorter := length_of_popIf h
      (stars (.star item) next).within (by omega)
  | (false, next) => .read item next (by rw [(Cursor.popIf_eq_false_iff.mp h).2]; omega)
termination_by cursor.rest.length

/-- The end of a group. One that is not closed is blamed on its opening. -/
def closing (opened : Nat) (inner : Regex) (cursor : Cursor Char) : Outcome cursor.rest.length :=
  match h : cursor.popIf ')' with
  | (true, next) => .read inner next (length_of_popIf h)
  | (false, next) => .failed (.unclosed opened) next

mutual

/-- Alternatives with bars between them. -/
def expression (cursor : Cursor Char) : Outcome cursor.rest.length :=
  (concatenation cursor).andThen fun first place ahead =>
    (alternatives first place).within ahead
termination_by (cursor.rest.length, 3)

/-- The alternatives after the first, each of them behind a bar. -/
def alternatives (left : Regex) (cursor : Cursor Char) : Outcome (cursor.rest.length + 1) :=
  match h : cursor.popIf '|' with
  | (true, next) =>
      have shorter := length_of_popIf h
      (concatenation next).andThen fun right place ahead =>
        (alternatives (.alt left right) place).within (by omega)
  | (false, next) => .read left next (by rw [(Cursor.popIf_eq_false_iff.mp h).2]; omega)
termination_by (cursor.rest.length, 3)

/-- Items in a row. -/
def concatenation (cursor : Cursor Char) : Outcome cursor.rest.length :=
  (repetition cursor).andThen fun first place ahead =>
    (items first place).within ahead
termination_by (cursor.rest.length, 2)

/-- The items after the first, up to a bar, a closing parenthesis or the end. -/
def items (left : Regex) (cursor : Cursor Char) : Outcome (cursor.rest.length + 1) :=
  match cursor.peek with
  | none | some '|' | some ')' => .read left cursor (Nat.lt_succ_self _)
  | some _ =>
      (repetition cursor).andThen fun right place ahead =>
        (items (.cat left right) place).within (by omega)
termination_by (cursor.rest.length, 2)

/-- An item with its stars. -/
def repetition (cursor : Cursor Char) : Outcome cursor.rest.length :=
  (atom cursor).andThen fun item place ahead => (stars item place).within ahead
termination_by (cursor.rest.length, 1)

/-- A group, a wildcard or a literal. -/
def atom (cursor : Cursor Char) : Outcome cursor.rest.length :=
  match h : cursor.pop with
  | (some '(', next) =>
      have shorter := length_of_pop h
      (expression next).andThen fun inner place ahead =>
        (closing cursor.pos inner place).within (by omega)
  | (some '.', next) => .read .any next (length_of_pop h)
  | (some c, next) =>
      if isAlphanumeric c then .read (.char c) next (length_of_pop h)
      else .failed (.misplaced c cursor.pos) next
  | (none, next) => .failed (.ended cursor.pos) next
termination_by (cursor.rest.length, 0)

end

end Descent

/-- Reads a phrase by the rule of its kind. -/
def Phrase.descend (phrase : Phrase) (cursor : Cursor Char) : Except Fault Regex × Cursor Char :=
  match phrase with
  | .expression => (Descent.expression cursor).result
  | .concatenation => (Descent.concatenation cursor).result
  | .repetition => (Descent.repetition cursor).result
  | .atom => (Descent.atom cursor).result

end Pattern

end Thompson
