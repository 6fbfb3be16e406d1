import Thompson.Pattern.Fault

/-!
The two faults that a scan from left to right finds without reading phrases: a
closing parenthesis too many, and an operator written twice in a row. The scan
needs no more than the number of open parentheses and the last character.
-/

namespace Thompson

namespace Pattern

def isOperator (c : Char) : Bool := c = '*' || c = '|'

/-- Scans what is left, with `depth` parentheses open and `last` just read. -/
def scan (depth : Nat) (last : Option Char) (pos : Nat) : Text → Except Fault Unit
  | [] => .ok ()
  | c :: rest =>
      if c = '(' then scan (depth + 1) (some c) (pos + 1) rest
      else if c = ')' then
        match depth with
        | 0 => .error (.unopened pos)
        | depth + 1 => scan depth (some c) (pos + 1) rest
      else if isOperator c ∧ last = some c then .error (.doubled c pos)
      else scan depth (some c) (pos + 1) rest

/-- The first violation, if there is one. An opening parenthesis that is never
closed is none: only reading the phrases tells which one to blame. -/
def check (pattern : Text) : Except Fault Unit := scan 0 none 0 pattern

/-- Position `p` closes a group that was not opened, or repeats the operator
before it. -/
def Violation (pattern : Text) (p : Nat) : Prop :=
  (pattern[p]? = some ')' ∧ (pattern.take p).count '(' = (pattern.take p).count ')') ∨
    ∃ c, isOperator c = true ∧ 0 < p ∧ pattern[p]? = some c ∧ pattern[p - 1]? = some c

/-- The fault of a violation, by the character that stands there. -/
def Fault.ofViolation (c : Char) (pos : Nat) : Fault :=
  if c = ')' then .unopened pos else .doubled c pos

end Pattern

end Thompson
