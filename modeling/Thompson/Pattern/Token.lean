import Thompson.Regex.Basic
import Thompson.Text.Alphanumeric

/-!
The part that a character plays in a pattern.
-/

namespace Thompson

namespace Pattern

inductive Token where
  | opening : Token
  | closing : Token
  | bar : Token
  | star : Token
  /-- A literal character or the wildcard: an item on its own. -/
  | item : Regex → Token
  /-- A character that has no part. -/
  | stray : Token
  deriving DecidableEq, Repr

def Token.ofChar (c : Char) : Token :=
  if c = '(' then .opening
  else if c = ')' then .closing
  else if c = '|' then .bar
  else if c = '*' then .star
  else if c = '.' then .item .any
  else if isAlphanumeric c then .item (.char c)
  else .stray

/-- Every alphanumeric character stands for itself. -/
theorem Token.ofChar_of_isAlphanumeric {c : Char} (h : isAlphanumeric c = true) :
    Token.ofChar c = .item (.char c) := by
  have hne : ∀ d, isAlphanumeric d = false → c ≠ d := by
    rintro d hd rfl
    simp [h] at hd
  simp [Token.ofChar, h, hne '(' (by decide), hne ')' (by decide), hne '|' (by decide),
    hne '*' (by decide), hne '.' (by decide)]

end Pattern

end Thompson
