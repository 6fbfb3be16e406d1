import Thompson.Text.Basic

/-!
Strings between quotes. The quote, the backslash and the control characters
below U+0020 are written as escapes, all other characters as they are.
-/

namespace Thompson

namespace Json

/-- The short escapes: the letter after the backslash, and what it stands for. -/
def shortEscapes : List (Char × Char) :=
  [('"', '"'), ('\\', '\\'), ('b', '\x08'), ('f', '\x0c'), ('n', '\n'), ('r', '\r'), ('t', '\t')]

/-- A control character without a short escape is written with four hexadecimal
digits, of which the first two are zero. -/
def escape (c : Char) : Text :=
  match shortEscapes.find? (·.2 = c) with
  | some (letter, _) => ['\\', letter]
  | none =>
      if c.toNat < 0x20 then
        lit "\\u00" ++ [Nat.digitChar (c.toNat / 16), Nat.digitChar (c.toNat % 16)]
      else [c]

def quote (text : Text) : Text := '"' :: (text.flatMap escape ++ ['"'])

def hexValue? (c : Char) : Option Nat :=
  if '0' ≤ c ∧ c ≤ '9' then some (c.toNat - 48)
  else if 'a' ≤ c ∧ c ≤ 'f' then some (c.toNat - 87)
  else if 'A' ≤ c ∧ c ≤ 'F' then some (c.toNat - 55)
  else none

/-- The character of four hexadecimal digits. Half a surrogate pair is none. -/
def hexChar? (a b c d : Char) : Option Char := do
  let n := (((← hexValue? a) * 16 + (← hexValue? b)) * 16 + (← hexValue? c)) * 16 + (← hexValue? d)
  if n.isValidChar then some (Char.ofNat n) else none

/-- What a single letter after a backslash stands for. A reader also takes the
escaped slash, which is never written. -/
def unescape? (letter : Char) : Option Char :=
  if letter = '/' then some '/'
  else (shortEscapes.find? (·.1 = letter)).map Prod.snd

end Json

end Thompson
