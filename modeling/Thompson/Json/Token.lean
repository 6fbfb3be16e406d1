import Thompson.Json.Quoted

/-!
The tokens of a JSON text: brackets, separators and strings. Blanks between
tokens are passed over.
-/

namespace Thompson

namespace Json

inductive Token where
  | openArray : Token
  | closeArray : Token
  | openObject : Token
  | closeObject : Token
  | comma : Token
  | colon : Token
  | str : Text → Token
  deriving DecidableEq, Repr

/-- The token that is one character, if there is one. -/
def Token.ofChar? : Char → Option Token
  | '[' => some .openArray
  | ']' => some .closeArray
  | '\x7b' => some .openObject
  | '\x7d' => some .closeObject
  | ',' => some .comma
  | ':' => some .colon
  | _ => none

def isBlank (c : Char) : Bool := c = ' ' || c = '\n' || c = '\r' || c = '\t'

mutual

/-- The tokens of a text that starts between two tokens. -/
def tokens? : Text → Option (List Token)
  | [] => some []
  | '"' :: rest => do
      let (text, tokens) ← string? rest
      return .str text :: tokens
  | c :: rest =>
      if isBlank c then tokens? rest
      else do
        let token ← Token.ofChar? c
        let tokens ← tokens? rest
        return token :: tokens

/-- The end of a string that was opened before, and the tokens after it. -/
def string? : Text → Option (Text × List Token)
  | [] => none
  | '"' :: rest => do
      let tokens ← tokens? rest
      return ([], tokens)
  | '\\' :: 'u' :: a :: b :: c :: d :: rest => do
      let char ← hexChar? a b c d
      let (text, tokens) ← string? rest
      return (char :: text, tokens)
  | '\\' :: letter :: rest => do
      let char ← unescape? letter
      let (text, tokens) ← string? rest
      return (char :: text, tokens)
  | c :: rest =>
      if c = '\\' ∨ c.toNat < 0x20 then none
      else do
        let (text, tokens) ← string? rest
        return (c :: text, tokens)

end

end Json

end Thompson
