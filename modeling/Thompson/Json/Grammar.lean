import Thompson.Json.Basic
import Thompson.Json.Token

/-!
The grammar of JSON texts, as far as these documents go: strings, arrays and objects. A
text falls into tokens with blanks between them, and each value has one sequence of
tokens. Only strings leave a choice, for a character can be written in several ways.
-/

namespace Thompson

namespace Json

/-- How a character may be written between quotes. -/
inductive Spells : Text → Char → Prop where
  | plain {c : Char} : c ≠ '"' → c ≠ '\\' → 0x20 ≤ c.toNat → Spells [c] c
  | short {letter c : Char} : (letter, c) ∈ shortEscapes → Spells ['\\', letter] c
  | slash : Spells ['\\', '/'] '/'
  | hex {a b c d char : Char} :
      hexChar? a b c d = some char → Spells ['\\', 'u', a, b, c, d] char

/-- What may stand between the quotes for a text. -/
inductive SpellsText : Text → Text → Prop where
  | nil : SpellsText [] []
  | cons {u v text : Text} {c : Char} :
      Spells u c → SpellsText v text → SpellsText (u ++ v) (c :: text)

/-- The text is a sequence of tokens, with any blanks before, between and after them. -/
inductive Lexes : Text → List Token → Prop where
  | nil : Lexes [] []
  | blank {c : Char} {rest : Text} {tokens : List Token} :
      isBlank c = true → Lexes rest tokens → Lexes (c :: rest) tokens
  | mark {c : Char} {token : Token} {rest : Text} {tokens : List Token} :
      Token.ofChar? c = some token → Lexes rest tokens → Lexes (c :: rest) (token :: tokens)
  | str {u text rest : Text} {tokens : List Token} :
      SpellsText u text → Lexes rest tokens →
        Lexes ('"' :: (u ++ '"' :: rest)) (.str text :: tokens)

mutual

/-- The tokens of a value. -/
def tokens : Json → List Token
  | .str text => [.str text]
  | .arr [] => [.openArray, .closeArray]
  | .arr (item :: items) => .openArray :: (item.tokens ++ itemTokens items)
  | .obj [] => [.openObject, .closeObject]
  | .obj ((name, value) :: members) =>
      .openObject :: .str name :: .colon :: (value.tokens ++ memberTokens members)

/-- The tokens after the first item, up to the bracket that closes the array. -/
def itemTokens : List Json → List Token
  | [] => [.closeArray]
  | item :: items => .comma :: (item.tokens ++ itemTokens items)

/-- The tokens after the first member, up to the brace that closes the object. -/
def memberTokens : List (Text × Json) → List Token
  | [] => [.closeObject]
  | (name, value) :: members =>
      .comma :: .str name :: .colon :: (value.tokens ++ memberTokens members)

end

/-- The text is a JSON text, and this is its value. -/
def Written (text : Text) (value : Json) : Prop := Lexes text value.tokens

end Json

end Thompson
