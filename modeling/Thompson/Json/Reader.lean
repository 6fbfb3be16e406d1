import Thompson.Json.Basic
import Thompson.Json.Token

/-!
Reading JSON documents. The reader takes one token at a time and keeps the
arrays and objects that are open, from the innermost outwards.
-/

namespace Thompson

namespace Json

/-- An array or object that is still open, with what it holds so far. In an
object, `name` is the member whose value is being read. -/
inductive Frame where
  | items (before : List Json) : Frame
  | members (before : List (Text × Json)) (name : Text) : Frame

/-- What may follow. -/
inductive Expecting where
  | value : Expecting
  | firstItem : Expecting
  | firstName : Expecting
  | name (before : List (Text × Json)) : Expecting
  | colon (before : List (Text × Json)) (name : Text) : Expecting
  /-- The value is complete, and what is around it goes on. -/
  | after (value : Json) : Expecting

structure Reader where
  frames : List Frame
  expecting : Expecting

namespace Reader

/-- The first token of a value. -/
def begin? (frames : List Frame) : Token → Option Reader
  | .str text => some ⟨frames, .after (.str text)⟩
  | .openArray => some ⟨frames, .firstItem⟩
  | .openObject => some ⟨frames, .firstName⟩
  | _ => none

def step? (reader : Reader) (token : Token) : Option Reader :=
  match reader.expecting, reader.frames, token with
  | .value, frames, token => begin? frames token
  | .firstItem, frames, .closeArray => some ⟨frames, .after (.arr [])⟩
  | .firstItem, frames, token => begin? (.items [] :: frames) token
  | .firstName, frames, .closeObject => some ⟨frames, .after (.obj [])⟩
  | .firstName, frames, .str name => some ⟨frames, .colon [] name⟩
  | .name before, frames, .str name => some ⟨frames, .colon before name⟩
  | .colon before name, frames, .colon => some ⟨.members before name :: frames, .value⟩
  | .after value, .items before :: frames, .comma =>
      some ⟨.items (before ++ [value]) :: frames, .value⟩
  | .after value, .items before :: frames, .closeArray =>
      some ⟨frames, .after (.arr (before ++ [value]))⟩
  | .after value, .members before name :: frames, .comma =>
      some ⟨frames, .name (before ++ [(name, value)])⟩
  | .after value, .members before name :: frames, .closeObject =>
      some ⟨frames, .after (.obj (before ++ [(name, value)]))⟩
  | _, _, _ => none

/-- The document, once it is complete. -/
def result? : Reader → Option Json
  | ⟨[], .after value⟩ => some value
  | _ => none

end Reader

def ofTokens? (tokens : List Token) : Option Json := do
  let reader ← tokens.foldlM Reader.step? ⟨[], .value⟩
  reader.result?

/-- Reads a text that is a single document. -/
def read? (text : Text) : Option Json := do
  ofTokens? (← tokens? text)

end Json

end Thompson
