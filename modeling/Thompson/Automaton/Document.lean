import Thompson.Automaton.Basic
import Thompson.Json.Layout
import Thompson.Json.Reader

/-!
Automata as JSON documents, and back. States are written by name, symbols and
labels as text: the wildcard as a dot and the empty label as the empty string.
A literal dot is written like the wildcard, so an automaton with a literal dot
is not read back.
-/

namespace Thompson

/-- The number of a state, from its name. -/
def stateOfName? : Text → Option Nat
  | 'q' :: digit :: digits =>
      if (digit :: digits).all Char.isDigit then some (Nat.ofDigitChars 10 (digit :: digits) 0)
      else none
  | _ => none

def Symbol.ofText? : Text → Option Symbol
  | ['.'] => some .any
  | [c] => some (.char c)
  | _ => none

def Label.ofKey? : Text → Option Label
  | [] => some .epsilon
  | text => (Symbol.ofText? text).map .symbol

namespace Json

def ofStates (states : List Nat) : Json := .arr (states.map fun s => .str (stateName s))

def ofRow (row : Row) : Json :=
  .obj (row.entries.map fun (label, targets) => (label.key, ofStates targets))

def text? : Json → Option Text
  | .str text => some text
  | _ => none

def items? : Json → Option (List Json)
  | .arr items => some items
  | _ => none

def members? : Json → Option (List (Text × Json))
  | .obj members => some members
  | _ => none

def state? (value : Json) : Option Nat := value.text?.bind stateOfName?

def states? (value : Json) : Option (List Nat) := do
  (← value.items?).mapM state?

def symbols? (value : Json) : Option (List Symbol) := do
  (← value.items?).mapM fun item => item.text?.bind Symbol.ofText?

def row? (value : Json) : Option Row := do
  let entries ← (← value.members?).mapM fun (key, targets) => do
    return (← Label.ofKey? key, ← targets.states?)
  return .ofList entries

def table? (value : Json) : Option Table := do
  let entries ← (← value.members?).mapM fun (name, row) => do
    return (← stateOfName? name, ← row.row?)
  return .ofList entries

end Json

namespace Automaton

def toJson (a : Automaton) : Json :=
  .obj [
    (lit "States", .ofStates a.states),
    (lit "Alphabet", .arr (a.alphabet.toList.map fun s => .str s.text)),
    (lit "Transitions",
      .obj (a.table.entries.map fun (source, row) => (stateName source, .ofRow row))),
    (lit "Start State", .str (stateName a.start)),
    (lit "Accept States", .ofStates a.accept.toList)]

def ofJson? (value : Json) : Option Automaton := do
  return {
    states := ← (← value.member? (lit "States")).states?
    alphabet := .ofList (← (← value.member? (lit "Alphabet")).symbols?)
    table := ← (← value.member? (lit "Transitions")).table?
    start := ← (← value.member? (lit "Start State")).state?
    accept := .ofList (← (← value.member? (lit "Accept States")).states?) }

/-- The document as the content of a file: indented, with a line break at the
end. -/
def document (a : Automaton) : Text := a.toJson.text .indented ++ ['\n']

/-- Reads the automaton that a document describes. -/
def ofDocument? (text : Text) : Option Automaton := do
  ofJson? (← Json.read? text)

/-- A literal dot occurs neither among the symbols nor on an edge. -/
structure NoLiteralDot (a : Automaton) : Prop where
  alphabet : .char '.' ∉ a.alphabet
  table : ∀ entry ∈ a.table.entries, .symbol (.char '.') ∉ entry.2.keys

end Automaton

end Thompson
