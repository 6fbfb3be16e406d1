import Thompson.Automaton.Digraph

/-!
What of an automaton is drawn: its states in their order, with the rims that show which of
them accept, the start, and an arrow for each edge. The statements of a digraph can be
written down from this alone.
-/

namespace Thompson

/-- An edge as it is drawn. The caption stands in place of the label. -/
structure Arrow where
  source : Nat
  target : Nat
  caption : Text
  deriving DecidableEq, Repr

structure Drawing where
  /-- The states, each with whether it has a double rim. -/
  nodes : List (Nat × Bool)
  start : Nat
  arrows : List Arrow
  deriving DecidableEq, Repr

def Edge.arrow (e : Edge) : Arrow := ⟨e.source, e.target, e.label.caption⟩

/-- The arrows that leave a state with the row. -/
def Row.arrows (row : Row) (s : Nat) : List Arrow :=
  row.entries.flatMap fun (label, targets) =>
    targets.map fun target => ⟨s, target, label.caption⟩

def Automaton.drawing (a : Automaton) : Drawing where
  nodes := a.states.map fun s => (s, decide (s ∈ a.accept))
  start := a.start
  arrows := a.edges.map Edge.arrow

namespace Drawing

def nodeStatement (node : Nat × Bool) : Text :=
  let shape := if node.2 then lit "doublecircle" else lit "circle"
  '\t' :: (stateName node.1 ++ lit " [shape=" ++ shape ++ lit "];")

def startStatement (s : Nat) : Text := lit "\t__start -> " ++ stateName s ++ lit ";"

def arrowStatement (arrow : Arrow) : Text :=
  '\t' :: (stateName arrow.source ++ lit " -> " ++ stateName arrow.target ++
    lit " [label=\"" ++ arrow.caption ++ lit "\"];")

/-- One statement for each line of the digraph. -/
def statements (d : Drawing) : List Text :=
  [lit "digraph nfa \x7b", lit "\trankdir=LR;", lit "\t__start [shape=point];"] ++
    d.nodes.map nodeStatement ++ startStatement d.start :: d.arrows.map arrowStatement ++
    [lit "\x7d"]

end Drawing

end Thompson
