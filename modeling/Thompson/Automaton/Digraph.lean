import Thompson.Automaton.Basic

/-!
Automata as directed graphs in the DOT language, one statement on a line. An
arrow from a point without a name shows the start, and accepting states have a
double rim.
-/

namespace Thompson

namespace Automaton

def nodeLine (a : Automaton) (s : Nat) : Text :=
  let shape := if s ∈ a.accept then lit "doublecircle" else lit "circle"
  '\t' :: (stateName s ++ lit " [shape=" ++ shape ++ lit "];\n")

end Automaton

def Edge.line (e : Edge) : Text :=
  '\t' :: (stateName e.source ++ lit " -> " ++ stateName e.target ++
    lit " [label=\"" ++ e.label.caption ++ lit "\"];\n")

/-- The whole graph: a line for each entry of the state list, and a line for
each edge. -/
def Automaton.digraph (a : Automaton) : Text :=
  lit "digraph nfa \x7b\n\trankdir=LR;\n\t__start [shape=point];\n" ++
    a.states.flatMap a.nodeLine ++
    (lit "\t__start -> " ++ stateName a.start ++ lit ";\n") ++
    a.edges.flatMap Edge.line ++
    lit "\x7d\n"

end Thompson
