import Thompson.Names

/-!
The four ways in which automata are made: one that reads a single symbol, two
in a row, two side by side, and one in a loop. New states take their names from
a supply. The parts may be any automata, with no accepting state or several and
with names in common; the states and edges that they bring are all kept, except
that a choice and a loop replace the edges of the states in which a part accepts.
-/

namespace Thompson

namespace Automaton

/-- Reads one symbol, from one new state to another. -/
def single (symbol : Symbol) (names : Names) : Automaton × Names :=
  let (start, names) := names.fresh
  let (finish, names) := names.fresh
  ((ofStart start).addEdge ⟨start, .symbol symbol, finish⟩ |>.addAccept finish, names)

/-- Silent edges from each of the states to one target. -/
def bridge (sources : List Nat) (target : Nat) (a : Automaton) : Automaton :=
  sources.foldl (fun a source => a.addEdge ⟨source, .epsilon, target⟩) a

/-- Gives each of the states silent edges to the targets, in place of its own. -/
def rerouteAll (sources targets : List Nat) (a : Automaton) : Automaton :=
  sources.foldl (fun a source => a.reroute source targets) a

/-- The first, then the second. No state is added. -/
def chain (first second : Automaton) : Automaton :=
  { (first.overlay second).bridge first.accept.toList second.start with
    accept := second.accept }

/-- Side by side, between a new start and a new end. -/
def choice (first second : Automaton) (names : Names) : Automaton × Names :=
  let (start, names) := names.fresh
  let (finish, names) := names.fresh
  let fork :=
    (ofStart start).addEdge ⟨start, .epsilon, first.start⟩
      |>.addEdge ⟨start, .epsilon, second.start⟩
  let exits := first.accept.toList ++ second.accept.toList
  (((fork.overlay first).overlay second).rerouteAll exits [finish] |>.addAccept finish, names)

/-- In a loop that may be passed by, between a new start and a new end. -/
def loop (body : Automaton) (names : Names) : Automaton × Names :=
  let (start, names) := names.fresh
  let (finish, names) := names.fresh
  let fork :=
    (ofStart start).addEdge ⟨start, .epsilon, body.start⟩
      |>.addEdge ⟨start, .epsilon, finish⟩
  ((fork.overlay body).rerouteAll body.accept.toList [body.start, finish]
    |>.addAccept finish, names)

end Automaton

end Thompson
