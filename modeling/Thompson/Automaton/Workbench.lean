import Thompson.Regex.Automaton

/-!
Automata made by hand, in any order of steps, with one supply of names for all of them.
The states in a step may be any numbers, be they in use already or still to come from the
supply, and the parts of a composition may have names in common.
-/

namespace Thompson

/-- The automata in the order in which they were made, and the names that are left. A step
adds one and takes none away: a part that a step uses up may have been copied before. -/
structure Workbench where
  made : List Automaton
  names : Names
  deriving DecidableEq

/-- One step. The automata that it starts from are given by their places on the bench. -/
inductive Operation where
  | ofStart (s : Nat) : Operation
  | addEdge (i : Nat) (e : Edge) : Operation
  | addAccept (i s : Nat) : Operation
  | reroute (i s : Nat) (targets : List Nat) : Operation
  | overlay (i j : Nat) : Operation
  | single (symbol : Symbol) : Operation
  | build (r : Regex) : Operation
  | chain (i j : Nat) : Operation
  | choice (i j : Nat) : Operation
  | loop (i : Nat) : Operation
  deriving DecidableEq, Repr

namespace Operation

/-- The states that are given with a step, and not by the supply. -/
def given : Operation → List Nat
  | .ofStart s => [s]
  | .addEdge _ e => [e.source, e.target]
  | .addAccept _ s => [s]
  | .reroute _ s targets => s :: targets
  | .overlay _ _ | .single _ | .build _ | .chain _ _ | .choice _ _ | .loop _ => []

/-- How many names a step takes from the supply. -/
def taken : Operation → Nat
  | .single _ | .choice _ _ | .loop _ => 2
  | .build r => 2 * r.weight
  | .ofStart _ | .addEdge _ _ | .addAccept _ _ | .reroute _ _ _ | .overlay _ _ | .chain _ _ => 0

/-- How many names a run takes. -/
def takenByAll : List Operation → Nat
  | [] => 0
  | operation :: rest => operation.taken + takenByAll rest

end Operation

namespace Workbench

/-- What a step makes, with the names that it leaves. Nothing, if a part is not there. -/
def result? (bench : Workbench) : Operation → Option (Automaton × Names)
  | .ofStart s => some (.ofStart s, bench.names)
  | .addEdge i e => do return ((← bench.made[i]?).addEdge e, bench.names)
  | .addAccept i s => do return ((← bench.made[i]?).addAccept s, bench.names)
  | .reroute i s targets => do return ((← bench.made[i]?).reroute s targets, bench.names)
  | .overlay i j => do return ((← bench.made[i]?).overlay (← bench.made[j]?), bench.names)
  | .single symbol => some (Automaton.single symbol bench.names)
  | .build r => some (r.build bench.names)
  | .chain i j => do return ((← bench.made[i]?).chain (← bench.made[j]?), bench.names)
  | .choice i j => do return (← bench.made[i]?).choice (← bench.made[j]?) bench.names
  | .loop i => do return (← bench.made[i]?).loop bench.names

def perform? (bench : Workbench) (operation : Operation) : Option Workbench :=
  (bench.result? operation).map fun (a, names) => ⟨bench.made ++ [a], names⟩

/-- One step after the other, as long as the parts are there. -/
def run? (bench : Workbench) : List Operation → Option Workbench
  | [] => some bench
  | operation :: rest => (bench.perform? operation).bind fun next => next.run? rest

end Workbench

end Thompson
