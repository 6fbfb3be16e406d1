import Thompson.Names

/-!
Automata with all their states moved up by one number. The order of the states, of the rows
and of the targets stays as it is, and so does what is read on the edges.
-/

namespace Thompson

def Names.shift (k : Nat) (names : Names) : Names := ⟨names.next + k⟩

def Edge.shift (k : Nat) (e : Edge) : Edge := ⟨e.source + k, e.label, e.target + k⟩

def OrdSet.shift (k : Nat) (s : OrdSet Nat) : OrdSet Nat :=
  OrdMap.rename (· + k) (fun _ _ hlt => Nat.add_lt_add_right hlt k) id s

/-- The labels stay, and the targets move. -/
def Row.shift (k : Nat) (row : Row) : Row :=
  OrdMap.rename id (fun _ _ hlt => hlt) (fun targets => targets.map (· + k)) row

/-- The sources move, and the targets in their rows with them. -/
def Table.shift (k : Nat) (t : Table) : Table :=
  OrdMap.rename (· + k) (fun _ _ hlt => Nat.add_lt_add_right hlt k) (Row.shift k) t

def Automaton.shift (k : Nat) (a : Automaton) : Automaton where
  states := a.states.map (· + k)
  alphabet := a.alphabet
  table := a.table.shift k
  start := a.start + k
  accept := a.accept.shift k

end Thompson
