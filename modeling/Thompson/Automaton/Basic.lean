import Thompson.Automaton.Label
import Thompson.Ordered.Set

/-!
Nondeterministic automata with silent edges. A state is known by its number.
The states are a list in which a number may come twice, and nothing forces the
edges to keep to them; `Closed` says when they do. Two automata are equal when
they agree in all five parts, the order of the states and of the targets in a
row included.
-/

namespace Thompson

/-- How the state of a number is called. -/
def stateName (s : Nat) : Text := 'q' :: Text.ofNat s

/-- Where the edges of one state lead, in the order they were added. -/
abbrev Row := OrdMap Label (List Nat)

abbrev Table := OrdMap Nat Row

structure Edge where
  source : Nat
  label : Label
  target : Nat
  deriving DecidableEq, Repr

structure Automaton where
  states : List Nat
  alphabet : OrdSet Symbol
  table : Table
  start : Nat
  accept : OrdSet Nat
  deriving DecidableEq

/-- Two rows as one; the targets of the first come before those of the second. -/
def Row.join (a b : Row) : Row := a.merge (fun first second => first ++ second) b

/-- How many targets a row has under all its labels. -/
def Row.size (row : Row) : Nat :=
  row.entries.foldr (fun (_, targets) n => targets.length + n) 0

def Table.join (a b : Table) : Table := a.merge Row.join b

/-- The symbols that a label adds to an alphabet. -/
def Label.symbols : Label → OrdSet Symbol
  | .epsilon => ∅
  | .symbol s => {s}

namespace Automaton

/-- A start state and nothing else. -/
def ofStart (s : Nat) : Automaton := ⟨[s], ∅, ∅, s, ∅⟩

def addAccept (s : Nat) (a : Automaton) : Automaton :=
  { a with states := a.states ++ [s], accept := insert s a.accept }

/-- Adds an edge after those with the same source and label. -/
def addEdge (e : Edge) (a : Automaton) : Automaton :=
  { a with
    alphabet := a.alphabet ∪ e.label.symbols
    table := a.table.join (.single e.source (.single e.label [e.target])) }

/-- Gives a state silent edges to the targets, in place of all edges it had. The
alphabet stays as it is. -/
def reroute (s : Nat) (targets : List Nat) (a : Automaton) : Automaton :=
  { a with table := a.table.insert s (.single .epsilon targets) }

/-- Brings the states, symbols and edges of `b` into `a`. Where `a` starts and
what it accepts stays as it is. -/
def overlay (a b : Automaton) : Automaton :=
  { a with
    states := a.states ++ b.states
    alphabet := a.alphabet ∪ b.alphabet
    table := a.table.join b.table }

/-- The edges by source, then by label, then in the order of the row. -/
def edges (a : Automaton) : List Edge :=
  a.table.entries.flatMap fun (source, row) =>
    row.entries.flatMap fun (label, targets) =>
      targets.map fun target => ⟨source, label, target⟩

/-- How many edges there are, counted row by row. -/
def edgeCount (a : Automaton) : Nat :=
  a.table.entries.foldr (fun (_, row) n => row.size + n) 0

/-- Where the edges of a state with a given label lead. -/
def targets (a : Automaton) (s : Nat) (label : Label) : List Nat :=
  ((a.table.get? s).bind (·.get? label)).getD []

/-- All that is mentioned is among the states, and something is accepted. -/
structure Closed (a : Automaton) : Prop where
  start_mem : a.start ∈ a.states
  accept_ne_nil : a.accept.toList ≠ []
  accept_mem : ∀ s ∈ a.accept.toList, s ∈ a.states
  edge_mem : ∀ e ∈ a.edges, e.source ∈ a.states ∧ e.target ∈ a.states

instance (a : Automaton) : Decidable a.Closed :=
  decidable_of_iff
    (a.start ∈ a.states ∧ a.accept.toList ≠ [] ∧ (∀ s ∈ a.accept.toList, s ∈ a.states) ∧
      ∀ e ∈ a.edges, e.source ∈ a.states ∧ e.target ∈ a.states)
    ⟨fun ⟨h₁, h₂, h₃, h₄⟩ => ⟨h₁, h₂, h₃, h₄⟩, fun ⟨h₁, h₂, h₃, h₄⟩ => ⟨h₁, h₂, h₃, h₄⟩⟩

theorem mem_edges_iff {a : Automaton} {s t : Nat} {label : Label} :
    ⟨s, label, t⟩ ∈ a.edges ↔ t ∈ a.targets s label := by
  simp only [edges, targets, List.mem_flatMap, List.mem_map, Prod.exists]
  constructor
  · rintro ⟨source, row, hrow, l, ts, hts, target, htarget, heq⟩
    cases heq
    rw [OrdMap.mem_entries_iff] at hrow hts
    simpa [hrow, hts] using htarget
  · intro h
    cases hrow : a.table.get? s with
    | none => simp [hrow] at h
    | some row =>
        cases hts : row.get? label with
        | none => simp [hrow, hts] at h
        | some ts =>
            refine ⟨s, row, OrdMap.mem_entries_iff.mpr hrow, label, ts,
              OrdMap.mem_entries_iff.mpr hts, t, ?_, rfl⟩
            simpa [hrow, hts] using h

theorem edgeCount_eq_length_edges (a : Automaton) : a.edgeCount = a.edges.length := by
  have hrow (source : Nat) : ∀ entries : List (Label × List Nat),
      entries.foldr (fun (_, targets) n => targets.length + n) 0 =
        (entries.flatMap fun (label, targets) =>
          targets.map fun target => Edge.mk source label target).length := by
    intro entries
    induction entries with
    | nil => rfl
    | cons entry rest ih =>
        rw [List.foldr_cons, ih, List.flatMap_cons, List.length_append, List.length_map]
  have htable : ∀ entries : List (Nat × Row),
      entries.foldr (fun (_, row) n => row.size + n) 0 =
        (entries.flatMap fun (source, row) =>
          row.entries.flatMap fun (label, targets) =>
            targets.map fun target => Edge.mk source label target).length := by
    intro entries
    induction entries with
    | nil => rfl
    | cons entry rest ih =>
        rw [List.foldr_cons, ih, List.flatMap_cons, List.length_append, ← hrow entry.1]
        rfl
  exact htable a.table.entries

end Automaton

end Thompson
