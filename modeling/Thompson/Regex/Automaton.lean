import Thompson.Automaton.Compose
import Thompson.Regex.Basic

/-!
The automaton of a regular expression, by one composition for each node. States
are named in the order in which the nodes are finished, operands first.
-/

namespace Thompson

namespace Regex

/-- Builds the automaton with names from a supply. -/
def build : Regex → Names → Automaton × Names
  | .char c, names => Automaton.single (.char c) names
  | .any, names => Automaton.single .any names
  | .cat l r, names =>
      let (first, names) := l.build names
      let (second, names) := r.build names
      (first.chain second, names)
  | .alt l r, names =>
      let (first, names) := l.build names
      let (second, names) := r.build names
      first.choice second names
  | .star r, names =>
      let (body, names) := r.build names
      body.loop names

/-- The automaton whose states are named from zero on. -/
def automaton (r : Regex) : Automaton := (r.build (.ofStart 0)).1

/-- The nodes in the order in which they are finished, each with the supply that
its part of the automaton is built from. -/
def parts : Regex → Names → List (Regex × Names)
  | .char c, names => [(.char c, names)]
  | .any, names => [(.any, names)]
  | .cat l r, names =>
      l.parts names ++ r.parts (l.build names).2 ++ [(.cat l r, names)]
  | .alt l r, names =>
      l.parts names ++ r.parts (l.build names).2 ++ [(.alt l r, names)]
  | .star r, names => r.parts names ++ [(.star r, names)]

/-- A node takes two names unless it is a concatenation. -/
theorem build_names (r : Regex) (names : Names) :
    (r.build names).2 = ⟨names.next + 2 * r.weight⟩ := by
  induction r generalizing names with
  | char c => rfl
  | any => rfl
  | cat l r ihl ihr =>
      simp only [build, weight, ihl, ihr]
      exact congrArg Names.mk (by omega)
  | alt l r ihl ihr =>
      simp only [build, Automaton.choice, Names.fresh, weight, ihl, ihr]
      exact congrArg Names.mk (by omega)
  | star r ih =>
      simp only [build, Automaton.loop, Names.fresh, weight, ih]
      exact congrArg Names.mk (by omega)

end Regex

end Thompson
