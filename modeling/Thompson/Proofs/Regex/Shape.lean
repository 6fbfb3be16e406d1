import Thompson.Proofs.Automaton.Shape
import Thompson.Proofs.Regex.Trim

/-!
The shape of what is built, whatever the expression: all states but the accepting one have a
row, each row has a single label with one target or two, and at most two edges lead to a state.
-/

namespace Thompson

namespace Regex

theorem slim_build (r : Regex) (names : Names) : (r.build names).1.Slim :=
  build_induction Automaton.slim_single Automaton.slim_chain Automaton.slim_choice
    Automaton.slim_loop r names

/-- The accepting state is the only one without a row. In a segment it has none, and in a trim
automaton every other state has a way on. -/
theorem mem_keys_build_iff {r : Regex} {names : Names} {exit : Nat}
    (hseg : (r.build names).1.Segment names.next (2 * r.weight) exit) {s : Nat} :
    s ∈ (r.build names).1.table.keys ↔ s ∈ (r.build names).1.states ∧ s ≠ exit := by
  rw [OrdMap.mem_keys_iff]
  constructor
  · rintro ⟨row, hrow⟩
    exact ⟨hseg.mem_of_row hrow, fun heq =>
      hseg.not_accept_of_row hrow (hseg.mem_accept_iff.mpr heq)⟩
  · rintro ⟨hs, hne⟩
    exact (r.trim_build names).exists_row hs fun haccept =>
      hne (hseg.mem_accept_iff.mp haccept)

/-- What is built has a row for every state but the accepting one. A row reads one symbol and
leads to the next name, or is silent and leads to one state or to two different ones. Nothing
leads to the start or leaves the accepting state, and at most two edges lead to any state. -/
theorem build_slim_with_rows (r : Regex) (names : Names) :
    ∃ exit, (r.build names).1.accept = {exit} ∧
      (∀ s, s ∈ (r.build names).1.table.keys ↔ s ∈ (r.build names).1.states ∧ s ≠ exit) ∧
      (∀ s row, (r.build names).1.table.get? s = some row → row.Slim s) ∧
      (∀ e ∈ (r.build names).1.edges, e.target ≠ (r.build names).1.start ∧ e.source ≠ exit) ∧
      ∀ s, (r.build names).1.arrivals s ≤ 2 := by
  obtain ⟨exit, hseg⟩ := r.exists_segment names
  have hslim := r.slim_build names
  have hstart := Automaton.arrivals_eq_zero_iff.mp hslim.start_arrivals
  refine ⟨exit, hseg.accept_eq, ?_, hslim.row, ?_, hslim.arrivals_le⟩
  · intro s
    exact mem_keys_build_iff hseg
  · intro e he
    exact ⟨hstart e he, hseg.source_ne_exit he⟩

end Regex

end Thompson
