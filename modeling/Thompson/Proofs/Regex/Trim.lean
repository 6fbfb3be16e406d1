import Thompson.Proofs.Automaton.Trim
import Thompson.Proofs.Regex.Naming

/-!
What is built has no idle state, and its alphabet is exact: the symbols of the
expression, which are the symbols that can be met on a way from the start.
-/

namespace Thompson

namespace Regex

theorem trim_build (r : Regex) (names : Names) : (r.build names).1.Trim :=
  build_induction Automaton.trim_single Automaton.trim_chain Automaton.trim_choice
    Automaton.trim_loop r names

/-- What the leaves read, from left to right. -/
def symbols : Regex → List Symbol
  | .char c => [.char c]
  | .any => [.any]
  | .cat l r | .alt l r => l.symbols ++ r.symbols
  | .star r => r.symbols

theorem mem_alphabet_build (r : Regex) (names : Names) (symbol : Symbol) :
    symbol ∈ (r.build names).1.alphabet ↔ symbol ∈ r.symbols := by
  induction r generalizing names with
  | char c => rw [build, Automaton.single_eq, OrdSet.mem_singleton, symbols, List.mem_singleton]
  | any => rw [build, Automaton.single_eq, OrdSet.mem_singleton, symbols, List.mem_singleton]
  | cat l r ihl ihr =>
      simp only [build, Automaton.chain_eq, OrdSet.mem_union, ihl, ihr, symbols, List.mem_append]
  | alt l r ihl ihr =>
      simp only [build, Automaton.choice_eq, OrdSet.mem_union, ihl, ihr, symbols, List.mem_append]
  | star r ih => simp only [build, Automaton.loop_eq, ih, symbols]

theorem reads_build_iff (r : Regex) (names : Names) (symbol : Symbol) :
    (r.build names).1.Reads symbol ↔ symbol ∈ r.symbols := by
  induction r generalizing names with
  | char c => rw [build, Automaton.reads_single_iff, symbols, List.mem_singleton]
  | any => rw [build, Automaton.reads_single_iff, symbols, List.mem_singleton]
  | cat l r ihl ihr =>
      rw [build, Automaton.reads_chain_iff, ihl, ihr, symbols, List.mem_append]
  | alt l r ihl ihr =>
      obtain ⟨exit, hl⟩ := l.exists_segment names
      obtain ⟨finish, hr⟩ := exists_segment_second l r names
      have hnames := next_build_twice l r names
      rw [build, Automaton.reads_choice_iff hl hr hnames, ihl, ihr, symbols, List.mem_append]
  | star r ih =>
      obtain ⟨exit, hbody⟩ := r.exists_segment names
      rw [build, Automaton.reads_loop_iff hbody (next_build r names), ih, symbols]

/-- Every state of what is built lies on a way from the start to the accepting state, and
the alphabet is the set of symbols of the expression. These are the symbols on the edges
that can be reached from the start. -/
theorem build_trim_and_exact (r : Regex) (names : Names) :
    (∃ exit, (r.build names).1.accept = {exit}) ∧
      (r.build names).1.Trim ∧
      (r.build names).1.alphabet = OrdSet.ofList r.symbols ∧
      ∀ symbol, symbol ∈ (r.build names).1.alphabet ↔
        ∃ e ∈ (r.build names).1.edges,
          (r.build names).1.Reaches (r.build names).1.start e.source ∧
            e.label = .symbol symbol := by
  have htrim := r.trim_build names
  obtain ⟨exit, hseg⟩ := r.exists_segment names
  refine ⟨⟨exit, hseg.accept_eq⟩, htrim, ?_, ?_⟩
  · apply OrdSet.ext
    intro symbol
    rw [mem_alphabet_build, OrdSet.mem_ofList]
  · intro symbol
    rw [mem_alphabet_build, ← r.reads_build_iff names]
    constructor
    · rintro ⟨e, he, hlabel⟩
      exact ⟨e, he, htrim.from_start _ (hseg.source_mem he), hlabel⟩
    · rintro ⟨e, he, -, hlabel⟩
      exact ⟨e, he, hlabel⟩

end Regex

end Thompson
