import Thompson.Proofs.Regex.Grouping
import Thompson.Proofs.Regex.Layout

/-!
Reading the factors of a regular expression back from its automaton. What is built
has the states of its factors in their order, and the rows in which the factors
start survive every composition.
-/

namespace Thompson

namespace Regex

open Factor

theorem listWeight_factors (r : Regex) : listWeight r.factors = r.weight := by
  induction r with
  | char c => rfl
  | any => rfl
  | cat l r ihl ihr => rw [factors, listWeight_append, ihl, ihr, Regex.weight]
  | alt l r ihl ihr =>
      simp only [factors, listWeight, Factor.weight, ihl, ihr, Regex.weight, Nat.add_zero]
  | star r ih => simp only [factors, listWeight, Factor.weight, ih, Regex.weight, Nat.add_zero]

theorem states_build (r : Regex) (names : Names) :
    (r.build names).1.states = listStates r.factors names.next := by
  induction r generalizing names with
  | char c => rfl
  | any => rfl
  | cat l r ihl ihr =>
      rw [build, factors, listStates_append, listWeight_factors]
      simp only [Automaton.chain_eq]
      rw [ihl, ihr, next_build]
  | alt l r ihl ihr =>
      have hnext : (r.build (l.build names).2).2.next = names.next + 2 * (l.weight + r.weight) := by
        have hnames := next_build_twice l r names
        omega
      simp only [build, Automaton.choice_eq, factors, listStates, Factor.states,
        listWeight_factors, ihl, ihr, hnext, next_build, List.append_nil]
  | star r ih =>
      simp only [build, Automaton.loop_eq, factors, listStates, Factor.states,
        listWeight_factors, ih, next_build, List.append_nil]

theorem start_build (r : Regex) (names : Names) :
    (r.build names).1.start = listEntry r.factors names.next := by
  obtain ⟨exit, hr⟩ := r.exists_segment names
  have hhead := hr.head_states
  rw [states_build, head?_listStates r.factors_ne_nil] at hhead
  exact (Option.some.inj hhead).symm

/-- The table of what is built shows the factors. -/
theorem shows_build (r : Regex) (names : Names) :
    ListShows (r.build names).1.table r.factors names.next := by
  induction r generalizing names with
  | char c => exact ⟨Automaton.get?_single_start names (.char c), trivial⟩
  | any => exact ⟨Automaton.get?_single_start names .any, trivial⟩
  | cat l r ihl ihr =>
      obtain ⟨exit, hl⟩ := l.exists_segment names
      obtain ⟨finish, hr⟩ := exists_segment_second l r names
      have hfirst := ihl names
      have hsecond := ihr (l.build names).2
      rw [next_build] at hsecond
      rw [factors, listShows_append, listWeight_factors]
      constructor
      · exact ListShows.mono (fun s row => Automaton.get?_chain_left hl hr) hfirst
      · exact ListShows.mono (fun s row => Automaton.get?_chain_right hl hr) hsecond
  | alt l r ihl ihr =>
      obtain ⟨exit, hl⟩ := l.exists_segment names
      obtain ⟨finish, hr⟩ := exists_segment_second l r names
      have hnames := next_build_twice l r names
      have hfirst := ihl names
      have hsecond := ihr (l.build names).2
      have hlstart := l.start_build names
      have hrstart := r.start_build (l.build names).2
      rw [next_build] at hsecond hrstart
      refine ⟨⟨?_, ?_, ?_⟩, trivial⟩
      · have hentry : entry (.alt l.factors r.factors) names.next =
            (r.build (l.build names).2).2.next := by
          rw [hnames, entry, Factor.weight, listWeight_factors, listWeight_factors]
          omega
        have hrow := Automaton.get?_choice_start hl hr hnames
        rw [hlstart, hrstart] at hrow
        rw [hentry, row, listWeight_factors]
        exact hrow
      · exact ListShows.mono (fun s row => Automaton.get?_choice_left hl hr hnames) hfirst
      · rw [listWeight_factors]
        exact ListShows.mono (fun s row => Automaton.get?_choice_right hl hr hnames) hsecond
  | star r ih =>
      obtain ⟨exit, hr⟩ := r.exists_segment names
      have hnames := r.next_build names
      have hbody := ih names
      have hstart := r.start_build names
      refine ⟨⟨?_, ?_⟩, trivial⟩
      · have hentry : entry (.star r.factors) names.next = (r.build names).2.next := by
          rw [hnames, entry, Factor.weight, listWeight_factors]
          omega
        have hrow := Automaton.get?_loop_start hr hnames
        rw [hstart] at hrow
        rw [hentry, row, listWeight_factors, ← hnames]
        exact hrow
      · exact ListShows.mono (fun s row => Automaton.get?_loop_body hr hnames) hbody

/-- Two regular expressions have the same automaton if and only if they differ in
nothing but the grouping of their concatenations. -/
theorem automaton_eq_iff (a b : Regex) : a.automaton = b.automaton ↔ a.factors = b.factors := by
  constructor
  · intro h
    have hstates := a.states_build (.ofStart 0)
    have hshows := a.shows_build (.ofStart 0)
    change a.automaton.states = _ at hstates
    change ListShows a.automaton.table _ _ at hshows
    rw [h] at hstates hshows
    have hsame := hstates.symm.trans (b.states_build (.ofStart 0))
    exact eq_of_listShows hsame hshows (b.shows_build (.ofStart 0))
  · intro h
    rw [automaton, automaton, build_eq_of_factors_eq h]

end Regex

end Thompson
