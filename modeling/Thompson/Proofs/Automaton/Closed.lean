import Thompson.Proofs.Automaton.Rows

/-!
Compositions of closed automata are closed, whatever names the parts share with each other or
with the supply. Where names meet, rows are joined or lost, but no state is lost, and every
edge that is added runs between states that are there. The two names that a choice and a loop
take are those of a counter of 64 bits if `names.Fits 2`.
-/

namespace Thompson

namespace Automaton

section States

variable {first second body : Automaton} {names : Names} {s : Nat}

theorem mem_states_chain :
    s ∈ (first.chain second).states ↔ s ∈ first.states ∨ s ∈ second.states := by
  rw [chain_eq, List.mem_append]

theorem mem_states_choice :
    s ∈ (first.choice second names).1.states ↔
      s = names.next ∨ s = names.next + 1 ∨ s ∈ first.states ∨ s ∈ second.states := by
  rw [choice_eq, List.mem_cons, List.mem_append, List.mem_append, List.mem_singleton,
    or_comm (a := s ∈ first.states ∨ s ∈ second.states)]

theorem mem_states_loop :
    s ∈ (body.loop names).1.states ↔
      s = names.next ∨ s = names.next + 1 ∨ s ∈ body.states := by
  rw [loop_eq, List.mem_cons, List.mem_append, List.mem_singleton, or_comm (a := s ∈ body.states)]

end States

namespace Closed

variable {first second body : Automaton}

theorem mem_of_accept (h : body.Closed) {s : Nat} (hs : s ∈ body.accept) : s ∈ body.states :=
  h.accept_mem s (OrdSet.mem_toList.mpr hs)

theorem chain (hfirst : first.Closed) (hsecond : second.Closed) : (first.chain second).Closed where
  start_mem := by
    rw [mem_states_chain, chain_eq]
    exact Or.inl hfirst.start_mem
  accept_ne_nil := by
    rw [chain_eq]
    exact hsecond.accept_ne_nil
  accept_mem := by
    intro s hs
    rw [chain_eq] at hs
    exact mem_states_chain.mpr (Or.inr (hsecond.accept_mem s hs))
  edge_mem := by
    intro e he
    rw [mem_states_chain, mem_states_chain]
    rcases mem_edges_chain.mp he with hleft | hright | ⟨hexit, -, htarget⟩
    · obtain ⟨hsource, htarget⟩ := hfirst.edge_mem e hleft
      exact ⟨Or.inl hsource, Or.inl htarget⟩
    · obtain ⟨hsource, htarget⟩ := hsecond.edge_mem e hright
      exact ⟨Or.inr hsource, Or.inr htarget⟩
    · rw [htarget]
      exact ⟨Or.inl (hfirst.mem_of_accept hexit), Or.inr hsecond.start_mem⟩

theorem choice (hfirst : first.Closed) (hsecond : second.Closed) (names : Names) :
    (first.choice second names).1.Closed where
  start_mem := by
    rw [mem_states_choice, choice_eq]
    exact Or.inl rfl
  accept_ne_nil := by
    rw [choice_eq, OrdSet.toList_singleton]
    exact List.cons_ne_nil _ _
  accept_mem := by
    intro s hs
    rw [choice_eq, OrdSet.toList_singleton, List.mem_singleton] at hs
    exact mem_states_choice.mpr (Or.inr (Or.inl hs))
  edge_mem := by
    intro e he
    rw [mem_states_choice, mem_states_choice]
    rcases mem_edges_choice.mp he with
      ⟨hexit | hexit, -, hend⟩ | ⟨-, ⟨hstart, -, htarget | htarget⟩ | hleft | hright⟩
    · have hsource := hfirst.mem_of_accept hexit
      exact ⟨Or.inr (Or.inr (Or.inl hsource)), Or.inr (Or.inl hend)⟩
    · have hsource := hsecond.mem_of_accept hexit
      exact ⟨Or.inr (Or.inr (Or.inr hsource)), Or.inr (Or.inl hend)⟩
    · rw [htarget]
      exact ⟨Or.inl hstart.symm, Or.inr (Or.inr (Or.inl hfirst.start_mem))⟩
    · rw [htarget]
      exact ⟨Or.inl hstart.symm, Or.inr (Or.inr (Or.inr hsecond.start_mem))⟩
    · obtain ⟨hsource, htarget⟩ := hfirst.edge_mem e hleft
      exact ⟨Or.inr (Or.inr (Or.inl hsource)), Or.inr (Or.inr (Or.inl htarget))⟩
    · obtain ⟨hsource, htarget⟩ := hsecond.edge_mem e hright
      exact ⟨Or.inr (Or.inr (Or.inr hsource)), Or.inr (Or.inr (Or.inr htarget))⟩

theorem loop (hbody : body.Closed) (names : Names) : (body.loop names).1.Closed where
  start_mem := by
    rw [mem_states_loop, loop_eq]
    exact Or.inl rfl
  accept_ne_nil := by
    rw [loop_eq, OrdSet.toList_singleton]
    exact List.cons_ne_nil _ _
  accept_mem := by
    intro s hs
    rw [loop_eq, OrdSet.toList_singleton, List.mem_singleton] at hs
    exact mem_states_loop.mpr (Or.inr (Or.inl hs))
  edge_mem := by
    intro e he
    rw [mem_states_loop, mem_states_loop]
    rcases mem_edges_loop.mp he with
      ⟨hexit, -, hback | hend⟩ | ⟨-, ⟨hstart, -, htarget | hend⟩ | hinside⟩
    · rw [hback]
      exact ⟨Or.inr (Or.inr (hbody.mem_of_accept hexit)), Or.inr (Or.inr hbody.start_mem)⟩
    · exact ⟨Or.inr (Or.inr (hbody.mem_of_accept hexit)), Or.inr (Or.inl hend)⟩
    · rw [htarget]
      exact ⟨Or.inl hstart.symm, Or.inr (Or.inr hbody.start_mem)⟩
    · exact ⟨Or.inl hstart.symm, Or.inr (Or.inl hend)⟩
    · obtain ⟨hsource, htarget⟩ := hbody.edge_mem e hinside
      exact ⟨Or.inr (Or.inr hsource), Or.inr (Or.inr htarget)⟩

end Closed

/-- No composition of closed automata mentions a state that it does not have, whichever names
the supply has left. A counter has them left if two more fit. -/
theorem compositions_closed {first second : Automaton} (hfirst : first.Closed)
    (hsecond : second.Closed) (names : Names) :
    (first.chain second).Closed ∧ (first.choice second names).1.Closed ∧
      (first.loop names).1.Closed :=
  ⟨hfirst.chain hsecond, hfirst.choice hsecond names, hfirst.loop names⟩

/-- Accepts at its start and goes on. -/
def pendulum : Automaton where
  states := [4, 5, 4]
  alphabet := {.any}
  table := .ofList [(4, .single (.symbol .any) [5]), (5, .single .epsilon [4, 5])]
  start := 4
  accept := .ofList [4, 5]

/-- Both parts are one automaton, and its start, which accepts, has the name that comes next. So
a choice and a loop replace the row of their own new start. -/
theorem pendulum_compositions_closed :
    pendulum.Closed ∧
      (pendulum.chain pendulum).Closed ∧ (pendulum.choice pendulum ⟨4⟩).1.Closed ∧
      (pendulum.loop ⟨4⟩).1.Closed ∧
      (pendulum.choice pendulum ⟨4⟩).1.targets 4 .epsilon = [5] ∧
      (pendulum.loop ⟨4⟩).1.targets 4 .epsilon = [4, 5] := by
  have hclosed : pendulum.Closed := by decide
  obtain ⟨hchain, hchoice, hloop⟩ := compositions_closed hclosed hclosed ⟨4⟩
  exact ⟨hclosed, hchain, hchoice, hloop, by decide, by decide⟩

end Automaton

end Thompson
