import Thompson.Proofs.Automaton.Count

/-!
Automata with few edges at each state. A row reads one symbol on its way to the next name, or
is silent and leads to one state or to two different ones. Nothing leads to the start, and no
state is led to more than twice. Only the two ends of a part gain edges in a composition: the
start is led to, which nothing did before, and the accepting state gets the row it lacked.
-/

namespace Thompson

/-- The rows that the state `s` may have. -/
inductive Row.Slim (s : Nat) : Row → Prop where
  | reads (symbol : Symbol) : Slim s (.single (.symbol symbol) [s + 1])
  | leads (t : Nat) : Slim s (.single .epsilon [t])
  | forks {t u : Nat} (hne : t ≠ u) : Slim s (.single .epsilon [t, u])

namespace Automaton

structure Slim (a : Automaton) : Prop where
  row : ∀ s row, a.table.get? s = some row → row.Slim s
  start_arrivals : a.arrivals a.start = 0
  arrivals_le : ∀ s, a.arrivals s ≤ 2

theorem slim_single (symbol : Symbol) (names : Names) : (single symbol names).1.Slim where
  row := by
    intro s row hrow
    rw [single_eq, OrdMap.get?_single] at hrow
    by_cases hs : names.next = s
    · rw [if_pos hs, hs] at hrow
      rw [← Option.some.inj hrow]
      exact .reads symbol
    · rw [if_neg hs] at hrow
      cases hrow
  start_arrivals := by
    rw [arrivals_eq_zero_iff]
    intro e he
    rw [mem_edges_single.mp he, single_eq]
    exact Nat.succ_ne_self _
  arrivals_le s := by
    have hedges : (single symbol names).1.edges.length = 1 := by
      rw [← edgeCount_eq_length_edges, edgeCount_single]
    have hbound : (single symbol names).1.arrivals s ≤ 1 := hedges ▸ List.countP_le_length
    omega

section Compose

variable {a b : Automaton} {first size more exit finish : Nat} {names : Names}

section Pair

variable (hleft : a.Segment first size exit) (hright : b.Segment (first + size) more finish)
  (ha : a.Slim) (hb : b.Slim)
include hleft hright ha hb

/-- No state belongs to both parts. -/
private theorem arrivals_add_le (s : Nat) : a.arrivals s + b.arrivals s ≤ 2 := by
  by_cases hs : s ∈ a.states
  · rw [hright.arrivals_eq_zero (hleft.states_apart hright hs)]
    exact ha.arrivals_le s
  · rw [hleft.arrivals_eq_zero hs, Nat.zero_add]
    exact hb.arrivals_le s

private theorem arrivals_add_start (s : Nat) (hs : s = a.start ∨ s = b.start) :
    a.arrivals s + b.arrivals s = 0 := by
  rcases hs with rfl | rfl
  · rw [ha.start_arrivals,
      hright.arrivals_eq_zero (hleft.states_apart hright hleft.start_mem)]
  · have hother : b.start ∉ a.states := fun h => hleft.states_apart hright h hright.start_mem
    rw [hb.start_arrivals, hleft.arrivals_eq_zero hother]

end Pair

/-- The bridge is the first edge to the start of the second part. -/
theorem slim_chain (hleft : a.Segment first size exit)
    (hright : b.Segment (first + size) more finish) (ha : a.Slim) (hb : b.Slim) :
    (a.chain b).Slim where
  row := by
    intro s row hrow
    rcases row_of_chain hleft hright hrow with hold | hold | ⟨-, rfl⟩
    · exact ha.row s row hold
    · exact hb.row s row hold
    · exact .leads _
  start_arrivals := by
    have hstart : (a.chain b).start = a.start := by rw [chain_eq]
    have hne := hleft.start_ne hright
    rw [hstart, arrivals_chain hleft,
      arrivals_add_start hleft hright ha hb _ (Or.inl rfl), List.count_singleton]
    simp [hne.symm]
  arrivals_le := by
    intro s
    have hsum := arrivals_add_le hleft hright ha hb s
    have hstart := arrivals_add_start hleft hright ha hb s
    simp only [arrivals_chain hleft, List.count_singleton, beq_iff_eq]
    -- The state gains an edge only if it is the second start, which has none so far.
    grind

/-- The fork is the first to lead to the starts of the parts, and only the ways out of the
parts lead to the new end. -/
theorem slim_choice (hleft : a.Segment first size exit)
    (hright : b.Segment (first + size) more finish) (hnames : names.next = first + size + more)
    (ha : a.Slim) (hb : b.Slim) : (a.choice b names).1.Slim where
  row := by
    intro s row hrow
    rcases row_of_choice hleft hright hnames hrow with hold | hold | ⟨-, rfl⟩ | ⟨-, rfl⟩
    · exact ha.row s row hold
    · exact hb.row s row hold
    · exact .forks (hleft.start_ne hright)
    · exact .leads _
  start_arrivals := by
    have hstart : (a.choice b names).1.start = names.next := by rw [choice_eq]
    rw [hstart, arrivals_eq_zero_iff]
    exact target_ne_start_choice hleft hright hnames
  arrivals_le := by
    intro s
    have hfirst := hleft.mem_states_iff.mp hleft.start_mem
    have hsecond := hright.mem_states_iff.mp hright.start_mem
    have hend : a.arrivals (names.next + 1) = 0 ∧ b.arrivals (names.next + 1) = 0 :=
      ⟨hleft.arrivals_eq_zero_of_le (by omega), hright.arrivals_eq_zero_of_le (by omega)⟩
    have hsum := arrivals_add_le hleft hright ha hb s
    have hstart := arrivals_add_start hleft hright ha hb s
    simp only [arrivals_choice hleft hright hnames, List.count_cons, List.count_nil,
      beq_iff_eq]
    -- The two starts gain one edge and the new end gains two. None of the three has any.
    grind

/-- The start of the body is led to by the fork and by the way back. -/
theorem slim_loop (hbody : a.Segment first size exit) (hnames : names.next = first + size)
    (ha : a.Slim) : (a.loop names).1.Slim where
  row := by
    intro s row hrow
    have hbound := hbody.mem_states_iff.mp hbody.start_mem
    rcases row_of_loop hbody hnames hrow with hold | rfl
    · exact ha.row s row hold
    · exact .forks (by omega)
  start_arrivals := by
    have hstart : (a.loop names).1.start = names.next := by rw [loop_eq]
    rw [hstart, arrivals_eq_zero_iff]
    exact target_ne_start_loop hbody hnames
  arrivals_le := by
    intro s
    have hbound := hbody.mem_states_iff.mp hbody.start_mem
    have hend : a.arrivals (names.next + 1) = 0 := hbody.arrivals_eq_zero_of_le (by omega)
    have hold := ha.arrivals_le s
    have hstart := ha.start_arrivals
    simp only [arrivals_loop hbody hnames, List.count_cons, List.count_nil, beq_iff_eq]
    grind

end Compose

end Automaton

end Thompson
