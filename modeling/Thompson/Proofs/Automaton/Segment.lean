import Thompson.Proofs.Automaton.Closed

/-!
Automata whose states are an interval of names. The start comes first in the list
of states. The one accepting state comes last and has no row, so nothing leaves
it until a later composition adds the way on. All ways of composing keep this
form when each part takes the names that follow those of the part before it.
-/

namespace Thompson

namespace Automaton

/-- The states are the `size` names from `first` on, and `exit` is the one in which
`a` accepts. -/
structure Segment (a : Automaton) (first size exit : Nat) : Prop where
  states_perm : a.states.Perm (List.range' first size)
  head_states : a.states.head? = some a.start
  getLast_states : a.states.getLast? = some exit
  accept_eq : a.accept = {exit}
  exit_row : a.table.get? exit = none
  row_eq_none : ∀ s, s ∉ a.states → a.table.get? s = none
  target_mem : ∀ e ∈ a.edges, e.target ∈ a.states

namespace Segment

variable {a b : Automaton} {first size more exit finish : Nat}

theorem mem_states_iff (h : a.Segment first size exit) {s : Nat} :
    s ∈ a.states ↔ first ≤ s ∧ s < first + size := by
  rw [h.states_perm.mem_iff, List.mem_range'_1]

theorem nodup_states (h : a.Segment first size exit) : a.states.Nodup :=
  h.states_perm.nodup_iff.mpr List.nodup_range'

theorem length_states (h : a.Segment first size exit) : a.states.length = size := by
  rw [h.states_perm.length_eq, List.length_range']

theorem start_mem (h : a.Segment first size exit) : a.start ∈ a.states :=
  List.mem_of_head? h.head_states

theorem exit_mem (h : a.Segment first size exit) : exit ∈ a.states :=
  List.mem_of_getLast? h.getLast_states

theorem mem_accept_iff (h : a.Segment first size exit) {s : Nat} : s ∈ a.accept ↔ s = exit := by
  rw [h.accept_eq, OrdSet.mem_singleton]

theorem mem_of_row (h : a.Segment first size exit) {s : Nat} {row : Row}
    (hrow : a.table.get? s = some row) : s ∈ a.states := by
  apply Decidable.of_not_not
  intro hs
  rw [h.row_eq_none s hs] at hrow
  cases hrow

theorem not_accept_of_row (h : a.Segment first size exit) {s : Nat} {row : Row}
    (hrow : a.table.get? s = some row) : s ∉ a.accept := by
  intro hs
  rw [h.mem_accept_iff.mp hs, h.exit_row] at hrow
  cases hrow

theorem source_mem (h : a.Segment first size exit) {e : Edge} (he : e ∈ a.edges) :
    e.source ∈ a.states := by
  obtain ⟨row, hrow⟩ := get?_table_of_edge he
  exact h.mem_of_row hrow

theorem source_ne_exit (h : a.Segment first size exit) {e : Edge} (he : e ∈ a.edges) :
    e.source ≠ exit := by
  intro heq
  obtain ⟨row, hrow⟩ := get?_table_of_edge he
  rw [heq, h.exit_row] at hrow
  cases hrow

theorem closed (h : a.Segment first size exit) : a.Closed where
  start_mem := h.start_mem
  accept_ne_nil := by
    rw [h.accept_eq, OrdSet.toList_singleton]
    exact List.cons_ne_nil _ _
  accept_mem := by
    intro s hs
    rw [OrdSet.mem_toList, h.mem_accept_iff] at hs
    rw [hs]
    exact h.exit_mem
  edge_mem := fun e he => ⟨h.source_mem he, h.target_mem e he⟩

theorem not_accept (h : a.Segment first size exit) {s : Nat} (hs : s ∉ a.states) :
    s ∉ a.accept := by
  intro hmem
  rw [h.mem_accept_iff.mp hmem] at hs
  exact hs h.exit_mem

theorem not_mem_of_le (h : a.Segment first size exit) {s : Nat} (hs : first + size ≤ s) :
    s ∉ a.states := by
  intro hmem
  have hbound := h.mem_states_iff.mp hmem
  omega

theorem mentions_iff (h : a.Segment first size exit) {s : Nat} :
    a.Mentions s ↔ s ∈ a.states := by
  constructor
  · rintro (hs | rfl | hs | ⟨row, hrow⟩ | ⟨e, he, rfl⟩)
    · exact hs
    · exact h.start_mem
    · rw [h.mem_accept_iff.mp hs]
      exact h.exit_mem
    · exact h.mem_of_row hrow
    · exact h.target_mem e he
  · intro hs
    exact Or.inl hs

theorem states_apart (ha : a.Segment first size exit) (hb : b.Segment (first + size) more finish)
    {s : Nat} (hs : s ∈ a.states) : s ∉ b.states := by
  intro hs'
  have hleft := ha.mem_states_iff.mp hs
  have hright := hb.mem_states_iff.mp hs'
  omega

theorem start_ne (ha : a.Segment first size exit)
    (hb : b.Segment (first + size) more finish) : a.start ≠ b.start := by
  intro heq
  exact ha.states_apart hb ha.start_mem (heq ▸ hb.start_mem)

theorem mentions_apart (ha : a.Segment first size exit)
    (hb : b.Segment (first + size) more finish) : ∀ s, a.Mentions s → ¬ b.Mentions s := by
  intro s hs
  rw [hb.mentions_iff]
  exact ha.states_apart hb (ha.mentions_iff.mp hs)

theorem not_mentions_of_le (h : a.Segment first size exit) {s : Nat} (hs : first + size ≤ s) :
    ¬ a.Mentions s := by
  rw [h.mentions_iff]
  exact h.not_mem_of_le hs

end Segment

theorem segment_single (symbol : Symbol) (names : Names) :
    (single symbol names).1.Segment names.next 2 (names.next + 1) where
  states_perm := List.Perm.refl _
  head_states := rfl
  getLast_states := rfl
  accept_eq := rfl
  exit_row := by
    rw [single_eq, OrdMap.get?_single, if_neg (by omega)]
  row_eq_none := by
    intro s hs
    rw [single_eq, OrdMap.get?_single]
    apply if_neg
    intro heq
    rw [← heq, single_eq] at hs
    exact hs List.mem_cons_self
  target_mem := by
    intro e he
    rw [mem_edges_single.mp he, single_eq]
    exact List.mem_cons_of_mem _ List.mem_cons_self

section Compose

variable {a b : Automaton} {first size more exit finish : Nat}

private theorem append_perm (ha : a.Segment first size exit)
    (hb : b.Segment (first + size) more finish) :
    (a.states ++ b.states).Perm (List.range' first (size + more)) := by
  rw [← List.range'_append_1]
  exact ha.states_perm.append hb.states_perm

theorem segment_chain (ha : a.Segment first size exit)
    (hb : b.Segment (first + size) more finish) :
    (a.chain b).Segment first (size + more) finish where
  states_perm := by
    rw [chain_eq]
    exact append_perm ha hb
  head_states := by
    rw [chain_eq]
    simp [ha.head_states]
  getLast_states := by
    rw [chain_eq]
    simp [hb.getLast_states]
  accept_eq := by
    rw [chain_eq]
    exact hb.accept_eq
  exit_row := by
    have hfinish : finish ∉ a.states := fun hmem => ha.states_apart hb hmem hb.exit_mem
    rw [get?_table_chain, if_neg (ha.not_accept hfinish), ha.row_eq_none _ hfinish, hb.exit_row]
    rfl
  row_eq_none := by
    intro s hs
    rw [mem_states_chain, not_or] at hs
    rw [get?_table_chain, if_neg (ha.not_accept hs.1), ha.row_eq_none _ hs.1,
      hb.row_eq_none _ hs.2]
    rfl
  target_mem := fun e he => ((ha.closed.chain hb.closed).edge_mem e he).2

/-- The two new names are those that follow the names of the parts. -/
theorem segment_choice (ha : a.Segment first size exit)
    (hb : b.Segment (first + size) more finish) {names : Names}
    (hnames : names.next = first + size + more) :
    (a.choice b names).1.Segment first (size + more + 2) (names.next + 1) where
  states_perm := by
    have hnew : List.range' first (size + more + 2) =
        List.range' first (size + more) ++ [names.next, names.next + 1] := by
      rw [← List.range'_append_1, ← Nat.add_assoc, ← hnames]
      rfl
    rw [choice_eq, hnew]
    exact List.perm_middle.symm.trans ((append_perm ha hb).append_right _)
  head_states := by
    rw [choice_eq]
    rfl
  getLast_states := by
    rw [choice_eq, ← List.cons_append]
    exact List.getLast?_concat
  accept_eq := by
    rw [choice_eq]
  exit_row := by
    have hleft : names.next + 1 ∉ a.states := ha.not_mem_of_le (by omega)
    have hright : names.next + 1 ∉ b.states := hb.not_mem_of_le (by omega)
    rw [get?_table_choice, if_neg (not_or.mpr ⟨ha.not_accept hleft, hb.not_accept hright⟩),
      if_neg (by omega), ha.row_eq_none _ hleft, hb.row_eq_none _ hright]
    rfl
  row_eq_none := by
    intro s hs
    rw [mem_states_choice, not_or, not_or, not_or] at hs
    obtain ⟨hstart, -, hleft, hright⟩ := hs
    rw [get?_table_choice, if_neg (not_or.mpr ⟨ha.not_accept hleft, hb.not_accept hright⟩),
      if_neg (Ne.symm hstart), ha.row_eq_none _ hleft, hb.row_eq_none _ hright]
    rfl
  target_mem := fun e he => ((ha.closed.choice hb.closed names).edge_mem e he).2

theorem segment_loop (ha : a.Segment first size exit) {names : Names}
    (hnames : names.next = first + size) :
    (a.loop names).1.Segment first (size + 2) (names.next + 1) where
  states_perm := by
    have hnew : List.range' first (size + 2) =
        List.range' first size ++ [names.next, names.next + 1] := by
      rw [← List.range'_append_1, ← hnames]
      rfl
    rw [loop_eq, hnew]
    exact List.perm_middle.symm.trans (ha.states_perm.append_right _)
  head_states := by
    rw [loop_eq]
    rfl
  getLast_states := by
    rw [loop_eq, ← List.cons_append]
    exact List.getLast?_concat
  accept_eq := by
    rw [loop_eq]
  exit_row := by
    have hbody : names.next + 1 ∉ a.states := ha.not_mem_of_le (by omega)
    rw [get?_table_loop, if_neg (ha.not_accept hbody), if_neg (by omega),
      ha.row_eq_none _ hbody]
    rfl
  row_eq_none := by
    intro s hs
    rw [mem_states_loop, not_or, not_or] at hs
    obtain ⟨hstart, -, hbody⟩ := hs
    rw [get?_table_loop, if_neg (ha.not_accept hbody), if_neg (Ne.symm hstart),
      ha.row_eq_none _ hbody]
    rfl
  target_mem := fun e he => ((ha.closed.loop names).edge_mem e he).2

/-- No edge of a choice leads to its new start. -/
theorem target_ne_start_choice (ha : a.Segment first size exit)
    (hb : b.Segment (first + size) more finish) {names : Names}
    (hnames : names.next = first + size + more) :
    ∀ e ∈ (a.choice b names).1.edges, e.target ≠ names.next := by
  intro e he
  have hfirst := ha.mem_states_iff.mp ha.start_mem
  have hsecond := hb.mem_states_iff.mp hb.start_mem
  rcases mem_edges_choice.mp he with ⟨-, -, hend⟩ | ⟨-, ⟨-, -, hfork | hfork⟩ | hedge | hedge⟩
  · omega
  · omega
  · omega
  · have hbound := ha.mem_states_iff.mp (ha.target_mem e hedge)
    omega
  · have hbound := hb.mem_states_iff.mp (hb.target_mem e hedge)
    omega

/-- No edge of a loop leads to its new start: the way back is to that of the body. -/
theorem target_ne_start_loop (ha : a.Segment first size exit) {names : Names}
    (hnames : names.next = first + size) :
    ∀ e ∈ (a.loop names).1.edges, e.target ≠ names.next := by
  intro e he
  have hbody := ha.mem_states_iff.mp ha.start_mem
  rcases mem_edges_loop.mp he with ⟨-, -, hback | hend⟩ | ⟨-, ⟨-, -, hfork | hskip⟩ | hedge⟩
  · omega
  · omega
  · omega
  · omega
  · have hbound := ha.mem_states_iff.mp (ha.target_mem e hedge)
    omega

end Compose

section Rows

variable {a b : Automaton} {first size more exit finish s : Nat} {row : Row} {names : Names}

theorem get?_chain_left (ha : a.Segment first size exit)
    (hb : b.Segment (first + size) more finish) (hrow : a.table.get? s = some row) :
    (a.chain b).table.get? s = some row := by
  have hother := hb.row_eq_none s (ha.states_apart hb (ha.mem_of_row hrow))
  rw [get?_table_chain, hrow, hother, if_neg (ha.not_accept_of_row hrow)]
  rfl

theorem get?_chain_right (ha : a.Segment first size exit)
    (hb : b.Segment (first + size) more finish) (hrow : b.table.get? s = some row) :
    (a.chain b).table.get? s = some row := by
  have houtside : s ∉ a.states := fun hs => ha.states_apart hb hs (hb.mem_of_row hrow)
  rw [get?_table_chain, hrow, ha.row_eq_none s houtside, if_neg (ha.not_accept houtside)]
  rfl

theorem get?_choice_left (ha : a.Segment first size exit)
    (hb : b.Segment (first + size) more finish) (hnames : names.next = first + size + more)
    (hrow : a.table.get? s = some row) : (a.choice b names).1.table.get? s = some row := by
  have hmem := ha.mem_of_row hrow
  have houtside := ha.states_apart hb hmem
  have hold : names.next ≠ s := by
    have hbound := ha.mem_states_iff.mp hmem
    omega
  rw [get?_table_choice, hrow, hb.row_eq_none s houtside, if_neg hold,
    if_neg (not_or.mpr ⟨ha.not_accept_of_row hrow, hb.not_accept houtside⟩)]
  rfl

theorem get?_choice_right (ha : a.Segment first size exit)
    (hb : b.Segment (first + size) more finish) (hnames : names.next = first + size + more)
    (hrow : b.table.get? s = some row) : (a.choice b names).1.table.get? s = some row := by
  have hmem := hb.mem_of_row hrow
  have houtside : s ∉ a.states := fun hs => ha.states_apart hb hs hmem
  have hold : names.next ≠ s := by
    have hbound := hb.mem_states_iff.mp hmem
    omega
  rw [get?_table_choice, hrow, ha.row_eq_none s houtside, if_neg hold,
    if_neg (not_or.mpr ⟨ha.not_accept houtside, hb.not_accept_of_row hrow⟩)]
  rfl

theorem get?_choice_start (ha : a.Segment first size exit)
    (hb : b.Segment (first + size) more finish) (hnames : names.next = first + size + more) :
    (a.choice b names).1.table.get? names.next =
      some (.single .epsilon [a.start, b.start]) := by
  have hleft : names.next ∉ a.states := ha.not_mem_of_le (by omega)
  have hright : names.next ∉ b.states := hb.not_mem_of_le (by omega)
  rw [get?_table_choice, ha.row_eq_none _ hleft, hb.row_eq_none _ hright, if_pos rfl,
    if_neg (not_or.mpr ⟨ha.not_accept hleft, hb.not_accept hright⟩)]
  rfl

theorem get?_loop_body (ha : a.Segment first size exit) (hnames : names.next = first + size)
    (hrow : a.table.get? s = some row) : (a.loop names).1.table.get? s = some row := by
  have hold : names.next ≠ s := by
    have hbound := ha.mem_states_iff.mp (ha.mem_of_row hrow)
    omega
  rw [get?_table_loop, hrow, if_neg hold, if_neg (ha.not_accept_of_row hrow)]
  rfl

theorem get?_loop_start (ha : a.Segment first size exit) (hnames : names.next = first + size) :
    (a.loop names).1.table.get? names.next =
      some (.single .epsilon [a.start, names.next + 1]) := by
  have hbody : names.next ∉ a.states := ha.not_mem_of_le (by omega)
  rw [get?_table_loop, ha.row_eq_none _ hbody, if_pos rfl, if_neg (ha.not_accept hbody)]
  rfl

/-- A row of the whole is that of a part, or a bridge. -/
theorem row_of_chain (ha : a.Segment first size exit) (hb : b.Segment (first + size) more finish)
    (hrow : (a.chain b).table.get? s = some row) :
    a.table.get? s = some row ∨ b.table.get? s = some row ∨
      s ∈ a.accept ∧ row = .single .epsilon [b.start] := by
  cases hleft : a.table.get? s with
  | some left =>
      rw [get?_chain_left ha hb hleft] at hrow
      exact Or.inl hrow
  | none =>
      cases hright : b.table.get? s with
      | some right =>
          rw [get?_chain_right ha hb hright] at hrow
          exact Or.inr (Or.inl hrow)
      | none =>
          rw [get?_table_chain, hleft, hright] at hrow
          by_cases hs : s ∈ a.accept
          · rw [if_pos hs] at hrow
            exact Or.inr (Or.inr ⟨hs, (Option.some.inj hrow).symm⟩)
          · rw [if_neg hs] at hrow
            cases hrow

/-- A row of the whole is that of a part, the fork, or the way out of a part. -/
theorem row_of_choice (ha : a.Segment first size exit)
    (hb : b.Segment (first + size) more finish) (hnames : names.next = first + size + more)
    (hrow : (a.choice b names).1.table.get? s = some row) :
    a.table.get? s = some row ∨ b.table.get? s = some row ∨
      s = names.next ∧ row = .single .epsilon [a.start, b.start] ∨
      (s ∈ a.accept ∨ s ∈ b.accept) ∧ row = .single .epsilon [names.next + 1] := by
  cases hleft : a.table.get? s with
  | some left =>
      rw [get?_choice_left ha hb hnames hleft] at hrow
      exact Or.inl hrow
  | none =>
      cases hright : b.table.get? s with
      | some right =>
          rw [get?_choice_right ha hb hnames hright] at hrow
          exact Or.inr (Or.inl hrow)
      | none =>
          rw [get?_table_choice, hleft, hright] at hrow
          by_cases hs : s ∈ a.accept ∨ s ∈ b.accept
          · rw [if_pos hs] at hrow
            exact Or.inr (Or.inr (Or.inr ⟨hs, (Option.some.inj hrow).symm⟩))
          · by_cases hstart : names.next = s
            · rw [if_neg hs, if_pos hstart] at hrow
              exact Or.inr (Or.inr (Or.inl ⟨hstart.symm, (Option.some.inj hrow).symm⟩))
            · rw [if_neg hs, if_neg hstart] at hrow
              cases hrow

/-- A row of the whole is that of the body, or the same fork at the start and at the end. -/
theorem row_of_loop (ha : a.Segment first size exit) (hnames : names.next = first + size)
    (hrow : (a.loop names).1.table.get? s = some row) :
    a.table.get? s = some row ∨ row = .single .epsilon [a.start, names.next + 1] := by
  cases hbody : a.table.get? s with
  | some body =>
      rw [get?_loop_body ha hnames hbody] at hrow
      exact Or.inl hrow
  | none =>
      rw [get?_table_loop, hbody, Option.merge_none_right] at hrow
      by_cases hs : s ∈ a.accept
      · rw [if_pos hs] at hrow
        exact Or.inr (Option.some.inj hrow).symm
      · by_cases hstart : names.next = s
        · rw [if_neg hs, if_pos hstart] at hrow
          exact Or.inr (Option.some.inj hrow).symm
        · rw [if_neg hs, if_neg hstart] at hrow
          cases hrow

end Rows

end Automaton

end Thompson
