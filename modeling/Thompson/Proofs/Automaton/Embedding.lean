import Thompson.Proofs.Automaton.Trim

/-!
Parts inside a whole. A composition leaves the rows of its parts as they are, except that
an accepting state of a part, which has no row in the part, may get one with silent edges
alone. What is done to a state once its row is there is never undone, so a part of a part
lies in the whole as well.
-/

namespace Thompson

namespace Automaton

/-- The states of the part are states of the whole and have kept their rows. Those in
which the part accepts had none; they are the ends of the whole, or have been wired up by
silent edges. -/
structure EmbedsIn (part whole : Automaton) : Prop where
  states_mem : ∀ s ∈ part.states, s ∈ whole.states
  accept_mem : ∀ s ∈ part.accept, s ∈ part.states
  row_kept : ∀ s ∈ part.states, s ∉ part.accept →
    ∃ row, part.table.get? s = some row ∧ whole.table.get? s = some row
  exit_bare : ∀ s ∈ part.accept, part.table.get? s = none
  exit_wired : ∀ s ∈ part.accept,
    (s ∈ whole.accept ∧ whole.table.get? s = none) ∨
      s ∉ whole.accept ∧ ∃ targets, whole.table.get? s = some (.single .epsilon targets)

/-- Each of the states is without a row at the time its bridge is added. -/
def BridgesBare (sources : List Nat) (target : Nat) (a : Automaton) : Prop :=
  ∀ done s rest, sources = done ++ s :: rest → (a.bridge done target).table.get? s = none

/-- Each of the states is without a row at the time it is rerouted. -/
def ReroutesBare (sources targets : List Nat) (a : Automaton) : Prop :=
  ∀ done s rest, sources = done ++ s :: rest →
    (a.rerouteAll done targets).table.get? s = none

/-- A start with silent edges to two states. -/
def fork (start x y : Nat) : Automaton :=
  ((ofStart start).addEdge ⟨start, .epsilon, x⟩).addEdge ⟨start, .epsilon, y⟩

namespace EmbedsIn

variable {part whole inner outer : Automaton} {first size exit : Nat}

theorem of_segment (hseg : part.Segment first size exit) (htrim : part.Trim)
    (hstates : ∀ s ∈ part.states, s ∈ whole.states)
    (hkeep : ∀ s row, part.table.get? s = some row → whole.table.get? s = some row)
    (hexit : (exit ∈ whole.accept ∧ whole.table.get? exit = none) ∨
      exit ∉ whole.accept ∧ ∃ targets, whole.table.get? exit = some (.single .epsilon targets)) :
    part.EmbedsIn whole where
  states_mem := hstates
  accept_mem s hs := by
    rw [hseg.mem_accept_iff.mp hs]
    exact hseg.exit_mem
  row_kept s hs haccept := by
    obtain ⟨row, hrow⟩ := htrim.exists_row hs haccept
    exact ⟨row, hrow, hkeep s row hrow⟩
  exit_bare s hs := by
    rw [hseg.mem_accept_iff.mp hs]
    exact hseg.exit_row
  exit_wired s hs := by
    rw [hseg.mem_accept_iff.mp hs]
    exact hexit

theorem refl (hseg : part.Segment first size exit) (htrim : part.Trim) : part.EmbedsIn part := by
  apply of_segment hseg htrim
  · intro s hs
    exact hs
  · intro s row hrow
    exact hrow
  · exact Or.inl ⟨hseg.mem_accept_iff.mpr rfl, hseg.exit_row⟩

/-- A part of a part is a part of the whole. -/
theorem trans (hin : inner.EmbedsIn part) (hout : part.EmbedsIn outer)
    (hend : ∀ s ∈ outer.accept, outer.table.get? s = none) : inner.EmbedsIn outer := by
  -- A state that has a row in the part is no end of it, so the row is kept further out.
  have hkeep : ∀ s row, s ∈ inner.states → part.table.get? s = some row →
      outer.table.get? s = some row := by
    intro s row hs hrow
    have hinside : s ∉ part.accept := by
      intro haccept
      rw [hout.exit_bare s haccept] at hrow
      contradiction
    obtain ⟨same, hsame, houter⟩ := hout.row_kept s (hin.states_mem s hs) hinside
    rw [hrow] at hsame
    rwa [← Option.some.inj hsame] at houter
  constructor
  case states_mem =>
    intro s hs
    exact hout.states_mem s (hin.states_mem s hs)
  case accept_mem => exact hin.accept_mem
  case exit_bare => exact hin.exit_bare
  case row_kept =>
    intro s hs haccept
    obtain ⟨row, hinner, hpart⟩ := hin.row_kept s hs haccept
    exact ⟨row, hinner, hkeep s row hs hpart⟩
  case exit_wired =>
    intro s hs
    rcases hin.exit_wired s hs with ⟨haccept, _⟩ | ⟨_, targets, hpart⟩
    · exact hout.exit_wired s haccept
    · have houter := hkeep s _ (hin.accept_mem s hs) hpart
      refine Or.inr ⟨?_, targets, houter⟩
      intro haccept
      rw [hend s haccept] at houter
      contradiction

end EmbedsIn

section Compose

variable {a b : Automaton} {names : Names} {first size more exit finish : Nat}

theorem embedsIn_chain_left (ha : a.Segment first size exit)
    (hb : b.Segment (first + size) more finish) (hta : a.Trim) : a.EmbedsIn (a.chain b) := by
  have hother := ha.states_apart hb ha.exit_mem
  apply EmbedsIn.of_segment ha hta
  · intro s hs
    rw [chain_eq]
    exact List.mem_append_left _ hs
  · intro s row hrow
    exact get?_chain_left ha hb hrow
  · right
    constructor
    · rw [chain_eq]
      exact hb.not_accept hother
    · refine ⟨[b.start], ?_⟩
      rw [get?_table_chain, ha.exit_row, hb.row_eq_none exit hother,
        if_pos (ha.mem_accept_iff.mpr rfl)]
      rfl

theorem embedsIn_chain_right (ha : a.Segment first size exit)
    (hb : b.Segment (first + size) more finish) (htb : b.Trim) : b.EmbedsIn (a.chain b) := by
  have hwhole := segment_chain ha hb
  apply EmbedsIn.of_segment hb htb
  · intro s hs
    rw [chain_eq]
    exact List.mem_append_right _ hs
  · intro s row hrow
    exact get?_chain_right ha hb hrow
  · exact Or.inl ⟨hwhole.mem_accept_iff.mpr rfl, hwhole.exit_row⟩

/-- The ends of both parts lead to the end of the choice. -/
private theorem exit_wired_choice (ha : a.Segment first size exit)
    (hb : b.Segment (first + size) more finish) (hnames : names.next = first + size + more)
    {s : Nat} (hs : s ∈ a.accept ∨ s ∈ b.accept) :
    s ∉ (a.choice b names).1.accept ∧
      ∃ targets, (a.choice b names).1.table.get? s = some (.single .epsilon targets) := by
  constructor
  · rw [(segment_choice ha hb hnames).mem_accept_iff]
    have hleft := ha.mem_states_iff.mp ha.exit_mem
    have hright := hb.mem_states_iff.mp hb.exit_mem
    rw [ha.mem_accept_iff, hb.mem_accept_iff] at hs
    omega
  · refine ⟨[names.next + 1], ?_⟩
    rw [get?_table_choice, if_pos hs]

theorem embedsIn_choice_left (ha : a.Segment first size exit)
    (hb : b.Segment (first + size) more finish) (hnames : names.next = first + size + more)
    (hta : a.Trim) : a.EmbedsIn (a.choice b names).1 := by
  apply EmbedsIn.of_segment ha hta
  · intro s hs
    rw [choice_eq]
    simp [hs]
  · intro s row hrow
    exact get?_choice_left ha hb hnames hrow
  · exact Or.inr (exit_wired_choice ha hb hnames (Or.inl (ha.mem_accept_iff.mpr rfl)))

theorem embedsIn_choice_right (ha : a.Segment first size exit)
    (hb : b.Segment (first + size) more finish) (hnames : names.next = first + size + more)
    (htb : b.Trim) : b.EmbedsIn (a.choice b names).1 := by
  apply EmbedsIn.of_segment hb htb
  · intro s hs
    rw [choice_eq]
    simp [hs]
  · intro s row hrow
    exact get?_choice_right ha hb hnames hrow
  · exact Or.inr (exit_wired_choice ha hb hnames (Or.inr (hb.mem_accept_iff.mpr rfl)))

theorem embedsIn_loop (ha : a.Segment first size exit) (hnames : names.next = first + size)
    (hta : a.Trim) : a.EmbedsIn (a.loop names).1 := by
  apply EmbedsIn.of_segment ha hta
  · intro s hs
    rw [loop_eq]
    simp [hs]
  · intro s row hrow
    exact get?_loop_body ha hnames hrow
  · right
    constructor
    · rw [(segment_loop ha hnames).mem_accept_iff]
      have hbound := ha.mem_states_iff.mp ha.exit_mem
      omega
    · refine ⟨[a.start, names.next + 1], ?_⟩
      rw [get?_table_loop, if_pos (ha.mem_accept_iff.mpr rfl)]

private theorem not_mem_of_nodup {done rest : List Nat} {s : Nat}
    (h : (done ++ s :: rest).Nodup) : s ∉ done := by
  intro hs
  exact (List.nodup_append.mp h).2.2 s hs s List.mem_cons_self rfl

theorem bridgesBare_of_nodup {sources : List Nat} (hsources : sources.Nodup) (target : Nat)
    (hbare : ∀ s ∈ sources, a.table.get? s = none) : a.BridgesBare sources target := by
  rintro done s rest rfl
  have hdone := (List.nodup_append.mp hsources).1
  have hrow : a.table.get? s = none := hbare s (by simp)
  rw [bridge_eq]
  simp only [Table.get?_join, Table.get?_bridges hdone, hrow, if_neg (not_mem_of_nodup hsources)]
  rfl

theorem reroutesBare_of_nodup {sources : List Nat} (hsources : sources.Nodup)
    (targets : List Nat) (hbare : ∀ s ∈ sources, a.table.get? s = none) :
    a.ReroutesBare sources targets := by
  rintro done s rest rfl
  have hrow : a.table.get? s = none := hbare s (by simp)
  rw [rerouteAll_eq]
  simp only [Table.get?_rerouted, hrow, if_neg (not_mem_of_nodup hsources)]

theorem bare_chain (ha : a.Segment first size exit)
    (hb : b.Segment (first + size) more finish) :
    (a.overlay b).BridgesBare a.accept.toList b.start := by
  apply bridgesBare_of_nodup (OrdSet.nodup_toList _)
  intro s hs
  rw [OrdSet.mem_toList, ha.mem_accept_iff] at hs
  have hother := hb.row_eq_none exit (ha.states_apart hb ha.exit_mem)
  simp only [overlay, Table.get?_join, hs, ha.exit_row, hother]
  rfl

theorem bare_choice (ha : a.Segment first size exit)
    (hb : b.Segment (first + size) more finish) (hnames : names.next = first + size + more) :
    (((fork names.next a.start b.start).overlay a).overlay b).ReroutesBare
      (a.accept.toList ++ b.accept.toList) [names.next + 1] := by
  have hleft := ha.mem_states_iff.mp ha.exit_mem
  have hright := hb.mem_states_iff.mp hb.exit_mem
  have hexits : a.accept.toList ++ b.accept.toList = [exit, finish] := by
    rw [ha.accept_eq, hb.accept_eq, OrdSet.toList_singleton, OrdSet.toList_singleton]
    rfl
  have hfirst := hb.row_eq_none exit (ha.states_apart hb ha.exit_mem)
  have hsecond := ha.row_eq_none finish fun hs => ha.states_apart hb hs hb.exit_mem
  rw [hexits]
  apply reroutesBare_of_nodup
  · rw [List.nodup_cons, List.mem_singleton]
    exact ⟨by omega, List.pairwise_singleton _ _⟩
  · intro s hs
    rw [List.mem_cons, List.mem_singleton] at hs
    simp only [fork, fork_eq, overlay, Table.get?_join, OrdMap.get?_single]
    rcases hs with rfl | rfl
    · rw [if_neg (by omega), ha.exit_row, hfirst]
      rfl
    · rw [if_neg (by omega), hsecond, hb.exit_row]
      rfl

theorem bare_loop (ha : a.Segment first size exit) (hnames : names.next = first + size) :
    ((fork names.next a.start (names.next + 1)).overlay a).ReroutesBare
      a.accept.toList [a.start, names.next + 1] := by
  have hbound := ha.mem_states_iff.mp ha.exit_mem
  apply reroutesBare_of_nodup (OrdSet.nodup_toList _)
  intro s hs
  rw [OrdSet.mem_toList, ha.mem_accept_iff] at hs
  simp only [fork, fork_eq, overlay, Table.get?_join, OrdMap.get?_single, hs, ha.exit_row]
  rw [if_neg (by omega)]
  rfl

end Compose

end Automaton

end Thompson
