import Thompson.Automaton.Run
import Thompson.Proofs.Automaton.Segment

/-!
Automata without idle states: every state lies on a way from the start to an accepting
state. A composition of segments keeps all the edges of its parts and wires their ends
up, so the ways through the parts go on in the whole.
-/

namespace Thompson

namespace Automaton

/-- An automaton that keeps all rows keeps all edges. -/
theorem mem_edges_of_rows {a b : Automaton}
    (hkeep : ∀ s row, a.table.get? s = some row → b.table.get? s = some row) :
    ∀ e ∈ a.edges, e ∈ b.edges := by
  intro e he
  obtain ⟨row, hrow⟩ := get?_table_of_edge he
  rw [mem_edges_iff_leads, hrow] at he
  rw [mem_edges_iff_leads, hkeep _ _ hrow]
  exact he

theorem mem_edges_of_single {a : Automaton} {s t : Nat} {label : Label} {targets : List Nat}
    (hrow : a.table.get? s = some (.single label targets)) (ht : t ∈ targets) :
    ⟨s, label, t⟩ ∈ a.edges := by
  rw [mem_edges_iff_leads, hrow, Table.leads_single, if_pos rfl]
  exact ht

namespace Reaches

variable {a b : Automaton} {s t u : Nat}

theorem trans (first : a.Reaches s t) (second : a.Reaches t u) : a.Reaches s u := by
  induction first with
  | refl s => exact second
  | step edge _ ih => exact .step edge (ih second)

theorem mono (hedges : ∀ e ∈ a.edges, e ∈ b.edges) (h : a.Reaches s t) : b.Reaches s t := by
  induction h with
  | refl s => exact .refl s
  | step edge _ ih => exact .step (hedges _ edge) ih

theorem of_edge {e : Edge} (he : e ∈ a.edges) : a.Reaches e.source e.target :=
  .step he (.refl _)

/-- A way that leads elsewhere begins with an edge. -/
theorem exists_edge (h : a.Reaches s t) (hne : s ≠ t) : ∃ e ∈ a.edges, e.source = s := by
  cases h with
  | refl => exact absurd rfl hne
  | step edge _ => exact ⟨_, edge, rfl⟩

end Reaches

/-- The start leads to every state, and every state leads to an accepting one. -/
structure Trim (a : Automaton) : Prop where
  from_start : ∀ s ∈ a.states, a.Reaches a.start s
  to_accept : ∀ s ∈ a.states, ∃ t ∈ a.accept, a.Reaches s t

namespace Trim

variable {a : Automaton} {first size exit s : Nat}

theorem to_exit (ha : a.Trim) (hseg : a.Segment first size exit) (hs : s ∈ a.states) :
    a.Reaches s exit := by
  obtain ⟨t, ht, hway⟩ := ha.to_accept s hs
  rwa [hseg.mem_accept_iff.mp ht] at hway

theorem start_to_exit (ha : a.Trim) (hseg : a.Segment first size exit) :
    a.Reaches a.start exit :=
  ha.from_start exit hseg.exit_mem

/-- Only accepting states can be without a row. -/
theorem exists_row (ha : a.Trim) (hs : s ∈ a.states) (haccept : s ∉ a.accept) :
    ∃ row, a.table.get? s = some row := by
  obtain ⟨t, ht, hway⟩ := ha.to_accept s hs
  have hne : s ≠ t := fun heq => haccept (heq ▸ ht)
  obtain ⟨e, he, rfl⟩ := hway.exists_edge hne
  exact get?_table_of_edge he

/-- It is enough to look at the two ends: what is inside is reached from the start and
leads to the end. -/
theorem of_exit (hseg : a.Segment first size exit)
    (h : ∀ s ∈ a.states, a.Reaches a.start s ∧ a.Reaches s exit) : a.Trim where
  from_start s hs := (h s hs).1
  to_accept s hs := ⟨exit, hseg.mem_accept_iff.mpr rfl, (h s hs).2⟩

end Trim

/-- Some edge reads the symbol. -/
def Reads (a : Automaton) (symbol : Symbol) : Prop := ∃ e ∈ a.edges, e.label = .symbol symbol

theorem trim_single (symbol : Symbol) (names : Names) : (single symbol names).1.Trim := by
  have hedge : ⟨names.next, .symbol symbol, names.next + 1⟩ ∈ (single symbol names).1.edges :=
    mem_edges_single.mpr rfl
  have hway := Reaches.of_edge hedge
  apply Trim.of_exit (segment_single symbol names)
  intro s hs
  rw [single_eq, List.mem_cons, List.mem_singleton] at hs
  rcases hs with rfl | rfl
  · exact ⟨.refl _, hway⟩
  · exact ⟨hway, .refl _⟩

section Compose

variable {a b : Automaton} {names : Names} {first size more exit finish : Nat}

theorem edges_chain_left (ha : a.Segment first size exit)
    (hb : b.Segment (first + size) more finish) : ∀ e ∈ a.edges, e ∈ (a.chain b).edges :=
  mem_edges_of_rows fun _ _ => get?_chain_left ha hb

theorem edges_chain_right (ha : a.Segment first size exit)
    (hb : b.Segment (first + size) more finish) : ∀ e ∈ b.edges, e ∈ (a.chain b).edges :=
  mem_edges_of_rows fun _ _ => get?_chain_right ha hb

theorem edges_choice_left (ha : a.Segment first size exit)
    (hb : b.Segment (first + size) more finish) (hnames : names.next = first + size + more) :
    ∀ e ∈ a.edges, e ∈ (a.choice b names).1.edges :=
  mem_edges_of_rows fun _ _ => get?_choice_left ha hb hnames

theorem edges_choice_right (ha : a.Segment first size exit)
    (hb : b.Segment (first + size) more finish) (hnames : names.next = first + size + more) :
    ∀ e ∈ b.edges, e ∈ (a.choice b names).1.edges :=
  mem_edges_of_rows fun _ _ => get?_choice_right ha hb hnames

theorem edges_loop_body (ha : a.Segment first size exit) (hnames : names.next = first + size) :
    ∀ e ∈ a.edges, e ∈ (a.loop names).1.edges :=
  mem_edges_of_rows fun _ _ => get?_loop_body ha hnames

/-- What lies in a part is reached through its start and left through its exit. -/
private theorem through_part {whole part : Automaton} {start s : Nat}
    (hpart : part.Segment first size exit) (htrim : part.Trim)
    (hedges : ∀ e ∈ part.edges, e ∈ whole.edges) (hin : whole.Reaches start part.start)
    (hout : whole.Reaches exit finish) (hs : s ∈ part.states) :
    whole.Reaches start s ∧ whole.Reaches s finish :=
  ⟨hin.trans ((htrim.from_start s hs).mono hedges),
    ((htrim.to_exit hpart hs).mono hedges).trans hout⟩

theorem trim_chain (ha : a.Segment first size exit) (hb : b.Segment (first + size) more finish)
    (hta : a.Trim) (htb : b.Trim) : (a.chain b).Trim := by
  have hleft := edges_chain_left ha hb
  have hright := edges_chain_right ha hb
  have hedge : ⟨exit, .epsilon, b.start⟩ ∈ (a.chain b).edges :=
    mem_edges_chain.mpr (Or.inr (Or.inr ⟨ha.mem_accept_iff.mpr rfl, rfl, rfl⟩))
  have hbridge := Reaches.of_edge hedge
  have hstart : (a.chain b).start = a.start := by rw [chain_eq]
  apply Trim.of_exit (segment_chain ha hb)
  intro s hs
  rw [hstart]
  rcases mem_states_chain.mp hs with hs | hs
  · have hout := hbridge.trans ((htb.start_to_exit hb).mono hright)
    exact through_part ha hta hleft (.refl _) hout hs
  · have hin := ((hta.start_to_exit ha).mono hleft).trans hbridge
    exact through_part hb htb hright hin (.refl _) hs

theorem trim_choice (ha : a.Segment first size exit)
    (hb : b.Segment (first + size) more finish) (hnames : names.next = first + size + more)
    (hta : a.Trim) (htb : b.Trim) : (a.choice b names).1.Trim := by
  have hleft := edges_choice_left ha hb hnames
  have hright := edges_choice_right ha hb hnames
  have hfork := get?_choice_start ha hb hnames
  have htoFirst := Reaches.of_edge (mem_edges_of_single hfork (t := a.start) (by simp))
  have htoSecond := Reaches.of_edge (mem_edges_of_single hfork (t := b.start) (by simp))
  have hfirstOut : ⟨exit, .epsilon, names.next + 1⟩ ∈ (a.choice b names).1.edges :=
    mem_edges_choice.mpr (Or.inl ⟨Or.inl (ha.mem_accept_iff.mpr rfl), rfl, rfl⟩)
  have hsecondOut : ⟨finish, .epsilon, names.next + 1⟩ ∈ (a.choice b names).1.edges :=
    mem_edges_choice.mpr (Or.inl ⟨Or.inr (hb.mem_accept_iff.mpr rfl), rfl, rfl⟩)
  have hfirst {s : Nat} (hs : s ∈ a.states) :=
    through_part ha hta hleft htoFirst (.of_edge hfirstOut) hs
  have hsecond {s : Nat} (hs : s ∈ b.states) :=
    through_part hb htb hright htoSecond (.of_edge hsecondOut) hs
  have hacross := (hfirst ha.start_mem).2
  have hstart : (a.choice b names).1.start = names.next := by rw [choice_eq]
  apply Trim.of_exit (segment_choice ha hb hnames)
  intro s hs
  rw [hstart]
  rcases mem_states_choice.mp hs with rfl | rfl | hs | hs
  · exact ⟨.refl _, htoFirst.trans hacross⟩
  · exact ⟨htoFirst.trans hacross, .refl _⟩
  · exact hfirst hs
  · exact hsecond hs

theorem trim_loop (ha : a.Segment first size exit) (hnames : names.next = first + size)
    (hta : a.Trim) : (a.loop names).1.Trim := by
  have hbody := edges_loop_body ha hnames
  have hfork := get?_loop_start ha hnames
  have hin := Reaches.of_edge (mem_edges_of_single hfork (t := a.start) (by simp))
  have hskip := Reaches.of_edge (mem_edges_of_single hfork (t := names.next + 1) (by simp))
  have hedge : ⟨exit, .epsilon, names.next + 1⟩ ∈ (a.loop names).1.edges :=
    mem_edges_loop.mpr (Or.inl ⟨ha.mem_accept_iff.mpr rfl, rfl, Or.inr rfl⟩)
  have hstart : (a.loop names).1.start = names.next := by rw [loop_eq]
  apply Trim.of_exit (segment_loop ha hnames)
  intro s hs
  rw [hstart]
  rcases mem_states_loop.mp hs with rfl | rfl | hs
  · exact ⟨.refl _, hskip⟩
  · exact ⟨hskip, .refl _⟩
  · exact through_part ha hta hbody hin (.of_edge hedge) hs

section Reads

variable {symbol : Symbol}

private theorem reads_iff_of_edges {whole : Automaton}
    (hedges : ∀ e : Edge, e.label = .symbol symbol →
      (e ∈ whole.edges ↔ e ∈ a.edges ∨ e ∈ b.edges)) :
    whole.Reads symbol ↔ a.Reads symbol ∨ b.Reads symbol := by
  constructor
  · rintro ⟨e, he, hlabel⟩
    rcases (hedges e hlabel).mp he with hleft | hright
    · exact Or.inl ⟨e, hleft, hlabel⟩
    · exact Or.inr ⟨e, hright, hlabel⟩
  · rintro (⟨e, he, hlabel⟩ | ⟨e, he, hlabel⟩)
    · exact ⟨e, (hedges e hlabel).mpr (Or.inl he), hlabel⟩
    · exact ⟨e, (hedges e hlabel).mpr (Or.inr he), hlabel⟩

theorem reads_single_iff {other : Symbol} :
    (single symbol names).1.Reads other ↔ other = symbol := by
  simp [Reads, mem_edges_single, eq_comm]

/-- All the edges that a chain adds are silent. -/
theorem reads_chain_iff : (a.chain b).Reads symbol ↔ a.Reads symbol ∨ b.Reads symbol := by
  apply reads_iff_of_edges
  intro e he
  simp [mem_edges_chain, he]

theorem reads_choice_iff (ha : a.Segment first size exit)
    (hb : b.Segment (first + size) more finish) (hnames : names.next = first + size + more) :
    (a.choice b names).1.Reads symbol ↔ a.Reads symbol ∨ b.Reads symbol := by
  apply reads_iff_of_edges
  intro e he
  constructor
  · intro hmem
    rcases mem_edges_choice.mp hmem with ⟨_, hsilent, _⟩ | ⟨_, ⟨_, hsilent, _⟩ | hpart⟩
    · rw [he] at hsilent
      contradiction
    · rw [he] at hsilent
      contradiction
    · exact hpart
  · rintro (hmem | hmem)
    · exact edges_choice_left ha hb hnames e hmem
    · exact edges_choice_right ha hb hnames e hmem

theorem reads_loop_iff (ha : a.Segment first size exit) (hnames : names.next = first + size) :
    (a.loop names).1.Reads symbol ↔ a.Reads symbol := by
  constructor
  · rintro ⟨e, he, hlabel⟩
    rcases mem_edges_loop.mp he with ⟨_, hsilent, _⟩ | ⟨_, ⟨_, hsilent, _⟩ | hbody⟩
    · rw [hlabel] at hsilent
      contradiction
    · rw [hlabel] at hsilent
      contradiction
    · exact ⟨e, hbody, hlabel⟩
  · rintro ⟨e, he, hlabel⟩
    exact ⟨e, edges_loop_body ha hnames e he, hlabel⟩

end Reads

end Compose

end Automaton

end Thompson
