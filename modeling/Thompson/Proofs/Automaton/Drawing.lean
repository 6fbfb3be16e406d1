import Thompson.Automaton.Drawing
import Thompson.Proofs.Automaton.Lossless
import Thompson.Text.Lines

/-!
A digraph shows the drawing of an automaton, and no more than that. As long as no caption
breaks a line, two automata have one digraph if and only if they have one drawing. The
arrows of a drawing fall into those of the single rows.
-/

namespace Thompson

section Names

theorem not_mem_stateName {c : Char} (hmark : c ≠ 'q') (hdigit : c.isDigit = false) (s : Nat) :
    c ∉ stateName s := by
  intro hmem
  rcases List.mem_cons.mp hmem with rfl | hmem
  · exact hmark rfl
  · rw [Text.isDigit_of_mem_ofNat hmem] at hdigit
    cases hdigit

theorem stateName_inj {s t : Nat} (h : stateName s = stateName t) : s = t :=
  eq_of_inverse (stateOfName?_stateName s) (stateOfName?_stateName t) h

/-- The blank after a name tells where the name ends. -/
theorem stateName_append_inj {s t : Nat} {rest rest' : Text}
    (h : stateName s ++ ' ' :: rest = stateName t ++ ' ' :: rest') : s = t ∧ rest = rest' := by
  have hblank : ∀ q, ∀ c ∈ stateName q, c ≠ ' ' := by
    rintro q c hc rfl
    exact not_mem_stateName (by decide) (by decide) q hc
  obtain ⟨hname, -, hrest⟩ := Text.append_cons_inj (p := (· ≠ ' ')) (hblank s) (hblank t)
    (fun hne => hne rfl) (fun hne => hne rfl) h
  exact ⟨stateName_inj hname, hrest⟩

end Names

namespace Drawing

theorem nodeStatement_inj {m n : Nat × Bool} (h : nodeStatement m = nodeStatement n) : m = n := by
  obtain ⟨s, rim⟩ := m
  obtain ⟨t, rim'⟩ := n
  have hblank : lit " [shape=" = ' ' :: lit "[shape=" := by simp [lit]
  simp only [nodeStatement, List.append_assoc, hblank] at h
  obtain ⟨hname, hrest⟩ := stateName_append_inj (List.cons.inj h).2
  have hshape := List.append_cancel_right (List.append_cancel_left hrest)
  rw [hname]
  cases rim <;> cases rim' <;> simp [lit] at hshape ⊢

theorem startStatement_inj {s t : Nat} (h : startStatement s = startStatement t) : s = t :=
  stateName_inj (List.append_cancel_left (List.append_cancel_right h))

theorem arrowStatement_inj {x y : Arrow} (h : arrowStatement x = arrowStatement y) : x = y := by
  obtain ⟨source, target, caption⟩ := x
  obtain ⟨source', target', caption'⟩ := y
  have hto : lit " -> " = ' ' :: lit "-> " := by simp [lit]
  have hlabel : lit " [label=\"" = ' ' :: lit "[label=\"" := by simp [lit]
  simp only [arrowStatement, List.append_assoc, hto, hlabel] at h
  obtain ⟨hsource, hrest⟩ := stateName_append_inj (List.cons.inj h).2
  obtain ⟨htarget, hcaption⟩ := stateName_append_inj (List.append_cancel_left hrest)
  have hquoted := List.append_cancel_right (List.append_cancel_left hcaption)
  rw [hsource, htarget, hquoted]

/-- The second character tells a node from the start. -/
theorem statements_inj {d e : Drawing} (h : d.statements = e.statements) : d = e := by
  have hnode : ∀ nodes : List (Nat × Bool), ∀ statement ∈ nodes.map nodeStatement,
      statement[1]? = some 'q' := by
    intro nodes statement hmem
    obtain ⟨node, -, rfl⟩ := List.mem_map.mp hmem
    rfl
  have hstart : ∀ s, ¬ (startStatement s)[1]? = some 'q' := by
    intro s
    simp [startStatement, lit]
  obtain ⟨nodes, start, arrows⟩ := d
  obtain ⟨nodes', start', arrows'⟩ := e
  simp only [statements, List.append_assoc] at h
  obtain ⟨hnodes, hpoint, hrest⟩ := Text.append_cons_inj (p := (·[1]? = some 'q')) (hnode nodes)
    (hnode nodes') (hstart start) (hstart start') (List.append_cancel_left h)
  rw [(List.map_inj_right fun _ _ => nodeStatement_inj).mp hnodes, startStatement_inj hpoint,
    (List.map_inj_right fun _ _ => arrowStatement_inj).mp (List.append_cancel_right hrest)]

theorem newline_not_mem_statements {d : Drawing} (h : ∀ x ∈ d.arrows, '\n' ∉ x.caption) :
    ∀ line ∈ d.statements, '\n' ∉ line := by
  have hname : ∀ s, '\n' ∉ stateName s := not_mem_stateName (by decide) (by decide)
  intro line hline
  simp only [statements, List.mem_append, List.mem_cons, List.mem_map, List.not_mem_nil,
    or_false] at hline
  rcases hline with (((rfl | rfl | rfl) | ⟨⟨s, rim⟩, -, rfl⟩) | rfl | ⟨x, hx, rfl⟩) | rfl
  · simp [lit]
  · simp [lit]
  · simp [lit]
  · cases rim <;> simp [nodeStatement, lit, hname]
  · simp [startStatement, lit, hname]
  · simp [arrowStatement, lit, hname, h x hx]
  · simp [lit]

end Drawing

namespace Row

theorem arrows_single (label : Label) (targets : List Nat) (s : Nat) :
    Row.arrows (.single label targets) s =
      targets.map fun target => ⟨s, target, label.caption⟩ :=
  List.append_nil _

theorem source_of_mem_arrows {row : Row} {s : Nat} {x : Arrow} (hx : x ∈ row.arrows s) :
    x.source = s := by
  simp only [Row.arrows, List.mem_flatMap, List.mem_map] at hx
  obtain ⟨_, -, _, -, rfl⟩ := hx
  rfl

theorem filter_arrows_of_ascending {entries : List (Nat × Row)}
    (hasc : Entries.Ascending entries) (s : Nat) :
    ((entries.flatMap fun (source, row) => row.arrows source).filter fun x => x.source = s) =
      (Entries.find s entries).elim [] fun row => row.arrows s := by
  induction entries with
  | nil => rfl
  | cons entry rest ih =>
      obtain ⟨q, row⟩ := entry
      obtain ⟨hlt, hrest⟩ := List.pairwise_cons.mp hasc
      rw [List.flatMap_cons, List.filter_append, ih hrest, Entries.find_cons]
      by_cases hq : rank q = rank s
      · have hbelow : ∀ e ∈ rest, rank s < rank e.1 := fun e he => hq ▸ hlt e he
        have hall : ((row.arrows q).filter fun x => x.source = s) = row.arrows s := by
          rw [rank_eq_iff.mp hq]
          apply List.filter_eq_self.mpr
          intro x hx
          exact decide_eq_true (source_of_mem_arrows hx)
        rw [hall, if_pos hq, Entries.find_eq_none_of_lt hbelow]
        exact List.append_nil _
      · have hnone : ((row.arrows q).filter fun x => x.source = s) = [] := by
          apply List.filter_eq_nil_iff.mpr
          intro x hx
          rw [source_of_mem_arrows hx, decide_eq_true_iff]
          exact hq
        rw [hnone, if_neg hq]
        rfl

end Row

namespace Automaton

theorem digraph_eq_unlines (a : Automaton) :
    a.digraph = Text.unlines a.drawing.statements := by
  have hnode : ∀ s, a.nodeLine s = Drawing.nodeStatement (s, decide (s ∈ a.accept)) ++ ['\n'] := by
    intro s
    by_cases hs : s ∈ a.accept <;> simp [nodeLine, Drawing.nodeStatement, hs, lit]
  have harrow : ∀ e : Edge, e.line = Drawing.arrowStatement e.arrow ++ ['\n'] := by
    intro e
    simp [Edge.line, Drawing.arrowStatement, Edge.arrow, lit]
  have hnodes : a.states.flatMap a.nodeLine =
      Text.unlines (a.drawing.nodes.map Drawing.nodeStatement) := by
    simp only [Text.unlines, drawing, List.map_map, List.flatMap_map, Function.comp_apply,
      ← hnode]
  have harrows : a.edges.flatMap Edge.line =
      Text.unlines (a.drawing.arrows.map Drawing.arrowStatement) := by
    simp only [Text.unlines, drawing, List.map_map, List.flatMap_map, Function.comp_apply,
      ← harrow]
  rw [digraph, hnodes, harrows]
  simp [Drawing.statements, Drawing.startStatement, Text.unlines, lit, drawing]

theorem newline_not_mem_statements {a : Automaton}
    (h : ∀ e ∈ a.edges, '\n' ∉ e.label.caption) : ∀ line ∈ a.drawing.statements, '\n' ∉ line := by
  apply Drawing.newline_not_mem_statements
  intro x hx
  obtain ⟨e, he, rfl⟩ := List.mem_map.mp hx
  exact h e he

/-- With captions that do not break a line, the digraph shows the whole drawing. -/
theorem digraph_eq_iff {a b : Automaton} (ha : ∀ e ∈ a.edges, '\n' ∉ e.label.caption)
    (hb : ∀ e ∈ b.edges, '\n' ∉ e.label.caption) :
    a.digraph = b.digraph ↔ a.drawing = b.drawing := by
  have hlines := newline_not_mem_statements ha
  have hlines' := newline_not_mem_statements hb
  rw [digraph_eq_unlines, digraph_eq_unlines]
  constructor
  · intro h
    exact Drawing.statements_inj (Text.unlines_inj hlines hlines' h)
  · intro h
    rw [h]

/-- The arrows that leave a state are those of its row. -/
theorem filter_arrows (a : Automaton) (s : Nat) :
    (a.drawing.arrows.filter fun x => x.source = s) =
      (a.table.get? s).elim [] fun row => row.arrows s := by
  have harrows : a.drawing.arrows =
      a.table.entries.flatMap fun (source, row) => row.arrows source := by
    simp [drawing, edges, Row.arrows, Edge.arrow, List.map_flatMap, Function.comp_def]
  rw [harrows]
  exact Row.filter_arrows_of_ascending a.table.ascending s

theorem states_eq_of_drawing_eq {a b : Automaton} (h : a.drawing = b.drawing) :
    a.states = b.states := by
  have hstates : ∀ c : Automaton, c.drawing.nodes.map Prod.fst = c.states := by
    intro c
    simp [drawing, Function.comp_def]
  rw [← hstates a, h, hstates b]

/-- Accepting states are drawn as such where they are among the states. -/
theorem accept_eq_of_drawing_eq {a b : Automaton} (ha : ∀ s ∈ a.accept, s ∈ a.states)
    (hb : ∀ s ∈ b.accept, s ∈ b.states) (h : a.drawing = b.drawing) : a.accept = b.accept := by
  have hnode : ∀ c : Automaton, (∀ s ∈ c.accept, s ∈ c.states) → ∀ s,
      (s, true) ∈ c.drawing.nodes ↔ s ∈ c.accept := by
    intro c hc s
    simp only [drawing, List.mem_map, Prod.mk.injEq, decide_eq_true_iff]
    constructor
    · rintro ⟨_, -, rfl, hs⟩
      exact hs
    · intro hs
      exact ⟨s, hc s hs, rfl, hs⟩
  apply OrdSet.ext
  intro s
  rw [← hnode a ha, h, hnode b hb]

theorem length_statements (a : Automaton) :
    a.drawing.statements.length = a.states.length + a.edgeCount + 5 := by
  rw [edgeCount_eq_length_edges]
  simp only [Drawing.statements, drawing, List.length_append, List.length_cons, List.length_map,
    List.length_nil]
  omega

end Automaton

end Thompson
