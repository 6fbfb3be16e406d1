import Mathlib.Logic.Relation
import Thompson.Proofs.Automaton.Paths
import Thompson.Proofs.Automaton.Trim

/-!
Cycles of silent edges. A cycle of a composition stays in one of its parts or runs along an
edge that the composition adds. No such edge has a way back, for nothing leads to the new
start, away from the new end, or from the second part of a chain into the first. The one
exception is the way back of a loop: it closes a cycle if the body can be passed silently.
-/

namespace Thompson

namespace Automaton

open Relation (ReflTransGen TransGen)

/-- A silent edge leads from the one state to the other. -/
def Silent (a : Automaton) (s t : Nat) : Prop := ⟨s, .epsilon, t⟩ ∈ a.edges

/-- Silent edges, one at least, lead from some state back to it. -/
def SilentCycle (a : Automaton) : Prop := ∃ s, TransGen a.Silent s s

/-- A silent edge that lies on a cycle: silent edges lead from its end back to its start. -/
structure OnCycle (a : Automaton) (s t : Nat) : Prop where
  edge : a.Silent s t
  back : ReflTransGen a.Silent t s

/-- A silent edge of the whole that leaves a state of the part, and that the part does not
have. -/
structure Leaves (part whole : Automaton) (s t : Nat) : Prop where
  source_mem : s ∈ part.states
  edge : whole.Silent s t
  not_edge : ¬ part.Silent s t

variable {a b part whole : Automaton} {names : Names} {first size more exit finish : Nat}
  {s t : Nat}

theorem path_nil_iff : a.Path s [] t ↔ ReflTransGen a.Silent s t := by
  constructor
  · generalize hw : ([] : List Char) = w
    intro path
    induction path with
    | refl s => exact .refl
    | silent edge _ ih => exact .head edge (ih hw)
    | read edge _ _ _ => cases hw
  · intro h
    induction h using ReflTransGen.head_induction_on with
    | refl => exact .refl t
    | head edge _ ih => exact .silent edge ih

theorem Segment.accepts_nil_iff (h : a.Segment first size exit) :
    a.Accepts [] ↔ ReflTransGen a.Silent a.start exit := by
  rw [accepts_iff_path h.accept_eq, path_nil_iff]

theorem silentCycle_iff : a.SilentCycle ↔ ∃ s t, a.OnCycle s t := by
  constructor
  · rintro ⟨s, h⟩
    obtain ⟨t, hedge, hback⟩ := TransGen.head'_iff.mp h
    exact ⟨s, t, hedge, hback⟩
  · rintro ⟨s, t, hedge, hback⟩
    exact ⟨s, .head' hedge hback⟩

theorem silent_path_mono (hedges : ∀ e ∈ a.edges, e ∈ b.edges)
    (h : ReflTransGen a.Silent s t) : ReflTransGen b.Silent s t :=
  ReflTransGen.mono (fun _ _ edge => hedges _ edge) _ _ h

theorem SilentCycle.mono (hedges : ∀ e ∈ a.edges, e ∈ b.edges) (h : a.SilentCycle) :
    b.SilentCycle := by
  obtain ⟨s, hcycle⟩ := h
  exact ⟨s, TransGen.mono (fun _ _ edge => hedges _ edge) _ _ hcycle⟩

namespace OnCycle

/-- A cycle goes on from the end of each of its edges. -/
theorem exists_from (h : a.OnCycle s t) : ∃ u, a.Silent t u := by
  rcases h.back.cases_head with rfl | ⟨u, hedge, -⟩
  · exact ⟨t, h.edge⟩
  · exact ⟨u, hedge⟩

/-- A cycle comes to the start of each of its edges. -/
theorem exists_to (h : a.OnCycle s t) : ∃ u, a.Silent u s := by
  rcases h.back.cases_tail with rfl | ⟨u, -, hedge⟩
  · exact ⟨s, h.edge⟩
  · exact ⟨u, hedge⟩

theorem target_ne_exit (h : a.OnCycle s t) (hseg : a.Segment first size exit) : t ≠ exit := by
  obtain ⟨u, hedge⟩ := h.exists_from
  exact hseg.source_ne_exit hedge

end OnCycle

section Part

variable (hpart : part.Segment first size exit)
include hpart

theorem mem_of_silent_path (h : ReflTransGen part.Silent s t) (hs : s ∈ part.states) :
    t ∈ part.states := by
  rcases h.cases_tail with rfl | ⟨u, -, hedge⟩
  · exact hs
  · exact hpart.target_mem _ hedge

/-- A silent path that begins in the part stays there, or it leaves the part. -/
theorem silent_path_leaves (h : ReflTransGen whole.Silent s t) (hs : s ∈ part.states) :
    ReflTransGen part.Silent s t ∨
      ∃ x y, ReflTransGen part.Silent s x ∧ Leaves part whole x y ∧
        ReflTransGen whole.Silent y t := by
  induction h using ReflTransGen.head_induction_on with
  | refl => exact Or.inl .refl
  | @head s u hedge hrest ih =>
      by_cases hinside : part.Silent s u
      · rcases ih (hpart.target_mem _ hinside) with hstays | ⟨x, y, hway, hleaves, hback⟩
        · exact Or.inl (.head hinside hstays)
        · exact Or.inr ⟨x, y, .head hinside hway, hleaves, hback⟩
      · exact Or.inr ⟨s, u, .refl, ⟨hs, hedge, hinside⟩, hrest⟩

/-- A cycle through an edge of the part stays there, or it leaves the part. -/
theorem silent_cycle_leaves (hkeep : ∀ e ∈ part.edges, e ∈ whole.edges)
    (hedge : part.Silent s t) (hcycle : whole.OnCycle s t) :
    part.SilentCycle ∨ ∃ x y, Leaves part whole x y ∧ whole.OnCycle x y := by
  rcases silent_path_leaves hpart hcycle.back (hpart.target_mem _ hedge) with
    hstays | ⟨x, y, hway, hleaves, hback⟩
  · exact Or.inl (silentCycle_iff.mpr ⟨s, t, hedge, hstays⟩)
  · have hround : ReflTransGen whole.Silent s x :=
      .head hcycle.edge (silent_path_mono hkeep hway)
    exact Or.inr ⟨x, y, hleaves, hleaves.edge, hback.trans hround⟩

/-- A cycle does not leave a part whose ways out have no way back. -/
theorem silentCycle_of_edge (hkeep : ∀ e ∈ part.edges, e ∈ whole.edges)
    (hout : ∀ x y, Leaves part whole x y → ¬ whole.OnCycle x y) (hedge : part.Silent s t)
    (hcycle : whole.OnCycle s t) : part.SilentCycle := by
  rcases silent_cycle_leaves hpart hkeep hedge hcycle with hstays | ⟨x, y, hleaves, hround⟩
  · exact hstays
  · exact absurd hround (hout x y hleaves)

end Part

theorem not_silentCycle_single (symbol : Symbol) (names : Names) :
    ¬ (single symbol names).1.SilentCycle := by
  intro h
  obtain ⟨s, t, hcycle⟩ := silentCycle_iff.mp h
  cases mem_edges_single.mp hcycle.edge

section Chain

variable (ha : a.Segment first size exit) (hb : b.Segment (first + size) more finish)
include ha hb

private theorem leaves_chain_left (h : Leaves a (a.chain b) s t) : s = exit ∧ t = b.start := by
  rcases mem_edges_chain.mp h.edge with hleft | hright | ⟨hs, -, ht⟩
  · exact absurd hleft h.not_edge
  · exact absurd (hb.source_mem hright) (ha.states_apart hb h.source_mem)
  · exact ⟨ha.mem_accept_iff.mp hs, ht⟩

/-- The second part has no way out. -/
private theorem not_leaves_chain_right : ¬ Leaves b (a.chain b) s t := by
  intro h
  rcases mem_edges_chain.mp h.edge with hleft | hright | ⟨hs, -, -⟩
  · exact ha.states_apart hb (ha.source_mem hleft) h.source_mem
  · exact h.not_edge hright
  · have hexit : s = exit := ha.mem_accept_iff.mp hs
    exact ha.states_apart hb ha.exit_mem (hexit ▸ h.source_mem)

private theorem bridge_not_onCycle : ¬ (a.chain b).OnCycle exit b.start := by
  intro h
  rcases silent_path_leaves hb h.back hb.start_mem with hstays | ⟨x, y, -, hleaves, -⟩
  · exact ha.states_apart hb ha.exit_mem (mem_of_silent_path hb hstays hb.start_mem)
  · exact not_leaves_chain_right ha hb hleaves

theorem silentCycle_chain_iff :
    (a.chain b).SilentCycle ↔ a.SilentCycle ∨ b.SilentCycle := by
  have hleft := edges_chain_left ha hb
  have hright := edges_chain_right ha hb
  constructor
  · intro h
    obtain ⟨s, t, hcycle⟩ := silentCycle_iff.mp h
    rcases mem_edges_chain.mp hcycle.edge with hedge | hedge | ⟨hs, -, ht⟩
    · apply Or.inl
      apply silentCycle_of_edge ha hleft _ hedge hcycle
      intro x y hleaves
      obtain ⟨rfl, rfl⟩ := leaves_chain_left ha hb hleaves
      exact bridge_not_onCycle ha hb
    · apply Or.inr
      apply silentCycle_of_edge hb hright _ hedge hcycle
      intro x y hleaves
      exact absurd hleaves (not_leaves_chain_right ha hb)
    · obtain rfl : s = exit := ha.mem_accept_iff.mp hs
      obtain rfl : t = b.start := ht
      exact absurd hcycle (bridge_not_onCycle ha hb)
  · rintro (hpart | hpart)
    · exact hpart.mono hleft
    · exact hpart.mono hright

end Chain

section Choice

variable (ha : a.Segment first size exit) (hb : b.Segment (first + size) more finish)
  (hnames : names.next = first + size + more)
include ha hb hnames

/-- A part of a choice is left for the new end only. -/
private theorem target_of_leaves_choice
    (h : Leaves a (a.choice b names).1 s t ∨ Leaves b (a.choice b names).1 s t) :
    t = names.next + 1 := by
  have hedge : (a.choice b names).1.Silent s t := h.elim Leaves.edge Leaves.edge
  have hs : s ∈ a.states ∨ s ∈ b.states := h.imp Leaves.source_mem Leaves.source_mem
  have hbound : s < names.next := by
    rcases hs with hs | hs
    · have hs := ha.mem_states_iff.mp hs
      omega
    · have hs := hb.mem_states_iff.mp hs
      omega
  rcases mem_edges_choice.mp hedge with ⟨-, -, hend⟩ | ⟨-, ⟨hstart, -, -⟩ | hleft | hright⟩
  · exact hend
  · exact absurd hstart.symm (Nat.ne_of_lt hbound)
  · rcases h with h | h
    · exact absurd hleft h.not_edge
    · exact absurd h.source_mem (ha.states_apart hb (ha.source_mem hleft))
  · rcases h with h | h
    · exact absurd (hb.source_mem hright) (ha.states_apart hb h.source_mem)
    · exact absurd hright h.not_edge

theorem silentCycle_choice_iff :
    (a.choice b names).1.SilentCycle ↔ a.SilentCycle ∨ b.SilentCycle := by
  have hleft := edges_choice_left ha hb hnames
  have hright := edges_choice_right ha hb hnames
  have hwhole := segment_choice ha hb hnames
  constructor
  · intro h
    obtain ⟨s, t, hcycle⟩ := silentCycle_iff.mp h
    rcases mem_edges_choice.mp hcycle.edge with
      ⟨-, -, hend⟩ | ⟨-, ⟨hstart, -, -⟩ | hedge | hedge⟩
    · exact absurd hend (hcycle.target_ne_exit hwhole)
    · obtain ⟨u, hto⟩ := hcycle.exists_to
      exact absurd hstart.symm (target_ne_start_choice ha hb hnames _ hto)
    · apply Or.inl
      apply silentCycle_of_edge ha hleft _ hedge hcycle
      intro x y hleaves hround
      have hend := target_of_leaves_choice ha hb hnames (Or.inl hleaves)
      exact hround.target_ne_exit hwhole hend
    · apply Or.inr
      apply silentCycle_of_edge hb hright _ hedge hcycle
      intro x y hleaves hround
      have hend := target_of_leaves_choice ha hb hnames (Or.inr hleaves)
      exact hround.target_ne_exit hwhole hend
  · rintro (hpart | hpart)
    · exact hpart.mono hleft
    · exact hpart.mono hright

end Choice

section Loop

variable (ha : a.Segment first size exit) (hnames : names.next = first + size)
include ha hnames

private theorem leaves_loop (h : Leaves a (a.loop names).1 s t) :
    s = exit ∧ (t = a.start ∨ t = names.next + 1) := by
  rcases mem_edges_loop.mp h.edge with ⟨hs, -, ht⟩ | ⟨-, ⟨hstart, -, -⟩ | hedge⟩
  · exact ⟨ha.mem_accept_iff.mp hs, ht⟩
  · have hbound := ha.mem_states_iff.mp h.source_mem
    have hstart : names.next = s := hstart
    omega
  · exact absurd hedge h.not_edge

/-- A cycle that leaves the body at its exit goes back to its start, and on to the exit: up to
the first time that it comes there it has stayed in the body. -/
private theorem accepts_nil_of_onCycle (h : (a.loop names).1.OnCycle exit t)
    (ht : t = a.start ∨ t = names.next + 1) : a.Accepts [] := by
  rw [ha.accepts_nil_iff]
  rcases ht with rfl | hend
  · rcases silent_path_leaves ha h.back ha.start_mem with hstays | ⟨x, y, hway, hleaves, -⟩
    · exact hstays
    · obtain ⟨rfl, -⟩ := leaves_loop ha hnames hleaves
      exact hway
  · exact absurd hend (h.target_ne_exit (segment_loop ha hnames))

theorem silentCycle_loop_iff :
    (a.loop names).1.SilentCycle ↔ a.SilentCycle ∨ a.Accepts [] := by
  have hbody := edges_loop_body ha hnames
  constructor
  · intro h
    obtain ⟨s, t, hcycle⟩ := silentCycle_iff.mp h
    rcases mem_edges_loop.mp hcycle.edge with ⟨hs, -, ht⟩ | ⟨-, ⟨hstart, -, -⟩ | hedge⟩
    · obtain rfl : s = exit := ha.mem_accept_iff.mp hs
      exact Or.inr (accepts_nil_of_onCycle ha hnames hcycle ht)
    · obtain ⟨u, hto⟩ := hcycle.exists_to
      exact absurd hstart.symm (target_ne_start_loop ha hnames _ hto)
    · rcases silent_cycle_leaves ha hbody hedge hcycle with hpart | ⟨x, y, hleaves, hout⟩
      · exact Or.inl hpart
      · obtain ⟨rfl, hy⟩ := leaves_loop ha hnames hleaves
        exact Or.inr (accepts_nil_of_onCycle ha hnames hout hy)
  · rintro (hpart | haccepts)
    · exact hpart.mono hbody
    · have hway := silent_path_mono hbody (ha.accepts_nil_iff.mp haccepts)
      have hback : (a.loop names).1.Silent exit a.start :=
        mem_edges_loop.mpr (Or.inl ⟨ha.mem_accept_iff.mpr rfl, rfl, Or.inl rfl⟩)
      exact silentCycle_iff.mpr ⟨exit, a.start, hback, hway⟩

end Loop

end Automaton

end Thompson
