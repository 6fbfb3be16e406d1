import Thompson.Proofs.Automaton.Legible
import Thompson.Proofs.Automaton.Sound
import Thompson.Proofs.Regex.Captions

/-!
The digraph of a pattern loses nothing. A letter epsilon is drawn like an empty label, but the
number of a state and the number of its arrows tell which of the two it has. No caption breaks
a line or the quotes it stands in.
-/

namespace Thompson

namespace Regex

theorem legible_build {r : Regex} (hdot : '.' ∉ r.literals) {names : Names}
    (heven : names.next % 2 = 0) : (r.build names).1.Legible := by
  induction r generalizing names with
  | char c =>
      apply Automaton.legible_single _ heven
      intro heq
      cases heq
      exact hdot List.mem_cons_self
  | any => exact Automaton.legible_single (by simp) heven
  | cat l r ihl ihr =>
      obtain ⟨hldot, hrdot⟩ := not_or.mp (mt List.mem_append.mpr hdot)
      obtain ⟨exit, hl⟩ := l.exists_segment names
      obtain ⟨finish, hr⟩ := exists_segment_second l r names
      have hnext := next_build l names
      exact (ihl hldot heven).chain (ihr hrdot (by omega)) hl hr
  | alt l r ihl ihr =>
      obtain ⟨hldot, hrdot⟩ := not_or.mp (mt List.mem_append.mpr hdot)
      obtain ⟨exit, hl⟩ := l.exists_segment names
      obtain ⟨finish, hr⟩ := exists_segment_second l r names
      have hnext := next_build l names
      have hnames := next_build_twice l r names
      exact (ihl hldot heven).choice (ihr hrdot (by omega)) hl hr hnames (by omega)
  | star r ih =>
      obtain ⟨exit, hbody⟩ := r.exists_segment names
      have hnames := next_build r names
      exact (ih hdot heven).loop hbody hnames (by omega)

theorem mem_alphabet_iff_reads (r : Regex) (symbol : Symbol) :
    symbol ∈ r.automaton.alphabet ↔ r.automaton.Reads symbol := by
  rw [automaton, mem_alphabet_build, reads_build_iff]

/-- The accepting states are drawn among the states, and the alphabet is what is read on the
edges. -/
theorem automaton_eq_of_drawing_eq {r q : Regex} (hr : '.' ∉ r.literals)
    (hq : '.' ∉ q.literals) (h : r.automaton.drawing = q.automaton.drawing) :
    r.automaton = q.automaton := by
  have hstates := Automaton.states_eq_of_drawing_eq h
  have haccept := Automaton.accept_eq_of_drawing_eq (r.sound_build _).accept_mem
    (q.sound_build _).accept_mem h
  have hstart : r.automaton.start = q.automaton.start := congrArg Drawing.start h
  have htable : r.automaton.table = q.automaton.table :=
    (legible_build hr rfl).table_eq_of_drawing_eq (legible_build hq rfl) h
  have halphabet : r.automaton.alphabet = q.automaton.alphabet := by
    apply OrdSet.ext
    intro symbol
    rw [mem_alphabet_iff_reads, mem_alphabet_iff_reads, Automaton.Reads, Automaton.Reads,
      Automaton.edges, htable]
    rfl
  exact (Automaton.mk.injEq ..).mpr ⟨hstates, halphabet, htable, hstart, haccept⟩

section Accepted

variable {pattern : Text} {tree : Regex} (hparse : Regex.parse pattern = .ok tree)

include hparse

theorem dot_not_mem_literals : '.' ∉ tree.literals := by
  obtain ⟨-, hderives⟩ := Pattern.parse_eq_ok_iff_derives.mp hparse
  rw [Pattern.literals_of_derives hderives, List.mem_filter]
  rintro ⟨-, hdot⟩
  contradiction

theorem caption_of_mem_edges : ∀ e ∈ tree.automaton.edges,
    ∃ c, e.label.caption = [c] ∧ c ∉ ['\n', '"', '\\'] := by
  intro e he
  cases hlabel : e.label with
  | epsilon => exact ⟨'ε', rfl, by decide⟩
  | symbol symbol =>
      cases symbol with
      | any => exact ⟨'.', rfl, by decide⟩
      | char c =>
          obtain ⟨-, hletter⟩ := (reads_char_iff hparse c).mp ⟨e, he, hlabel⟩
          refine ⟨c, rfl, ?_⟩
          intro hmem
          simp only [List.mem_cons, List.not_mem_nil, or_false] at hmem
          rcases hmem with rfl | rfl | rfl <;> contradiction

theorem newline_not_mem_caption : ∀ e ∈ tree.automaton.edges, '\n' ∉ e.label.caption := by
  intro e he
  obtain ⟨c, hcaption, hplain⟩ := caption_of_mem_edges hparse e he
  rw [hcaption]
  intro hmem
  rw [← List.mem_singleton.mp hmem] at hplain
  exact hplain List.mem_cons_self

end Accepted

/-- Two accepted patterns have one digraph if and only if they have one automaton. The digraph
is a line for every state, a line for every edge and five more, since a caption is a single
character that breaks neither the line nor the quotes around it. -/
theorem digraph_lossless {pattern other : Text} {tree tree' : Regex}
    (hparse : Regex.parse pattern = .ok tree) (hother : Regex.parse other = .ok tree') :
    (tree.automaton.digraph = tree'.automaton.digraph ↔ tree.automaton = tree'.automaton) ∧
      (∃ lines, tree.automaton.digraph = Text.unlines lines ∧ (∀ line ∈ lines, '\n' ∉ line) ∧
        lines.length = tree.automaton.states.length + tree.automaton.edgeCount + 5) ∧
      ∀ e ∈ tree.automaton.edges, ∃ c, e.label.caption = [c] ∧ c ∉ ['\n', '"', '\\'] := by
  have hline := newline_not_mem_caption hparse
  refine ⟨?_, ⟨tree.automaton.drawing.statements, ?_, ?_, ?_⟩, caption_of_mem_edges hparse⟩
  · rw [Automaton.digraph_eq_iff hline (newline_not_mem_caption hother)]
    constructor
    · exact automaton_eq_of_drawing_eq (dot_not_mem_literals hparse) (dot_not_mem_literals hother)
    · intro h
      rw [h]
  · exact Automaton.digraph_eq_unlines _
  · exact Automaton.newline_not_mem_statements hline
  · exact Automaton.length_statements _

/-- All arrows of both have the caption of an empty label. -/
theorem epsilon_digraphs_differ :
    Regex.parse ['ε', 'ε'] = .ok (.cat (.char 'ε') (.char 'ε')) ∧
      Regex.parse ['ε', '*'] = .ok (.star (.char 'ε')) ∧
      (Regex.cat (.char 'ε') (.char 'ε')).automaton.digraph ≠
        (Regex.star (.char 'ε')).automaton.digraph ∧
      ∃ lines, (Regex.cat (.char 'ε') (.char 'ε')).automaton.digraph = Text.unlines lines ∧
        (∀ line ∈ lines, '\n' ∉ line) ∧ lines.length = 12 := by
  have hparse : Regex.parse ['ε', 'ε'] = .ok (.cat (.char 'ε') (.char 'ε')) := rfl
  have hother : Regex.parse ['ε', '*'] = .ok (.star (.char 'ε')) := rfl
  obtain ⟨hiff, hlines, -⟩ := digraph_lossless hparse hother
  refine ⟨hparse, hother, ?_, hlines⟩
  rw [ne_eq, hiff]
  decide

end Regex

end Thompson
