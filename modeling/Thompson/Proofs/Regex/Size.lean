import Thompson.Proofs.Automaton.Count
import Thompson.Proofs.Pattern.Parsing
import Thompson.Proofs.Regex.Naming

/-!
How large the automaton of a pattern is. Both numbers, of the states and of the edges, can be
read off the characters. Concatenations have no character of their own, but a sequence has one
less of them than it has items. Parentheses do not count.
-/

namespace Thompson

namespace Regex

/-- How many edges the automaton has: one that reads for every leaf, one bridge for every
concatenation, and four silent ones for every choice and every loop. -/
def wires : Regex → Nat
  | .char _ | .any => 1
  | .cat l r => l.wires + r.wires + 1
  | .alt l r => l.wires + r.wires + 4
  | .star r => r.wires + 4

theorem edgeCount_build (r : Regex) (names : Names) :
    (r.build names).1.edgeCount = r.wires := by
  induction r generalizing names with
  | char c => exact Automaton.edgeCount_single (.char c) names
  | any => exact Automaton.edgeCount_single .any names
  | cat l r ihl ihr =>
      obtain ⟨exit, hl⟩ := l.exists_segment names
      rw [build, wires, Automaton.edgeCount_chain_of_segment hl, ihl, ihr]
  | alt l r ihl ihr =>
      obtain ⟨exit, hl⟩ := l.exists_segment names
      obtain ⟨finish, hr⟩ := exists_segment_second l r names
      have hnames := next_build_twice l r names
      rw [build, wires, Automaton.edgeCount_choice hl hr hnames, ihl, ihr]
  | star r ih =>
      obtain ⟨exit, hbody⟩ := r.exists_segment names
      rw [build, wires, Automaton.edgeCount_loop hbody (next_build r names), ih]

end Regex

namespace Pattern

/-- How many characters of the text are items: literals and wildcards. -/
def items (w : Text) : Nat := w.countP isAlphanumeric + w.count '.'

theorem items_append (u v : Text) : items (u ++ v) = items u + items v := by
  simp only [items, List.countP_append, List.count_append]
  omega

/-- The characters of a phrase account for the nodes and for the edges. -/
theorem size_of_derives {phrase : Phrase} {w : Text} {r : Regex} (h : Derives phrase w r) :
    r.weight = items w + w.count '|' + w.count '*' ∧
      r.wires + 1 = 2 * items w + 3 * w.count '|' + 4 * w.count '*' := by
  induction h with
  | @char c hc =>
      have hother : ∀ d, isAlphanumeric d = false → [c].count d = 0 := by
        intro d hd
        apply List.count_eq_zero.mpr
        intro hmem
        rw [List.mem_singleton.mp hmem, hc] at hd
        cases hd
      have hitem : items [c] = 1 := by
        rw [items, hother '.' (by decide)]
        simp [hc]
      rw [hitem, hother '|' (by decide), hother '*' (by decide)]
      exact ⟨rfl, rfl⟩
  | any => decide
  | @group w r hw ih =>
      have hitems : items ('(' :: (w ++ [')'])) = items w := by
        have hopening : items ['('] = 0 := by decide
        have hclosing : items [')'] = 0 := by decide
        rw [← List.singleton_append, items_append, items_append, hopening, hclosing]
        exact Nat.zero_add _
      rw [hitems]
      simpa using ih
  | atom hw ih => exact ih
  | star hw ih =>
      have hitems : items ['*'] = 0 := by decide
      have hbars : List.count '|' ['*'] = 0 := by decide
      have hstars : List.count '*' ['*'] = 1 := by decide
      rw [items_append, List.count_append, List.count_append, hitems, hbars, hstars]
      simp only [Regex.weight, Regex.wires]
      omega
  | repetition hw ih => exact ih
  | cat hu hv ihu ihv =>
      rw [items_append, List.count_append, List.count_append]
      simp only [Regex.weight, Regex.wires]
      omega
  | concatenation hw ih => exact ih
  | @alt u v l r hu hv ihu ihv =>
      have hitems : items (u ++ '|' :: v) = items u + items v := by
        have hbar : items ['|'] = 0 := by decide
        rw [items_append, ← List.singleton_append, items_append, hbar, Nat.zero_add]
      rw [hitems, List.count_append, List.count_append, List.count_cons_self,
        List.count_cons_of_ne (by decide)]
      simp only [Regex.weight, Regex.wires]
      omega

end Pattern

open Pattern

/-- The automaton of an accepted pattern has two states for every item, bar and star, and its
number of edges is fixed by the same three numbers. -/
theorem Regex.size_of_parse {pattern : Text} {tree : Regex}
    (hparse : Regex.parse pattern = .ok tree) :
    let leaves := pattern.countP isAlphanumeric + pattern.count '.'
    let bars := pattern.count '|'
    let stars := pattern.count '*'
    tree.automaton.states.Nodup ∧
      tree.automaton.states.length = 2 * (leaves + bars + stars) ∧
      tree.automaton.edgeCount + 1 = 2 * leaves + 3 * bars + 4 * stars ∧
      tree.automaton.edges.length = tree.automaton.edgeCount := by
  intro leaves bars stars
  obtain ⟨-, hderives⟩ := parse_eq_ok_iff_derives.mp hparse
  obtain ⟨hweight, hwires⟩ := size_of_derives hderives
  obtain ⟨exit, hseg⟩ := tree.exists_segment (.ofStart 0)
  refine ⟨hseg.nodup_states, ?_, ?_, ?_⟩
  · rw [automaton, hseg.length_states, hweight]
    rfl
  · rw [automaton, edgeCount_build, hwires]
    rfl
  · exact (Automaton.edgeCount_eq_length_edges _).symm

/-- Two items in a choice and one after it: the parentheses add nothing. -/
theorem Regex.grouped_choice_size :
    Regex.parse ['(', '(', 'a', '|', '.', ')', '*', 'b', ')'] =
        .ok (.cat (.star (.alt (.char 'a') .any)) (.char 'b')) ∧
      (Regex.cat (.star (.alt (.char 'a') .any)) (.char 'b')).automaton.states.length = 10 ∧
      (Regex.cat (.star (.alt (.char 'a') .any)) (.char 'b')).automaton.edgeCount = 12 := by
  have hparse : Regex.parse ['(', '(', 'a', '|', '.', ')', '*', 'b', ')'] =
    .ok (.cat (.star (.alt (.char 'a') .any)) (.char 'b')) := rfl
  obtain ⟨-, hstates, hedges, -⟩ := Regex.size_of_parse hparse
  refine ⟨hparse, hstates.trans (by decide), ?_⟩
  exact Nat.succ.inj (hedges.trans (by decide))

end Thompson
