import Thompson.Proofs.Automaton.Grouping
import Thompson.Proofs.Regex.Naming
import Thompson.Regex.Factors

/-!
Regrouping the concatenations of a regular expression leaves its automaton as it
is. For each list of factors one tree is chosen, the one that groups to the right,
and every expression with these factors builds what that tree builds.
-/

namespace Thompson

namespace Factor

mutual

/-- The expression of a factor, with its concatenations grouped to the right. -/
def tree : Factor → Regex
  | .char c => .char c
  | .any => .any
  | .alt ls rs => .alt (treeOfList ls) (treeOfList rs)
  | .star fs => .star (treeOfList fs)

/-- The concatenation of the factors. No expression has none of them. -/
def treeOfList : List Factor → Regex
  | [] => .any
  | [f] => f.tree
  | f :: g :: rest => .cat f.tree (treeOfList (g :: rest))

end

theorem treeOfList_cons (f : Factor) {rest : List Factor} (hrest : rest ≠ []) :
    treeOfList (f :: rest) = .cat f.tree (treeOfList rest) := by
  cases rest with
  | nil => exact absurd rfl hrest
  | cons g rest => rw [treeOfList]

end Factor

namespace Regex

theorem factors_ne_nil (r : Regex) : r.factors ≠ [] := by
  induction r with
  | char c => exact List.cons_ne_nil _ _
  | any => exact List.cons_ne_nil _ _
  | cat l r ihl ihr => exact List.append_ne_nil_of_left_ne_nil ihl _
  | alt l r ihl ihr => exact List.cons_ne_nil _ _
  | star r ih => exact List.cons_ne_nil _ _

section Congruence

variable {l l' r r' : Regex}

theorem build_cat_congr (hl : l.build = l'.build) (hr : r.build = r'.build) :
    (Regex.cat l r).build = (Regex.cat l' r').build := by
  funext names
  simp only [build, hl, hr]

theorem build_alt_congr (hl : l.build = l'.build) (hr : r.build = r'.build) :
    (Regex.alt l r).build = (Regex.alt l' r').build := by
  funext names
  simp only [build, hl, hr]

theorem build_star_congr (hr : r.build = r'.build) :
    (Regex.star r).build = (Regex.star r').build := by
  funext names
  simp only [build, hr]

end Congruence

theorem build_cat_assoc (a b c : Regex) :
    (Regex.cat (.cat a b) c).build = (Regex.cat a (.cat b c)).build := by
  funext names
  obtain ⟨exit, ha⟩ := a.exists_segment names
  obtain ⟨finish, hb⟩ := exists_segment_second a b names
  obtain ⟨last, hc⟩ := exists_segment_second b c (a.build names).2
  rw [next_build] at hc
  have hexit := ha.mem_states_iff.mp ha.exit_mem
  have hrow : ∀ s ∈ (a.build names).1.accept,
      (c.build (b.build (a.build names).2).2).1.table.get? s = none := by
    intro s hs
    apply hc.row_eq_none
    rw [ha.mem_accept_iff.mp hs, hc.mem_states_iff]
    omega
  have haccept : ∀ s ∈ (a.build names).1.accept, s ∉ (b.build (a.build names).2).1.accept := by
    intro s hs
    apply hb.not_accept
    rw [ha.mem_accept_iff.mp hs]
    exact ha.states_apart hb ha.exit_mem
  simp only [build, Automaton.chain_assoc hrow haccept]

/-- Lists of factors may be split anywhere. -/
theorem build_treeOfList_append {fs gs : List Factor} (hfs : fs ≠ []) (hgs : gs ≠ []) :
    (Factor.treeOfList (fs ++ gs)).build =
      (Regex.cat (Factor.treeOfList fs) (Factor.treeOfList gs)).build := by
  induction fs with
  | nil => exact absurd rfl hfs
  | cons f rest ih =>
      cases rest with
      | nil =>
          rw [List.singleton_append, Factor.treeOfList_cons f hgs, Factor.treeOfList]
      | cons g rest =>
          have hrest : g :: rest ≠ [] := List.cons_ne_nil _ _
          have hall : g :: rest ++ gs ≠ [] := List.append_ne_nil_of_left_ne_nil hrest _
          rw [List.cons_append, Factor.treeOfList_cons f hall, Factor.treeOfList_cons f hrest,
            build_cat_assoc]
          exact build_cat_congr rfl (ih hrest)

/-- An expression builds what the chosen tree of its factors builds. -/
theorem build_treeOfList_factors (r : Regex) : (Factor.treeOfList r.factors).build = r.build := by
  induction r with
  | char c => rfl
  | any => rfl
  | cat l r ihl ihr =>
      rw [factors, build_treeOfList_append l.factors_ne_nil r.factors_ne_nil]
      exact build_cat_congr ihl ihr
  | alt l r ihl ihr => exact build_alt_congr ihl ihr
  | star r ih => exact build_star_congr ih

theorem build_eq_of_factors_eq {a b : Regex} (h : a.factors = b.factors) : a.build = b.build := by
  rw [← build_treeOfList_factors a, ← build_treeOfList_factors b, h]

end Regex

end Thompson
