import Thompson.Proofs.Automaton.Cycles
import Thompson.Proofs.Regex.Recognition

/-!
Silent cycles of what is built. They come from loops whose body can be passed without reading,
and from nothing else: the loop may stand at any depth, and no way of putting parts together
closes a cycle that is not in one of them.
-/

namespace Thompson

namespace Regex

theorem matches_nil_iff (r : Regex) : r.Matches [] ↔ r.nullable = true := by
  induction r with
  | char c | any =>
      rw [nullable]
      exact iff_of_false (fun h => nomatch h) Bool.false_ne_true
  | cat l r ihl ihr =>
      rw [matches_cat_iff, nullable, Bool.and_eq_true, ← ihl, ← ihr]
      constructor
      · rintro ⟨u, v, hw, hu, hv⟩
        obtain ⟨rfl, rfl⟩ := List.append_eq_nil_iff.mp hw.symm
        exact ⟨hu, hv⟩
      · rintro ⟨hl, hr⟩
        exact ⟨[], [], rfl, hl, hr⟩
  | alt l r ihl ihr => rw [matches_alt_iff, nullable, Bool.or_eq_true, ihl, ihr]
  | star r ih => exact iff_of_true .starNil rfl

/-- A loop whose body has the empty word is among the nodes. -/
def HasIdleLoop (r : Regex) (names : Names) : Prop :=
  ∃ body supply, (Regex.star body, supply) ∈ r.parts names ∧ body.Matches []

section Nodes

variable (l r : Regex) (names : Names)

theorem hasIdleLoop_cat_iff :
    (Regex.cat l r).HasIdleLoop names ↔
      l.HasIdleLoop names ∨ r.HasIdleLoop (l.build names).2 := by
  simp [HasIdleLoop, parts, or_and_right, exists_or]

theorem hasIdleLoop_alt_iff :
    (Regex.alt l r).HasIdleLoop names ↔
      l.HasIdleLoop names ∨ r.HasIdleLoop (l.build names).2 := by
  simp [HasIdleLoop, parts, or_and_right, exists_or]

theorem hasIdleLoop_star_iff :
    (Regex.star r).HasIdleLoop names ↔ r.HasIdleLoop names ∨ r.Matches [] := by
  simp [HasIdleLoop, parts, or_and_right, exists_or]

end Nodes

theorem silentCycle_build_iff (r : Regex) (names : Names) :
    (r.build names).1.SilentCycle ↔ r.HasIdleLoop names := by
  induction r generalizing names with
  | char c =>
      apply iff_of_false (Automaton.not_silentCycle_single (.char c) names)
      simp [HasIdleLoop, parts]
  | any =>
      apply iff_of_false (Automaton.not_silentCycle_single .any names)
      simp [HasIdleLoop, parts]
  | cat l r ihl ihr =>
      obtain ⟨exit, hl⟩ := l.exists_segment names
      obtain ⟨finish, hr⟩ := exists_segment_second l r names
      rw [build, Automaton.silentCycle_chain_iff hl hr, ihl, ihr, hasIdleLoop_cat_iff]
  | alt l r ihl ihr =>
      obtain ⟨exit, hl⟩ := l.exists_segment names
      obtain ⟨finish, hr⟩ := exists_segment_second l r names
      have hnames := next_build_twice l r names
      rw [build, Automaton.silentCycle_choice_iff hl hr hnames, ihl, ihr, hasIdleLoop_alt_iff]
  | star r ih =>
      obtain ⟨exit, hbody⟩ := r.exists_segment names
      have hnames := next_build r names
      rw [build, Automaton.silentCycle_loop_iff hbody hnames, ih, accepts_build_iff,
        hasIdleLoop_star_iff]

/-- What is built has a cycle of silent edges exactly when one of the nodes is a loop whose
body has the empty word: a loop, alternatives of which one has it, or a sequence of two that
both have it. -/
theorem build_cycles_iff_idle_loop (r : Regex) (names : Names) :
    ((r.build names).1.SilentCycle ↔
        ∃ body supply, (Regex.star body, supply) ∈ r.parts names ∧ body.Matches []) ∧
      ∀ body : Regex, body.Matches [] ↔ body.nullable = true :=
  ⟨silentCycle_build_iff r names, matches_nil_iff⟩

end Regex

end Thompson
