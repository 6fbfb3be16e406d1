import Thompson.Proofs.Pattern.Parsing
import Thompson.Proofs.Regex.Trim

/-!
What the captions of a drawing tell about the edges. A literal is drawn as its character,
the wildcard as a dot and the empty label as an epsilon. No pattern has a dot for a
literal, but the epsilon is a letter like any other.
-/

namespace Thompson

/-- Apart from the literal dot, only the letter epsilon shares a caption. -/
theorem Label.caption_eq_iff {a b : Label} (ha : a ≠ .symbol (.char '.'))
    (hb : b ≠ .symbol (.char '.')) :
    a.caption = b.caption ↔ a = b ∨ (a = .epsilon ∧ b = .symbol (.char 'ε')) ∨
      (a = .symbol (.char 'ε') ∧ b = .epsilon) := by
  cases a with
  | epsilon =>
      cases b with
      | epsilon => simp
      | symbol t =>
          cases t with
          | char d => simp [caption, Symbol.text, eq_comm]
          | any => simp [caption, Symbol.text]
  | symbol s =>
      cases s with
      | char c =>
          have hc : c ≠ '.' := fun heq => ha (by rw [heq])
          cases b with
          | epsilon => simp [caption, Symbol.text]
          | symbol t =>
              cases t with
              | char d => simp [caption, Symbol.text]
              | any => simp [caption, Symbol.text, hc]
      | any =>
          cases b with
          | epsilon => simp [caption, Symbol.text]
          | symbol t =>
              cases t with
              | char d =>
                  have hd : d ≠ '.' := fun heq => hb (by rw [heq])
                  simp [caption, Symbol.text, hd.symm]
              | any => simp

namespace Regex

theorem mem_symbols_iff (r : Regex) (c : Char) : .char c ∈ r.symbols ↔ c ∈ r.literals := by
  induction r with
  | char d => simp [symbols, literals]
  | any => simp [symbols, literals]
  | cat l r ihl ihr | alt l r ihl ihr =>
      rw [symbols, literals, List.mem_append, List.mem_append, ihl, ihr]
  | star r ih => exact ih

/-- The literals on the edges are the alphanumeric characters of the pattern. -/
theorem reads_char_iff {pattern : Text} {tree : Regex} (h : Regex.parse pattern = .ok tree)
    (c : Char) :
    tree.automaton.Reads (.char c) ↔ c ∈ pattern ∧ isAlphanumeric c = true := by
  obtain ⟨-, hderives⟩ := Pattern.parse_eq_ok_iff_derives.mp h
  rw [automaton, reads_build_iff, mem_symbols_iff, Pattern.literals_of_derives hderives,
    List.mem_filter]

theorem label_ne_dot {pattern : Text} {tree : Regex} (h : Regex.parse pattern = .ok tree) :
    ∀ e ∈ tree.automaton.edges, e.label ≠ .symbol (.char '.') := by
  intro e he hlabel
  obtain ⟨-, hdot⟩ := (reads_char_iff h '.').mp ⟨e, he, hlabel⟩
  contradiction

/-- Two edges of an accepted pattern have one caption only if they have one label, or if one
is silent and the other reads the letter epsilon. So the captions tell the labels apart, and
the silent edges from the others, exactly when that letter is not in the pattern. -/
theorem captions_tell_apart_iff {pattern : Text} {tree : Regex}
    (hparse : Regex.parse pattern = .ok tree) :
    (∀ e ∈ tree.automaton.edges, ∀ f ∈ tree.automaton.edges,
      e.label.caption = f.label.caption ↔ e.label = f.label ∨
        (e.label = .epsilon ∧ f.label = .symbol (.char 'ε')) ∨
        (e.label = .symbol (.char 'ε') ∧ f.label = .epsilon)) ∧
    ((∀ e ∈ tree.automaton.edges,
        (∀ f ∈ tree.automaton.edges,
          e.label.caption = f.label.caption ↔ e.label = f.label) ∧
        (e.label.caption = Label.epsilon.caption ↔ e.label = .epsilon)) ↔
      'ε' ∉ pattern) := by
  have hdot := label_ne_dot hparse
  have hletter : tree.automaton.Reads (.char 'ε') ↔ 'ε' ∈ pattern := by
    rw [reads_char_iff hparse]
    exact and_iff_left (by decide)
  refine ⟨fun e he f hf => Label.caption_eq_iff (hdot e he) (hdot f hf), ?_⟩
  rw [← hletter]
  constructor
  · rintro happart ⟨e, he, hlabel⟩
    have hsilent := (happart e he).2.mp (by rw [hlabel]; rfl)
    rw [hlabel] at hsilent
    cases hsilent
  · intro hnone e he
    have hplain : ∀ f ∈ tree.automaton.edges, f.label ≠ .symbol (.char 'ε') :=
      fun f hf hlabel => hnone ⟨f, hf, hlabel⟩
    constructor
    · intro f hf
      rw [Label.caption_eq_iff (hdot e he) (hdot f hf)]
      simp [hplain e he, hplain f hf]
    · rw [Label.caption_eq_iff (hdot e he) (by simp)]
      simp [hplain e he]

/-- Silent edges, a letter and the wildcard. -/
theorem plain_loop_captions_tell_apart :
    Regex.parse ['(', 'a', '|', '.', ')', '*'] = .ok (.star (.alt (.char 'a') .any)) ∧
      ∀ e ∈ (Regex.star (.alt (.char 'a') .any)).automaton.edges,
        e.label.caption = Label.epsilon.caption ↔ e.label = .epsilon := by
  have hparse : Regex.parse ['(', 'a', '|', '.', ')', '*'] =
    .ok (.star (.alt (.char 'a') .any)) := rfl
  refine ⟨hparse, ?_⟩
  intro e he
  exact ((captions_tell_apart_iff hparse).2.mpr (by decide) e he).2

/-- In the loop around the letter epsilon there are silent edges beside the one that reads. -/
theorem epsilon_letter_drawn_as_silent :
    ¬ ∀ (pattern : Text) (tree : Regex), Regex.parse pattern = .ok tree →
      ∀ e ∈ tree.automaton.edges, ∀ f ∈ tree.automaton.edges,
        e.label.caption = f.label.caption ↔ e.label = f.label := by
  intro happart
  have hsame := happart ['ε', '*'] (.star (.char 'ε')) rfl ⟨0, .symbol (.char 'ε'), 1⟩
    (by decide) ⟨1, .epsilon, 0⟩ (by decide)
  exact absurd (hsame.mp rfl) (by decide)

end Regex

end Thompson
