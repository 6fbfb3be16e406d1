import Mathlib.Computability.Language
import Thompson.Proofs.Automaton.Paths

/-!
What the compositions do to the words that automata accept. The parts may be any automata
that keep their names apart: they may accept in many states or in none, and edges may leave
these states and enter the start. A chain multiplies the languages of such parts. A choice
adds, and a loop closes, only what the parts accept when they stop at the first accepting
state on their way. That is all they accept if no edge leaves such a state.

A choice and a loop take two names. They are those of a counter of 64 bits if `names.Fits 2`,
and by `compositions_within_limit` the whole automaton then has its states within the limit.
For other supplies the equations hold of numbers that no counter gives.
-/

namespace Thompson

namespace Automaton

open Computability

/-- The words that the automaton accepts. -/
def language (a : Automaton) : Language Char := {w | a.Accepts w}

theorem mem_language {a : Automaton} {w : List Char} : w ∈ a.language ↔ a.Accepts w :=
  Iff.rfl

/-- No edge leaves a state in which the automaton accepts. -/
def StopsOnAccept (a : Automaton) : Prop := ∀ e ∈ a.edges, e.source ∉ a.accept

instance (a : Automaton) : Decidable a.StopsOnAccept :=
  inferInstanceAs (Decidable (∀ e ∈ a.edges, e.source ∉ a.accept))

/-- The rows that are dropped then have no edges. -/
theorem StopsOnAccept.language_clip {a : Automaton} (h : a.StopsOnAccept) :
    a.clip.language = a.language := by
  have hedges : ∀ e, e ∈ a.clip.edges ↔ e ∈ a.edges := by
    intro e
    rw [mem_edges_clip]
    constructor
    · exact And.left
    · intro he
      exact ⟨he, h e he⟩
  ext w
  constructor
  · rintro ⟨s, hs, path⟩
    exact ⟨s, hs, path.mono fun e => (hedges e).mp⟩
  · rintro ⟨s, hs, path⟩
    exact ⟨s, hs, path.mono fun e => (hedges e).mpr⟩

/-- Accepts in both of its states and goes on from either. -/
def restless : Automaton :=
  ((((ofStart 0).addEdge ⟨0, .symbol (.char 'a'), 1⟩).addEdge ⟨1, .epsilon, 0⟩).addAccept 0)
    |>.addAccept 1

/-- From the accepting state an edge leads back to the start. -/
def shuttle : Automaton :=
  ((ofStart 5).addEdge ⟨5, .symbol (.char 'b'), 6⟩).addEdge ⟨6, .symbol .any, 5⟩ |>.addAccept 6

theorem mem_language_restless : ['a'] ∈ restless.language := by
  have hedge : ⟨0, .symbol (.char 'a'), 1⟩ ∈ restless.edges := by decide
  exact ⟨1, by decide, .read hedge (by decide) (.refl 1)⟩

theorem language_clip_restless : restless.clip.language = 1 := by
  have hstuck : ∀ e ∈ restless.clip.edges, e.source ≠ 0 := by decide
  ext w
  rw [Language.mem_one]
  constructor
  · rintro ⟨s, -, path⟩
    exact (path.eq_of_stuck hstuck).1
  · rintro rfl
    exact ⟨0, by decide, .refl 0⟩

theorem language_clip_shuttle : shuttle.clip.language = {['b']} := by
  have haccept : shuttle.clip.accept = {6} := by decide
  have hedges : ∀ e ∈ shuttle.clip.edges, e = ⟨5, .symbol (.char 'b'), 6⟩ := by decide
  have hstuck : ∀ e ∈ shuttle.clip.edges, e.source ≠ 6 := by decide
  ext w
  rw [mem_language, accepts_iff_path haccept]
  constructor
  · intro path
    obtain ⟨e, he, -, u, v, rfl, hu, hrest⟩ := path.head (by decide)
    obtain rfl := hedges e he
    obtain ⟨c, rfl, hread⟩ := hu
    obtain rfl : 'b' = c := of_decide_eq_true hread
    obtain ⟨rfl, -⟩ := hrest.eq_of_stuck hstuck
    rfl
  · rintro rfl
    have hedge : ⟨5, .symbol (.char 'b'), 6⟩ ∈ shuttle.clip.edges := by decide
    exact .read hedge (by decide) (.refl 6)

section Compose

variable {a b : Automaton} {names : Names}

/-- A chain reads a word of the first part and then a word of the second. -/
theorem language_chain (hapart : ∀ s, a.Mentions s → ¬ b.Mentions s) :
    (a.chain b).language = a.language * b.language := by
  ext w
  rw [mem_language, accepts_chain_iff hapart, Language.mem_mul]
  constructor
  · rintro ⟨u, v, rfl, hu, hv⟩
    exact ⟨u, hu, v, hv, rfl⟩
  · rintro ⟨u, hu, v, hv, rfl⟩
    exact ⟨u, v, rfl, hu, hv⟩

theorem language_restless_chain :
    (∀ s, restless.Mentions s → ¬ shuttle.Mentions s) ∧
      (restless.chain shuttle).language = restless.language * shuttle.language ∧
      ['a', 'b'] ∈ (restless.chain shuttle).language := by
  have hapart : ∀ s, restless.Mentions s → ¬ shuttle.Mentions s := by decide
  have hwords := language_chain hapart
  have hedge : ⟨5, .symbol (.char 'b'), 6⟩ ∈ shuttle.edges := by decide
  have hsecond : ['b'] ∈ shuttle.language := ⟨6, by decide, .read hedge (by decide) (.refl 6)⟩
  have hword := Language.append_mem_mul mem_language_restless hsecond
  rw [← hwords] at hword
  exact ⟨hapart, hwords, hword⟩

/-- A choice reads a word of one of the parts, as far as they go up to their first accepting
state. Its own two names must fit, or they are not the next two of a counter. -/
theorem language_choice (hapart : ∀ s, a.Mentions s → ¬ b.Mentions s)
    (ha : ¬ a.Mentions names.next ∧ ¬ a.Mentions (names.next + 1))
    (hb : ¬ b.Mentions names.next ∧ ¬ b.Mentions (names.next + 1)) :
    (a.choice b names).1.language = a.clip.language + b.clip.language ∧
      (a.StopsOnAccept → b.StopsOnAccept →
        (a.choice b names).1.language = a.language + b.language) := by
  have hclipped : (a.choice b names).1.language = a.clip.language + b.clip.language := by
    ext w
    rw [mem_language, accepts_choice_iff hapart ha hb, Language.mem_add, mem_language,
      mem_language]
  refine ⟨hclipped, ?_⟩
  intro hleft hright
  rw [hclipped, hleft.language_clip, hright.language_clip]

/-- The choice lacks a word of a part that goes on after it has accepted. It has all the words
of parts that do not. -/
theorem language_restless_choice :
    ((∀ s, restless.Mentions s → ¬ shuttle.Mentions s) ∧
        (¬ restless.Mentions 7 ∧ ¬ restless.Mentions 8) ∧
        ¬ shuttle.Mentions 7 ∧ ¬ shuttle.Mentions 8) ∧
      (restless.choice shuttle ⟨7⟩).1.language = 1 + {['b']} ∧
      ['a'] ∈ restless.language ∧ ['a'] ∉ (restless.choice shuttle ⟨7⟩).1.language ∧
      (restless.clip.StopsOnAccept ∧ shuttle.clip.StopsOnAccept) ∧
      (restless.clip.choice shuttle.clip ⟨7⟩).1.language = 1 + {['b']} := by
  have hapart : ∀ s, restless.Mentions s → ¬ shuttle.Mentions s := by decide
  have ha : ¬ restless.Mentions 7 ∧ ¬ restless.Mentions 8 := by decide
  have hb : ¬ shuttle.Mentions 7 ∧ ¬ shuttle.Mentions 8 := by decide
  have hwords : (restless.choice shuttle ⟨7⟩).1.language = _ := (language_choice hapart ha hb).1
  rw [language_clip_restless, language_clip_shuttle] at hwords
  have hlost : ['a'] ∉ (restless.choice shuttle ⟨7⟩).1.language := by
    rw [hwords, Language.mem_add, Language.mem_one]
    rintro (h | h) <;> cases h
  have hstops : restless.clip.StopsOnAccept ∧ shuttle.clip.StopsOnAccept := by decide
  have hall : (restless.clip.choice shuttle.clip ⟨7⟩).1.language = _ :=
    (language_choice (by decide) (by decide) (by decide)).2 hstops.1 hstops.2
  rw [language_clip_restless, language_clip_shuttle] at hall
  exact ⟨⟨hapart, ha, hb⟩, hwords, mem_language_restless, hlost, hstops, hall⟩

/-- A loop reads any number of words of the body, each up to the first accepting state. As for
a choice, its two names must fit to be those of a counter. -/
theorem language_loop (ha : ¬ a.Mentions names.next ∧ ¬ a.Mentions (names.next + 1)) :
    (a.loop names).1.language = a.clip.language∗ ∧
      (a.StopsOnAccept → (a.loop names).1.language = a.language∗) := by
  have hclipped : (a.loop names).1.language = a.clip.language∗ := by
    ext w
    rw [mem_language, accepts_loop_iff ha, Language.mem_kstar]
    rfl
  refine ⟨hclipped, ?_⟩
  intro hstops
  rw [hclipped, hstops.language_clip]

/-- Every round of a body that accepts at its start ends there. -/
theorem language_restless_loop :
    (¬ restless.Mentions 7 ∧ ¬ restless.Mentions 8) ∧
      (restless.loop ⟨7⟩).1.language = 1 ∧ ['a'] ∈ restless.language ∧
      (¬ shuttle.clip.Mentions 7 ∧ ¬ shuttle.clip.Mentions 8) ∧ shuttle.clip.StopsOnAccept ∧
      (shuttle.clip.loop ⟨7⟩).1.language = {['b']}∗ := by
  have ha : ¬ restless.Mentions 7 ∧ ¬ restless.Mentions 8 := by decide
  have hwords : (restless.loop ⟨7⟩).1.language = _ := (language_loop ha).1
  rw [language_clip_restless, kstar_one] at hwords
  have hb : ¬ shuttle.clip.Mentions 7 ∧ ¬ shuttle.clip.Mentions 8 := by decide
  have hstops : shuttle.clip.StopsOnAccept := by decide
  have hall : (shuttle.clip.loop ⟨7⟩).1.language = _ := (language_loop hb).2 hstops
  rw [language_clip_shuttle] at hall
  exact ⟨ha, hwords, mem_language_restless, hb, hstops, hall⟩

end Compose

end Automaton

end Thompson
