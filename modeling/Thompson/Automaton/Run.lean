import Thompson.Automaton.Basic

/-!
Runs of an automaton. A path follows edges and reads the characters that their
symbols stand for; a word is accepted when a path from the start to an accepting
state reads it.
-/

namespace Thompson

namespace Automaton

inductive Path (a : Automaton) : Nat → List Char → Nat → Prop where
  | refl (s : Nat) : Path a s [] s
  | silent {s t u : Nat} {w : List Char} :
      ⟨s, .epsilon, t⟩ ∈ a.edges → Path a t w u → Path a s w u
  | read {s t u : Nat} {symbol : Symbol} {c : Char} {w : List Char} :
      ⟨s, .symbol symbol, t⟩ ∈ a.edges → symbol.reads c = true → Path a t w u →
        Path a s (c :: w) u

def Accepts (a : Automaton) (w : List Char) : Prop :=
  ∃ s ∈ a.accept, a.Path a.start w s

/-- A state is reachable from another along edges of any label. -/
inductive Reaches (a : Automaton) : Nat → Nat → Prop where
  | refl (s : Nat) : Reaches a s s
  | step {s t u : Nat} {label : Label} :
      ⟨s, label, t⟩ ∈ a.edges → Reaches a t u → Reaches a s u

namespace Path

theorem trans {a : Automaton} {s t u : Nat} {v w : List Char}
    (first : a.Path s v t) (second : a.Path t w u) : a.Path s (v ++ w) u := by
  induction first with
  | refl s => exact second
  | silent edge _ ih => exact .silent edge (ih second)
  | read edge hread _ ih => exact .read edge hread (ih second)

/-- A path is also one of any automaton that has the same edges and more. -/
theorem mono {a b : Automaton} (hedges : ∀ e ∈ a.edges, e ∈ b.edges)
    {s t : Nat} {w : List Char} (path : a.Path s w t) : b.Path s w t := by
  induction path with
  | refl s => exact .refl s
  | silent edge _ ih => exact .silent (hedges _ edge) ih
  | read edge hread _ ih => exact .read (hedges _ edge) hread ih

end Path

end Automaton

end Thompson
