import Thompson.Ordered.Map
import Thompson.Text.Basic

/-!
What stands on the edges of an automaton: a symbol that reads one character, or
nothing. In every row the empty label comes first, then the characters by code
point, then the wildcard.
-/

namespace Thompson

inductive Symbol where
  | char : Char → Symbol
  | any : Symbol
  deriving DecidableEq, Repr

inductive Label where
  | epsilon : Label
  | symbol : Symbol → Label
  deriving DecidableEq, Repr

namespace Symbol

instance : Ranked Symbol where
  rank
    | .char c => c.toNat
    | .any => UInt32.size
  rank_inj {a b} h := by
    cases a with
    | char c =>
        cases b with
        | char d => rw [Char.toNat_inj.mp h]
        | any => exact absurd h (Nat.ne_of_lt c.val.toNat_lt)
    | any =>
        cases b with
        | char d => exact absurd h.symm (Nat.ne_of_lt d.val.toNat_lt)
        | any => rfl

/-- The wildcard is written as a dot, any other symbol as its character. -/
def text : Symbol → Text
  | .char c => [c]
  | .any => ['.']

/-- Whether the symbol stands for the character. -/
def reads : Symbol → Char → Bool
  | .char c, d => c = d
  | .any, _ => true

end Symbol

namespace Label

instance : Ranked Label where
  rank
    | .epsilon => 0
    | .symbol s => rank s + 1
  rank_inj {a b} h := by
    cases a with
    | epsilon =>
        cases b with
        | epsilon => rfl
        | symbol s => exact absurd h.symm (Nat.succ_ne_zero _)
    | symbol s =>
        cases b with
        | epsilon => exact absurd h (Nat.succ_ne_zero _)
        | symbol t => rw [Ranked.rank_inj (Nat.succ.inj h)]

/-- As a key of a row, the empty label is the empty text. -/
def key : Label → Text
  | .epsilon => []
  | .symbol s => s.text

/-- In a drawing, the empty label is an epsilon. -/
def caption : Label → Text
  | .epsilon => ['ε']
  | .symbol s => s.text

/-- Labels in the order that they have in a row. Equal ones are all kept. -/
def sort (labels : List Label) : List Label := labels.mergeSort fun a b => rank a ≤ rank b

end Label

end Thompson
