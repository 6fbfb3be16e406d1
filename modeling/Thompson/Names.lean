import Thompson.Automaton.Basic

/-!
A supply of state names. Names are handed out in ascending order, and a supply
that is used for one construction after the other never gives a name twice.

The names of the program are words of 64 bits, and so is its counter. Here they are
numbers without a bound. The two agree as long as what is taken fits, and whatever is
said of an automaton with names from a supply is said of the program for such supplies
only. Beyond the limit the counter would begin again at zero, with names that may be in
use, and a checked addition would fail.
-/

namespace Thompson

/-- Every number from `next` on is still free. -/
structure Names where
  next : Nat
  deriving DecidableEq, Repr

namespace Names

def ofStart (s : Nat) : Names := ⟨s⟩

def fresh (names : Names) : Nat × Names := (names.next, ⟨names.next + 1⟩)

/-- The next `n` names in the order they are handed out. -/
def take : Nat → Names → List Nat × Names
  | 0, names => ([], names)
  | n + 1, names =>
      let (s, names) := names.fresh
      let (rest, names) := names.take n
      (s :: rest, names)

/-- What has been handed out is an interval. -/
theorem take_eq (n : Nat) (names : Names) :
    names.take n = (List.range' names.next n, ⟨names.next + n⟩) := by
  induction n generalizing names with
  | zero => rfl
  | succ n ih =>
      simp only [take, fresh, ih, List.range'_succ]
      rw [Nat.add_assoc, Nat.add_comm 1 n]

/-- How many names there are: two to the power of 64. -/
def limit : Nat := UInt64.size

/-- Another `n` names can be handed out, and the one after them is a name as well. -/
def Fits (names : Names) (n : Nat) : Prop := names.next + n < limit

instance (names : Names) (n : Nat) : Decidable (names.Fits n) :=
  inferInstanceAs (Decidable (_ < _))

/-- The names from a counter that is a word of 64 bits. -/
def takeWords : Nat → UInt64 → List UInt64 × UInt64
  | 0, next => ([], next)
  | n + 1, next =>
      let (rest, last) := takeWords n (next + 1)
      (next :: rest, last)

/-- A counter in a word gives the names of the supply, as long as they fit. -/
theorem take_eq_words {n : Nat} {next : UInt64} (h : (ofStart next.toNat).Fits n) :
    (ofStart next.toNat).take n =
      ((takeWords n next).1.map UInt64.toNat, ofStart (takeWords n next).2.toNat) := by
  induction n generalizing next with
  | zero => rfl
  | succ n ih =>
      change next.toNat + (n + 1) < limit at h
      have hnext : (next + 1).toNat = next.toNat + 1 := by
        rw [UInt64.toNat_add]
        exact Nat.mod_eq_of_lt (Nat.lt_of_le_of_lt (by simp) h)
      have hrest : (ofStart (next + 1).toNat).Fits n := by
        change (next + 1).toNat + n < limit
        omega
      have htake : take n ⟨next.toNat + 1⟩ =
          ((takeWords n (next + 1)).1.map UInt64.toNat,
            ofStart (takeWords n (next + 1)).2.toNat) := by
        rw [← hnext]
        exact ih hrest
      change (_ :: (take n ⟨next.toNat + 1⟩).1, (take n ⟨next.toNat + 1⟩).2) = _
      rw [htake]
      rfl

/-- The counter begins again after the last name. -/
example : takeWords 2 18446744073709551615 = ([18446744073709551615, 0], 1) := rfl

end Names

end Thompson
