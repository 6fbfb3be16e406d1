/-!
A place in a stream: what lies ahead, and how many items lie behind. Reading
past the end gives nothing and leaves the place as it is.
-/

namespace Thompson

structure Cursor (α : Type) where
  rest : List α
  pos : Nat
  deriving DecidableEq, Repr

namespace Cursor

variable {α : Type}

/-- The start of a stream. -/
def ofList (stream : List α) : Cursor α := ⟨stream, 0⟩

def peek (cursor : Cursor α) : Option α := cursor.rest.head?

/-- Takes the next item, if there is one. -/
def pop (cursor : Cursor α) : Option α × Cursor α :=
  match cursor.rest with
  | [] => (none, cursor)
  | item :: rest => (some item, ⟨rest, cursor.pos + 1⟩)

/-- Takes the next item if it is the expected one, and tells whether it did. -/
def popIf [DecidableEq α] (expected : α) (cursor : Cursor α) : Bool × Cursor α :=
  if cursor.peek = some expected then (true, cursor.pop.2) else (false, cursor)

/-- The place `n` items further on, or the end. -/
def skip (n : Nat) (cursor : Cursor α) : Cursor α :=
  ⟨cursor.rest.drop n, cursor.pos + min n cursor.rest.length⟩

/-- Taking an item and looking at it see the same one. -/
theorem pop_fst (cursor : Cursor α) : cursor.pop.1 = cursor.peek := by
  cases cursor with
  | mk rest pos => cases rest <;> rfl

theorem peek_of_rest {cursor : Cursor α} {item : α} {rest : List α}
    (h : cursor.rest = item :: rest) : cursor.peek = some item := by
  rw [peek, h, List.head?_cons]

theorem pop_eq_some_iff {cursor next : Cursor α} {item : α} :
    cursor.pop = (some item, next) ↔
      cursor.rest = item :: next.rest ∧ next.pos = cursor.pos + 1 := by
  obtain ⟨rest, pos⟩ := cursor
  obtain ⟨ahead, place⟩ := next
  cases rest with
  | nil => simp [pop]
  | cons first rest => simp [pop, eq_comm, and_assoc]

theorem pop_eq_none_iff {cursor next : Cursor α} :
    cursor.pop = (none, next) ↔ cursor.rest = [] ∧ next = cursor := by
  obtain ⟨rest, pos⟩ := cursor
  cases rest with
  | nil => simp [pop, eq_comm]
  | cons first rest => simp [pop]

section PopIf

variable [DecidableEq α] {cursor next : Cursor α} {expected : α}

theorem popIf_eq_true_iff :
    cursor.popIf expected = (true, next) ↔ cursor.pop = (some expected, next) := by
  by_cases hpeek : cursor.peek = some expected
  · simp [popIf, hpeek, Prod.ext_iff, pop_fst]
  · simp [popIf, hpeek, Prod.ext_iff, pop_fst]

theorem popIf_eq_false_iff :
    cursor.popIf expected = (false, next) ↔ cursor.peek ≠ some expected ∧ next = cursor := by
  by_cases hpeek : cursor.peek = some expected
  · simp [popIf, hpeek]
  · simp [popIf, hpeek, eq_comm]

end PopIf

/-- What is behind and what is ahead make up the same stream after a step. -/
theorem pos_add_length_pop (cursor : Cursor α) :
    cursor.pop.2.pos + cursor.pop.2.rest.length = cursor.pos + cursor.rest.length := by
  cases cursor with
  | mk rest pos =>
      cases rest with
      | nil => rfl
      | cons item rest =>
          change pos + 1 + rest.length = pos + (rest.length + 1)
          omega

end Cursor

end Thompson
