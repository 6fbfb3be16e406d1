import Thompson.Automaton.Shift
import Thompson.Proofs.Automaton.Closed
import Thompson.Proofs.Automaton.Overlay

/-!
When it does not matter how three automata in a row are grouped. The states, the symbols and the
rows are the same either way; only the bridges out of the first part come at another time, and
this shows in the order of the targets of the states they leave. So the groupings agree when
these states get no other silent targets from what is added later, as in parts that keep their
names apart, or when all of those are the target of the bridge itself.
-/

namespace Thompson

/-- What is put before a list may be put behind it if the list has nothing else. -/
private theorem cons_eq_concat_iff {α : Type} {x : α} {l : List α} :
    x :: l = l ++ [x] ↔ ∀ y ∈ l, y = x := by
  induction l with
  | nil => simp
  | cons z rest ih =>
      rw [List.cons_append, List.cons.injEq, List.forall_mem_cons]
      constructor
      · rintro ⟨rfl, hrest⟩
        exact ⟨rfl, ih.mp hrest⟩
      · rintro ⟨rfl, hrest⟩
        exact ⟨rfl, ih.mpr hrest⟩

namespace Table

/-- Two tables may change places behind a third exactly if their lists of targets may. -/
theorem join_swap_iff {t u v : Table} :
    t.join (u.join v) = t.join (v.join u) ↔ ∀ s label,
      leads (u.get? s) label ++ leads (v.get? s) label =
        leads (v.get? s) label ++ leads (u.get? s) label := by
  rw [eq_iff_leads]
  simp only [mem_keys_join, get?_join, mem_labels_join, leads_join]
  constructor
  · rintro ⟨-, -, hleads⟩ s label
    exact List.append_cancel_left (hleads s label)
  · intro hleads
    refine ⟨?_, ?_, ?_⟩
    · intro s
      rw [or_comm (a := s ∈ u.keys)]
    · intro s label
      rw [or_comm (a := label ∈ labels (u.get? s))]
    · intro s label
      rw [hleads]

theorem leads_bridges {sources : List Nat} (hsources : sources.Nodup) (target s : Nat)
    (label : Label) :
    leads ((bridges sources target).get? s) label =
      if s ∈ sources ∧ label = .epsilon then [target] else [] := by
  rw [get?_bridges hsources]
  by_cases hs : s ∈ sources
  · simp [hs, eq_comm]
  · simp [hs]

/-- Bridges may be added before or after what gives their sources no other silent targets. -/
theorem bridges_swap_iff {t u : Table} {sources : List Nat} (hsources : sources.Nodup)
    (target : Nat) :
    t.join ((bridges sources target).join u) = t.join (u.join (bridges sources target)) ↔
      ∀ s ∈ sources, ∀ q ∈ leads (u.get? s) .epsilon, q = target := by
  rw [join_swap_iff]
  simp only [leads_bridges hsources]
  constructor
  · intro hswap s hs
    have hsilent := hswap s .epsilon
    rw [if_pos ⟨hs, rfl⟩, List.singleton_append] at hsilent
    exact cons_eq_concat_iff.mp hsilent
  · intro h s label
    by_cases hbridge : s ∈ sources ∧ label = .epsilon
    · obtain ⟨hs, rfl⟩ := hbridge
      rw [if_pos ⟨hs, rfl⟩, List.singleton_append]
      exact cons_eq_concat_iff.mpr (h s hs)
    · rw [if_neg hbridge, List.nil_append, List.append_nil]

end Table

namespace Automaton

variable {a b c : Automaton}

/-- Grouping does not matter exactly if a state in which the first part accepts gets no silent
targets from later parts, unless these are the start of the second. -/
theorem chain_assoc_iff :
    (a.chain b).chain c = a.chain (b.chain c) ↔ ∀ s ∈ a.accept,
      (∀ t ∈ c.targets s .epsilon, t = b.start) ∧ (s ∈ b.accept → c.start = b.start) := by
  -- Both sides add, to what the first two parts have, the bridges of the first part and all that
  -- comes later. They do it in different orders, and this is the only difference.
  have htables : (a.chain b).chain c = a.chain (b.chain c) ↔
      Table.join (a.table.join b.table) (Table.join (Table.bridges a.accept.toList b.start)
          (c.table.join (Table.bridges b.accept.toList c.start))) =
        Table.join (a.table.join b.table) (Table.join
          (c.table.join (Table.bridges b.accept.toList c.start))
          (Table.bridges a.accept.toList b.start)) := by
    simp only [chain_eq, mk.injEq, List.append_assoc, OrdSet.union_assoc, Table.join_assoc,
      true_and, and_true]
  have hlater : ∀ s t, t ∈ Table.leads
      ((c.table.join (Table.bridges b.accept.toList c.start)).get? s) .epsilon ↔
        t ∈ c.targets s .epsilon ∨ s ∈ b.accept ∧ t = c.start := by
    intro s t
    rw [Table.get?_join, Table.leads_join, Table.leads_bridges (OrdSet.nodup_toList _),
      List.mem_append, List.mem_ite_nil_right, List.mem_singleton, OrdSet.mem_toList]
    simp only [and_true]
    rfl
  rw [htables, Table.bridges_swap_iff (OrdSet.nodup_toList _)]
  simp only [OrdSet.mem_toList, hlater]
  constructor
  · intro h s hs
    constructor
    · intro t ht
      exact h s hs t (Or.inl ht)
    · intro hother
      exact h s hs c.start (Or.inr ⟨hother, rfl⟩)
  · rintro h s hs t (hthird | ⟨hother, rfl⟩)
    · exact (h s hs).1 t hthird
    · exact (h s hs).2 hother

/-- It does not matter if no such state has a row in the third part or gets another bridge. -/
theorem chain_assoc (hrow : ∀ s ∈ a.accept, c.table.get? s = none)
    (haccept : ∀ s ∈ a.accept, s ∉ b.accept) : (a.chain b).chain c = a.chain (b.chain c) := by
  rw [chain_assoc_iff]
  intro s hs
  constructor
  · intro t ht
    rw [targets, hrow s hs] at ht
    exact absurd ht List.not_mem_nil
  · intro hother
    exact absurd hother (haccept s hs)

/-- Automata in a row may be grouped either way if the first one shares no name with the others,
whatever its accepting states and its rows are. What the others share does not matter. -/
theorem chain_assoc_of_apart (hsecond : ∀ s, a.Mentions s → ¬ b.Mentions s)
    (hthird : ∀ s, a.Mentions s → ¬ c.Mentions s) :
    (a.chain b).chain c = a.chain (b.chain c) := by
  apply chain_assoc
  · intro s hs
    cases hrow : c.table.get? s with
    | none => rfl
    | some row => exact absurd (mentions_row hrow) (hthird s (mentions_accept hs))
  · intro s hs hother
    exact hsecond s (mentions_accept hs) (mentions_accept hother)

/-- Three automata that accept in both of their states, from which silent edges leave already. -/
theorem pendulums_grouped :
    let first := pendulum
    let second := pendulum.shift 2
    let third := pendulum.shift 4
    ((∀ s, first.Mentions s → ¬ second.Mentions s) ∧
        ∀ s, first.Mentions s → ¬ third.Mentions s) ∧
      (first.chain second).chain third = first.chain (second.chain third) ∧
      ((first.chain second).chain third).targets 5 .epsilon = [4, 5, 6] := by
  intro first second third
  have hsecond : ∀ s, first.Mentions s → ¬ second.Mentions s := by decide
  have hthird : ∀ s, first.Mentions s → ¬ third.Mentions s := by decide
  exact ⟨⟨hsecond, hthird⟩, chain_assoc_of_apart hsecond hthird, by decide⟩

/-- A state of the first part that has silent edges in the third gets its bridge before them or
after them. -/
example : (pendulum.chain (pendulum.shift 2)).chain pendulum ≠
    pendulum.chain ((pendulum.shift 2).chain pendulum) := by decide

end Automaton

end Thompson
