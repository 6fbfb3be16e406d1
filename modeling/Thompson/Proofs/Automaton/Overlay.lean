import Thompson.Proofs.Automaton.Count

/-!
What an automaton is made of, and what an overlay does to it. Two tables are equal when they have
the same rows, the same labels in each of them, and the same targets under each label; a row
without labels and a label without targets are something, too. An overlay puts everything of the
second automaton behind everything of the first, and this says which automaton it is, whatever
names the two have in common.
-/

namespace Thompson

namespace Table

/-- The labels of a row. A row that is not there has none. -/
def labels (row : Option Row) : List Label := (row.map OrdMap.keys).getD []

theorem mem_keys_join {t u : Table} {s : Nat} :
    s ∈ (t.join u).keys ↔ s ∈ t.keys ∨ s ∈ u.keys :=
  OrdMap.mem_keys_merge

theorem mem_labels_join {x y : Option Row} {label : Label} :
    label ∈ labels (Option.merge Row.join x y) ↔ label ∈ labels x ∨ label ∈ labels y := by
  cases x with
  | none => simp [labels]
  | some a =>
      cases y with
      | none => simp [labels]
      | some b => exact OrdMap.mem_keys_merge

theorem eq_iff_leads {t u : Table} :
    t = u ↔ (∀ s, s ∈ t.keys ↔ s ∈ u.keys) ∧
      (∀ s label, label ∈ labels (t.get? s) ↔ label ∈ labels (u.get? s)) ∧
        ∀ s label, leads (t.get? s) label = leads (u.get? s) label := by
  constructor
  · rintro rfl
    exact ⟨fun _ => Iff.rfl, fun _ _ => Iff.rfl, fun _ _ => rfl⟩
  · rintro ⟨hkeys, hlabels, hleads⟩
    apply OrdMap.eq_of_keys hkeys
    intro s row row' hrow hrow'
    have hlabels := hlabels s
    have hleads := hleads s
    rw [hrow, hrow'] at hlabels hleads
    apply OrdMap.eq_of_keys hlabels
    intro label targets targets' htargets htargets'
    have hlabel := hleads label
    simp only [leads, Option.bind_some, htargets, htargets', Option.getD_some] at hlabel
    exact hlabel

end Table

namespace Automaton

/-- The labels under which the state has a list of targets, be it an empty one. -/
def labels (a : Automaton) (s : Nat) : List Label := Table.labels (a.table.get? s)

/-- All that is in the first and then all that is in the second, and nothing else. It starts
and accepts where the first does. -/
structure Unites (a b whole : Automaton) : Prop where
  states : whole.states = a.states ++ b.states
  alphabet : ∀ x, x ∈ whole.alphabet ↔ x ∈ a.alphabet ∨ x ∈ b.alphabet
  rows : ∀ s, s ∈ whole.table.keys ↔ s ∈ a.table.keys ∨ s ∈ b.table.keys
  labels : ∀ s label, label ∈ whole.labels s ↔ label ∈ a.labels s ∨ label ∈ b.labels s
  targets : ∀ s label, whole.targets s label = a.targets s label ++ b.targets s label
  start : whole.start = a.start
  accept : whole.accept = a.accept

variable {a b c whole : Automaton}

theorem unites_overlay (a b : Automaton) : Unites a b (a.overlay b) where
  states := rfl
  alphabet x := OrdSet.mem_union
  rows s := Table.mem_keys_join
  labels s label := by
    rw [labels, overlay, Table.get?_join]
    exact Table.mem_labels_join
  targets s label := by
    change Table.leads ((a.table.join b.table).get? s) label = _
    rw [Table.get?_join, Table.leads_join]
    rfl
  start := rfl
  accept := rfl

/-- Nothing else unites the two. -/
theorem Unites.eq_overlay (h : Unites a b whole) : whole = a.overlay b := by
  have hall := unites_overlay a b
  have halphabet : whole.alphabet = a.alphabet ∪ b.alphabet := by
    apply OrdSet.ext
    intro x
    rw [h.alphabet, OrdSet.mem_union]
  have htable : whole.table = a.table.join b.table := by
    apply Table.eq_iff_leads.mpr
    refine ⟨?_, ?_, ?_⟩
    · intro s
      exact (h.rows s).trans (hall.rows s).symm
    · intro s label
      exact (h.labels s label).trans (hall.labels s label).symm
    · intro s label
      exact (h.targets s label).trans (hall.targets s label).symm
  obtain ⟨states, alphabet, table, start, accept⟩ := whole
  obtain rfl := h.states
  obtain rfl := h.start
  obtain rfl := h.accept
  obtain rfl := halphabet
  obtain rfl := htable
  rfl

theorem edgeCount_overlay (a b : Automaton) :
    (a.overlay b).edgeCount = a.edgeCount + b.edgeCount := by
  simp only [edgeCount_eq_size, Table.size_eq_measure]
  exact Table.measure_join (fun _ _ => List.length_append) a.table b.table

theorem overlay_assoc (a b c : Automaton) :
    (a.overlay b).overlay c = a.overlay (b.overlay c) := by
  simp only [overlay, List.append_assoc, OrdSet.union_assoc, Table.join_assoc]

/-- An overlay is the automaton that unites its parts. No edge is lost, whatever rows the parts
share, and it does not matter how three parts are grouped. -/
theorem overlay_lossless (a b c : Automaton) :
    (∀ whole, whole = a.overlay b ↔ Unites a b whole) ∧
      (a.overlay b).edgeCount = a.edgeCount + b.edgeCount ∧
      (a.overlay b).edges.length = a.edges.length + b.edges.length ∧
      (a.overlay b).overlay c = a.overlay (b.overlay c) := by
  refine ⟨?_, edgeCount_overlay a b, ?_, overlay_assoc a b c⟩
  · intro whole
    constructor
    · rintro rfl
      exact unites_overlay a b
    · exact Unites.eq_overlay
  · rw [← edgeCount_eq_length_edges, ← edgeCount_eq_length_edges, ← edgeCount_eq_length_edges]
    exact edgeCount_overlay a b

/-- A label that leads nowhere is kept as well. -/
example : ((ofStart 0).overlay ((ofStart 0).reroute 0 [])).labels 0 = [.epsilon] := by decide

end Automaton

end Thompson
