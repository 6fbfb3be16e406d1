import Thompson.Proofs.Automaton.Segment

/-!
How many edges a composition has, and how many of them lead to a given state. Both are
measures of the targets in the rows that add up over a list of targets. Joined tables lose
nothing of such a measure, whatever names they share, so a chain has that of its parts and
its bridges. A rerouted row is replaced; where the states in which a part accepts have no
row, a choice and a loop lose nothing either.
-/

namespace Thompson

namespace Table

/-- How many edges there are in all rows. -/
def size (t : Table) : Nat := OrdMap.total Row.size t

/-- What the lists of targets in all rows measure together. -/
def measure (μ : List Nat → Nat) (t : Table) : Nat := OrdMap.total (OrdMap.total μ) t

theorem size_eq_measure (t : Table) : t.size = t.measure List.length := rfl

theorem measure_single (μ : List Nat → Nat) (s : Nat) (label : Label) (targets : List Nat) :
    Table.measure μ (.single s (.single label targets)) = μ targets := rfl

section Measure

variable {μ : List Nat → Nat} (hμ : ∀ xs ys, μ (xs ++ ys) = μ xs + μ ys)
include hμ

theorem measure_join (t u : Table) : (t.join u).measure μ = t.measure μ + u.measure μ :=
  OrdMap.total_merge (OrdMap.total_merge hμ) t u

theorem measure_bridges (sources : List Nat) (target : Nat) :
    (bridges sources target).measure μ = sources.length * μ [target] := by
  induction sources with
  | nil =>
      rw [List.length_nil, Nat.zero_mul]
      rfl
  | cons s rest ih =>
      rw [bridges, measure_join hμ, ih, measure_single, List.length_cons, Nat.succ_mul,
        Nat.add_comm]

/-- Rerouting states that had no row adds the targets for each of them. -/
theorem measure_rerouted {t : Table} {sources : List Nat} (targets : List Nat)
    (hsources : sources.Nodup) (hbare : ∀ s ∈ sources, t.get? s = none) :
    (t.rerouted sources targets).measure μ = t.measure μ + sources.length * μ targets := by
  induction sources generalizing t with
  | nil =>
      rw [List.length_nil, Nat.zero_mul]
      rfl
  | cons s rest ih =>
      obtain ⟨hs, hrest⟩ := List.nodup_cons.mp hsources
      have hnew : t.get? s = none := hbare s List.mem_cons_self
      have hinsert : Table.measure μ (t.insert s (.single .epsilon targets)) =
          t.measure μ + μ targets := by
        rw [OrdMap.insert_eq_merge Row.join _ hnew]
        exact measure_join hμ t (.single s (.single .epsilon targets))
      have hlater : ∀ q ∈ rest, (t.insert s (.single .epsilon targets)).get? q = none := by
        intro q hq
        have hne : s ≠ q := fun heq => hs (heq ▸ hq)
        rw [OrdMap.get?_insert, if_neg hne]
        exact hbare q (List.mem_cons_of_mem _ hq)
      have hall := ih hrest hlater
      rw [hinsert] at hall
      rw [List.length_cons, Nat.succ_mul, Nat.add_comm _ (μ targets), ← Nat.add_assoc]
      exact hall

end Measure

end Table

namespace Automaton

/-- How many edges lead to the state. -/
def arrivals (a : Automaton) (s : Nat) : Nat := a.edges.countP fun e => e.target = s

theorem edgeCount_eq_size (a : Automaton) : a.edgeCount = a.table.size := rfl

theorem arrivals_eq_measure (a : Automaton) (s : Nat) :
    a.arrivals s = a.table.measure (List.count s) := by
  apply OrdMap.countP_flatMap_entries
  intro source row
  apply OrdMap.countP_flatMap_entries
  intro label targets
  rw [List.countP_map, List.count_eq_countP]
  rfl

theorem arrivals_eq_zero_iff {a : Automaton} {s : Nat} :
    a.arrivals s = 0 ↔ ∀ e ∈ a.edges, e.target ≠ s := by
  simp [arrivals, List.countP_eq_zero]

theorem edgeCount_single (symbol : Symbol) (names : Names) :
    (single symbol names).1.edgeCount = 1 := rfl

section Measure

variable {μ : List Nat → Nat} (hμ : ∀ xs ys, μ (xs ++ ys) = μ xs + μ ys)
include hμ

/-- Nothing is asked of the parts here. -/
theorem measure_chain (a b : Automaton) :
    (a.chain b).table.measure μ =
      a.table.measure μ + b.table.measure μ + a.accept.toList.length * μ [b.start] := by
  rw [chain_eq, Table.measure_join hμ, Table.measure_join hμ, Table.measure_bridges hμ]

variable {a b : Automaton} {first size more exit finish : Nat} {names : Names}

/-- The fork has two edges, and each part gets one way out. -/
theorem measure_choice (ha : a.Segment first size exit)
    (hb : b.Segment (first + size) more finish) (hnames : names.next = first + size + more) :
    (a.choice b names).1.table.measure μ =
      a.table.measure μ + b.table.measure μ + μ [a.start, b.start] +
        2 * μ [names.next + 1] := by
  have hexit := ha.mem_states_iff.mp ha.exit_mem
  have hfinish := hb.mem_states_iff.mp hb.exit_mem
  have hexits : a.accept.toList ++ b.accept.toList = [exit, finish] := by
    rw [ha.accept_eq, hb.accept_eq]
    rfl
  have hdistinct : [exit, finish].Nodup := by
    simp only [List.nodup_cons, List.mem_singleton, List.not_mem_nil, not_false_eq_true,
      List.nodup_nil, and_true]
    omega
  have hbare : ∀ s ∈ [exit, finish], (Table.join (Table.join
      (.single names.next (.single .epsilon [a.start, b.start])) a.table) b.table).get? s =
        none := by
    intro s hs
    have hold : names.next ≠ s ∧ a.table.get? s = none ∧ b.table.get? s = none := by
      rcases List.mem_cons.mp hs with rfl | hs
      · exact ⟨by omega, ha.exit_row, hb.row_eq_none _ (ha.states_apart hb ha.exit_mem)⟩
      · obtain rfl := List.mem_singleton.mp hs
        exact ⟨by omega, ha.row_eq_none _ fun hmem => ha.states_apart hb hmem hb.exit_mem,
          hb.exit_row⟩
    rw [Table.get?_join, Table.get?_join, OrdMap.get?_single, if_neg hold.1, hold.2.1, hold.2.2]
    rfl
  rw [choice_eq, hexits, Table.measure_rerouted hμ _ hdistinct hbare, Table.measure_join hμ,
    Table.measure_join hμ, Table.measure_single]
  simp only [List.length_cons, List.length_nil]
  omega

/-- Two edges at the fork, and two at the end of the body. -/
theorem measure_loop (ha : a.Segment first size exit) (hnames : names.next = first + size) :
    (a.loop names).1.table.measure μ =
      a.table.measure μ + 2 * μ [a.start, names.next + 1] := by
  have hexit := ha.mem_states_iff.mp ha.exit_mem
  have hexits : a.accept.toList = [exit] := by
    rw [ha.accept_eq]
    rfl
  have hbare : ∀ s ∈ [exit], (Table.join
      (.single names.next (.single .epsilon [a.start, names.next + 1])) a.table).get? s =
        none := by
    intro s hs
    obtain rfl := List.mem_singleton.mp hs
    rw [Table.get?_join, OrdMap.get?_single, if_neg (by omega), ha.exit_row]
    rfl
  rw [loop_eq, hexits, Table.measure_rerouted hμ _ (List.pairwise_singleton _ _) hbare,
    Table.measure_join hμ, Table.measure_single]
  simp only [List.length_cons, List.length_nil]
  omega

end Measure

section Segments

variable {a b : Automaton} {first size more exit finish : Nat} {names : Names}

theorem edgeCount_chain_of_segment (ha : a.Segment first size exit) :
    (a.chain b).edgeCount = a.edgeCount + b.edgeCount + 1 := by
  have hmeasure := measure_chain (fun _ _ => List.length_append) a b
  rw [ha.accept_eq] at hmeasure
  simp only [edgeCount_eq_size, Table.size_eq_measure]
  exact hmeasure

theorem edgeCount_choice (ha : a.Segment first size exit)
    (hb : b.Segment (first + size) more finish) (hnames : names.next = first + size + more) :
    (a.choice b names).1.edgeCount = a.edgeCount + b.edgeCount + 4 := by
  simp only [edgeCount_eq_size, Table.size_eq_measure]
  exact measure_choice (fun _ _ => List.length_append) ha hb hnames

theorem edgeCount_loop (ha : a.Segment first size exit) (hnames : names.next = first + size) :
    (a.loop names).1.edgeCount = a.edgeCount + 4 := by
  simp only [edgeCount_eq_size, Table.size_eq_measure]
  exact measure_loop (fun _ _ => List.length_append) ha hnames

/-- No edge leads out of a segment. -/
theorem Segment.arrivals_eq_zero (h : a.Segment first size exit) {s : Nat} (hs : s ∉ a.states) :
    a.arrivals s = 0 := by
  rw [arrivals_eq_zero_iff]
  intro e he heq
  exact hs (heq ▸ h.target_mem e he)

theorem Segment.arrivals_eq_zero_of_le (h : a.Segment first size exit) {s : Nat}
    (hs : first + size ≤ s) : a.arrivals s = 0 :=
  h.arrivals_eq_zero (h.not_mem_of_le hs)

theorem arrivals_chain (ha : a.Segment first size exit) (s : Nat) :
    (a.chain b).arrivals s = a.arrivals s + b.arrivals s + [b.start].count s := by
  simp only [arrivals_eq_measure]
  rw [measure_chain (fun _ _ => List.count_append), ha.accept_eq, OrdSet.toList_singleton,
    List.length_singleton, Nat.one_mul]

theorem arrivals_choice (ha : a.Segment first size exit)
    (hb : b.Segment (first + size) more finish) (hnames : names.next = first + size + more)
    (s : Nat) :
    (a.choice b names).1.arrivals s =
      a.arrivals s + b.arrivals s + [a.start, b.start].count s +
        2 * [names.next + 1].count s := by
  simp only [arrivals_eq_measure]
  exact measure_choice (fun _ _ => List.count_append) ha hb hnames

theorem arrivals_loop (ha : a.Segment first size exit) (hnames : names.next = first + size)
    (s : Nat) :
    (a.loop names).1.arrivals s = a.arrivals s + 2 * [a.start, names.next + 1].count s := by
  simp only [arrivals_eq_measure]
  exact measure_loop (fun _ _ => List.count_append) ha hnames

end Segments

end Automaton

end Thompson
