import Thompson.Automaton.Compose
import Thompson.Proofs.Ordered

/-!
What the composition of automata does to the table of edges, row by row, and so
to the set of edges. No statement here asks that the parts keep their names
apart: rows of one name are joined, and a rerouted row is replaced.
-/

namespace Thompson

instance : Std.Associative Row.join := OrdMap.associative_merge _

instance : Std.Associative Table.join := OrdMap.associative_merge _

namespace Table

@[simp]
theorem join_empty (t : Table) : t.join ∅ = t := OrdMap.merge_empty _ t

@[simp]
theorem empty_join (t : Table) : Table.join ∅ t = t := OrdMap.empty_merge _ t

theorem join_assoc (t u v : Table) : (t.join u).join v = t.join (u.join v) :=
  Std.Associative.assoc t u v

@[simp]
theorem get?_join (t u : Table) (s : Nat) :
    (t.join u).get? s = Option.merge Row.join (t.get? s) (u.get? s) :=
  OrdMap.get?_merge _ t u s

/-- Where a row leads under a label. A row that is not there leads nowhere. -/
def leads (row : Option Row) (label : Label) : List Nat := (row.bind (·.get? label)).getD []

@[simp]
theorem leads_none (label : Label) : leads none label = [] := rfl

@[simp]
theorem leads_single (l label : Label) (targets : List Nat) :
    leads (some (.single l targets)) label = if l = label then targets else [] := by
  rw [leads, Option.bind_some, OrdMap.get?_single]
  split <;> rfl

/-- A joined row leads where its parts lead, the first part first. -/
@[simp]
theorem leads_join (x y : Option Row) (label : Label) :
    leads (Option.merge Row.join x y) label = leads x label ++ leads y label := by
  cases x with
  | none => simp
  | some a =>
      cases y with
      | none => simp
      | some b =>
          have hget : (a.join b).get? label =
              Option.merge (fun first second => first ++ second) (a.get? label) (b.get? label) :=
            OrdMap.get?_merge _ a b label
          simp only [leads, Option.merge_some_some, Option.bind_some, hget]
          cases a.get? label <;> cases b.get? label <;> simp

theorem mem_leads_ite {p : Prop} [Decidable p] {targets : List Nat} {row : Option Row}
    {label : Label} {t : Nat} :
    t ∈ leads (if p then some (.single .epsilon targets) else row) label ↔
      p ∧ label = .epsilon ∧ t ∈ targets ∨ ¬ p ∧ t ∈ leads row label := by
  by_cases hp : p
  · by_cases hlabel : Label.epsilon = label
    · simp [hp, ← hlabel]
    · simp [hp, hlabel, Ne.symm hlabel]
  · simp [hp]

/-- Silent edges from each of the sources to one target. -/
def bridges : List Nat → Nat → Table
  | [], _ => ∅
  | s :: sources, target =>
      Table.join (.single s (.single .epsilon [target])) (bridges sources target)

theorem get?_bridges {sources : List Nat} (hsources : sources.Nodup) (target s : Nat) :
    (bridges sources target).get? s =
      if s ∈ sources then some (.single .epsilon [target]) else none := by
  induction sources with
  | nil => rfl
  | cons q rest ih =>
      obtain ⟨hq, hrest⟩ := List.nodup_cons.mp hsources
      rw [bridges, get?_join, ih hrest, OrdMap.get?_single]
      by_cases hqs : q = s
      · subst hqs
        simp [hq]
      · simp [hqs, Ne.symm hqs]

/-- The table with the rows of the sources replaced. -/
def rerouted (t : Table) (sources targets : List Nat) : Table :=
  sources.foldl (fun t s => t.insert s (.single .epsilon targets)) t

theorem get?_rerouted (t : Table) (sources targets : List Nat) (s : Nat) :
    (t.rerouted sources targets).get? s =
      if s ∈ sources then some (.single .epsilon targets) else t.get? s := by
  induction sources generalizing t with
  | nil => rfl
  | cons q rest ih =>
      change (Table.rerouted (t.insert q (.single .epsilon targets)) rest targets).get? s = _
      rw [ih, OrdMap.get?_insert]
      by_cases hs : s ∈ rest
      · simp [hs]
      · by_cases hq : q = s
        · simp [hs, hq]
        · simp [hs, hq, Ne.symm hq]

end Table

namespace Automaton

theorem mem_edges_iff_leads {a : Automaton} {e : Edge} :
    e ∈ a.edges ↔ e.target ∈ Table.leads (a.table.get? e.source) e.label :=
  mem_edges_iff

/-- A state with an edge has a row. -/
theorem get?_table_of_edge {a : Automaton} {e : Edge} (he : e ∈ a.edges) :
    ∃ row, a.table.get? e.source = some row := by
  have htarget := mem_edges_iff_leads.mp he
  cases hrow : a.table.get? e.source with
  | none =>
      rw [hrow] at htarget
      exact absurd htarget List.not_mem_nil
  | some row => exact ⟨row, rfl⟩

/-- The state occurs somewhere in the automaton, be it as the key of an empty row. -/
def Mentions (a : Automaton) (s : Nat) : Prop :=
  s ∈ a.states ∨ s = a.start ∨ s ∈ a.accept ∨ (∃ row, a.table.get? s = some row) ∨
    ∃ e ∈ a.edges, e.target = s

theorem mentions_start (a : Automaton) : a.Mentions a.start := Or.inr (Or.inl rfl)

theorem mentions_accept {a : Automaton} {s : Nat} (hs : s ∈ a.accept) : a.Mentions s :=
  Or.inr (Or.inr (Or.inl hs))

theorem mentions_row {a : Automaton} {s : Nat} {row : Row} (hrow : a.table.get? s = some row) :
    a.Mentions s :=
  Or.inr (Or.inr (Or.inr (Or.inl ⟨row, hrow⟩)))

theorem mentions_source {a : Automaton} {e : Edge} (he : e ∈ a.edges) : a.Mentions e.source :=
  Or.inr (Or.inr (Or.inr (Or.inl (get?_table_of_edge he))))

theorem mentions_target {a : Automaton} {e : Edge} (he : e ∈ a.edges) : a.Mentions e.target :=
  Or.inr (Or.inr (Or.inr (Or.inr ⟨e, he, rfl⟩)))

/-- All that the automaton mentions. What has several places is there several times. -/
def mentioned (a : Automaton) : List Nat :=
  a.states ++ a.start :: (a.accept.toList ++ a.table.keys ++ a.edges.map Edge.target)

theorem mem_mentioned_iff {a : Automaton} {s : Nat} : s ∈ a.mentioned ↔ a.Mentions s := by
  simp only [mentioned, Mentions, List.mem_append, List.mem_cons, List.mem_map,
    OrdSet.mem_toList, OrdMap.mem_keys_iff, or_assoc]

instance (a : Automaton) (s : Nat) : Decidable (a.Mentions s) :=
  decidable_of_iff (s ∈ a.mentioned) mem_mentioned_iff

/-- What holds of all that is mentioned can be checked, so two automata can be seen to keep
their names apart. -/
instance (a : Automaton) (p : Nat → Prop) [DecidablePred p] :
    Decidable (∀ s, a.Mentions s → p s) :=
  decidable_of_iff (∀ s ∈ a.mentioned, p s) (by simp only [mem_mentioned_iff])

theorem bridge_eq (sources : List Nat) (target : Nat) (a : Automaton) :
    a.bridge sources target =
      { a with table := a.table.join (Table.bridges sources target) } := by
  induction sources generalizing a with
  | nil => rw [Table.bridges, Table.join_empty]; rfl
  | cons s rest ih =>
      have hsymbols : a.alphabet ∪ Label.epsilon.symbols = a.alphabet :=
        OrdMap.merge_empty _ a.alphabet
      change (a.addEdge ⟨s, .epsilon, target⟩).bridge rest target = _
      rw [ih, Table.bridges, ← Table.join_assoc]
      simp only [addEdge, hsymbols]

theorem rerouteAll_eq (sources targets : List Nat) (a : Automaton) :
    a.rerouteAll sources targets = { a with table := a.table.rerouted sources targets } := by
  induction sources generalizing a with
  | nil => rfl
  | cons s rest ih => exact ih (a.reroute s targets)

section Compose

variable (first second body : Automaton) (names : Names)

theorem single_eq (symbol : Symbol) :
    (single symbol names).1 =
      { states := [names.next, names.next + 1]
        alphabet := {symbol}
        table := .single names.next (.single (.symbol symbol) [names.next + 1])
        start := names.next
        accept := {names.next + 1} } := rfl

/-- A concatenation keeps all rows of its parts and adds the bridges. -/
theorem chain_eq :
    first.chain second =
      { states := first.states ++ second.states
        alphabet := first.alphabet ∪ second.alphabet
        table := (first.table.join second.table).join
          (Table.bridges first.accept.toList second.start)
        start := first.start
        accept := second.accept } := by
  rw [chain, bridge_eq]
  rfl

theorem fork_eq (start x y : Nat) :
    ((ofStart start).addEdge ⟨start, .epsilon, x⟩).addEdge ⟨start, .epsilon, y⟩ =
      { ofStart start with table := .single start (.single .epsilon [x, y]) } := by
  have hrow : Row.join (.single .epsilon [x]) (.single .epsilon [y]) =
      .single .epsilon [x, y] := by
    apply OrdMap.ext
    intro label
    by_cases hlabel : Label.epsilon = label <;> simp [Row.join, hlabel]
  have htable : Table.join (.single start (.single .epsilon [x]))
      (.single start (.single .epsilon [y])) = .single start (.single .epsilon [x, y]) := by
    apply OrdMap.ext
    intro s
    by_cases hs : start = s <;> simp [hs, hrow]
  have hsymbols : (∅ : OrdSet Symbol) ∪ Label.epsilon.symbols = ∅ := rfl
  simp only [ofStart, addEdge, hsymbols, Table.empty_join, htable]

/-- A choice keeps the rows of its parts except for those of accepting states,
which lead to the new end alone. -/
theorem choice_eq :
    (first.choice second names).1 =
      { states := names.next :: (first.states ++ second.states ++ [names.next + 1])
        alphabet := first.alphabet ∪ second.alphabet
        table := Table.rerouted
          (Table.join (Table.join
            (.single names.next (.single .epsilon [first.start, second.start]))
            first.table) second.table)
          (first.accept.toList ++ second.accept.toList) [names.next + 1]
        start := names.next
        accept := {names.next + 1} } := by
  have hsymbols : (∅ : OrdSet Symbol) ∪ first.alphabet = first.alphabet :=
    OrdMap.empty_merge _ first.alphabet
  have haccept : (insert (names.next + 1) ∅ : OrdSet Nat) = {names.next + 1} := rfl
  simp only [choice, Names.fresh, fork_eq, rerouteAll_eq]
  simp only [ofStart, overlay, addAccept, hsymbols, haccept, List.cons_append, List.nil_append]

theorem loop_eq :
    (body.loop names).1 =
      { states := names.next :: (body.states ++ [names.next + 1])
        alphabet := body.alphabet
        table := Table.rerouted
          (Table.join
            (.single names.next (.single .epsilon [body.start, names.next + 1])) body.table)
          body.accept.toList [body.start, names.next + 1]
        start := names.next
        accept := {names.next + 1} } := by
  have hsymbols : (∅ : OrdSet Symbol) ∪ body.alphabet = body.alphabet :=
    OrdMap.empty_merge _ body.alphabet
  have haccept : (insert (names.next + 1) ∅ : OrdSet Nat) = {names.next + 1} := rfl
  simp only [loop, Names.fresh, fork_eq, rerouteAll_eq]
  simp only [ofStart, overlay, addAccept, hsymbols, haccept, List.cons_append, List.nil_append]

theorem get?_single_start (symbol : Symbol) :
    (single symbol names).1.table.get? names.next =
      some (.single (.symbol symbol) [names.next + 1]) := by
  rw [single_eq, OrdMap.get?_single, if_pos rfl]

theorem get?_table_chain (s : Nat) :
    (first.chain second).table.get? s =
      Option.merge Row.join (Option.merge Row.join (first.table.get? s) (second.table.get? s))
        (if s ∈ first.accept then some (.single .epsilon [second.start]) else none) := by
  rw [chain_eq]
  simp only [Table.get?_join, Table.get?_bridges (OrdSet.nodup_toList _), OrdSet.mem_toList]

theorem get?_table_choice (s : Nat) :
    (first.choice second names).1.table.get? s =
      if s ∈ first.accept ∨ s ∈ second.accept then some (.single .epsilon [names.next + 1])
      else Option.merge Row.join
        (Option.merge Row.join
          (if names.next = s then some (.single .epsilon [first.start, second.start]) else none)
          (first.table.get? s))
        (second.table.get? s) := by
  rw [choice_eq]
  simp only [Table.get?_rerouted, Table.get?_join, OrdMap.get?_single, List.mem_append,
    OrdSet.mem_toList]

theorem get?_table_loop (s : Nat) :
    (body.loop names).1.table.get? s =
      if s ∈ body.accept then some (.single .epsilon [body.start, names.next + 1])
      else Option.merge Row.join
        (if names.next = s then some (.single .epsilon [body.start, names.next + 1]) else none)
        (body.table.get? s) := by
  rw [loop_eq]
  simp only [Table.get?_rerouted, Table.get?_join, OrdMap.get?_single, OrdSet.mem_toList]

end Compose

section Steps

variable {a b : Automaton} {e : Edge}

theorem mem_edges_overlay : e ∈ (a.overlay b).edges ↔ e ∈ a.edges ∨ e ∈ b.edges := by
  simp only [mem_edges_iff_leads, overlay, Table.get?_join, Table.leads_join, List.mem_append]

theorem mem_edges_addEdge {new : Edge} : e ∈ (a.addEdge new).edges ↔ e ∈ a.edges ∨ e = new := by
  obtain ⟨source, label, target⟩ := e
  obtain ⟨s, l, t⟩ := new
  simp only [mem_edges_iff_leads, addEdge, Table.get?_join, Table.leads_join, List.mem_append,
    OrdMap.get?_single, Edge.mk.injEq]
  apply or_congr_right
  by_cases hs : s = source
  · by_cases hl : l = label
    · simp [hs, hl]
    · simp [hs, hl, Ne.symm hl]
  · simp [hs, Ne.symm hs]

/-- A rerouted state has its new edges and no others. -/
theorem mem_edges_reroute {s : Nat} {targets : List Nat} :
    e ∈ (a.reroute s targets).edges ↔
      s = e.source ∧ e.label = .epsilon ∧ e.target ∈ targets ∨ s ≠ e.source ∧ e ∈ a.edges := by
  simp only [mem_edges_iff_leads, reroute, OrdMap.get?_insert, Table.mem_leads_ite]

end Steps

section Edges

variable {first second body : Automaton} {names : Names} {e : Edge}

theorem mem_edges_single {symbol : Symbol} :
    e ∈ (single symbol names).1.edges ↔ e = ⟨names.next, .symbol symbol, names.next + 1⟩ := by
  obtain ⟨source, label, target⟩ := e
  rw [mem_edges_iff_leads, single_eq, OrdMap.get?_single]
  by_cases hs : names.next = source
  · by_cases hl : Label.symbol symbol = label
    · simp [hs, ← hl]
    · simp [hs, hl, Ne.symm hl]
  · simp [hs, Ne.symm hs]

theorem mem_edges_chain :
    e ∈ (first.chain second).edges ↔
      e ∈ first.edges ∨ e ∈ second.edges ∨
        e.source ∈ first.accept ∧ e.label = .epsilon ∧ e.target = second.start := by
  simp only [mem_edges_iff_leads, get?_table_chain, Table.leads_join, List.mem_append,
    Table.mem_leads_ite, Table.leads_none, List.mem_singleton, List.not_mem_nil, and_false,
    or_false, or_assoc]

/-- The edges of a choice: those of its parts and the fork at the new start, unless
they leave a state in which a part accepts, and the way out of such states. -/
theorem mem_edges_choice :
    e ∈ (first.choice second names).1.edges ↔
      (e.source ∈ first.accept ∨ e.source ∈ second.accept) ∧
          e.label = .epsilon ∧ e.target = names.next + 1 ∨
        ¬ (e.source ∈ first.accept ∨ e.source ∈ second.accept) ∧
          (names.next = e.source ∧ e.label = .epsilon ∧
              (e.target = first.start ∨ e.target = second.start) ∨
            e ∈ first.edges ∨ e ∈ second.edges) := by
  simp only [mem_edges_iff_leads, get?_table_choice, Table.leads_join, List.mem_append,
    Table.mem_leads_ite, Table.leads_none, List.mem_cons, List.not_mem_nil, and_false, or_false,
    or_assoc]

theorem mem_edges_loop :
    e ∈ (body.loop names).1.edges ↔
      e.source ∈ body.accept ∧ e.label = .epsilon ∧
          (e.target = body.start ∨ e.target = names.next + 1) ∨
        e.source ∉ body.accept ∧
          (names.next = e.source ∧ e.label = .epsilon ∧
              (e.target = body.start ∨ e.target = names.next + 1) ∨
            e ∈ body.edges) := by
  simp only [mem_edges_iff_leads, get?_table_loop, Table.leads_join, List.mem_append,
    Table.mem_leads_ite, Table.leads_none, List.mem_cons, List.not_mem_nil, and_false,
    or_false]

end Edges

end Automaton

end Thompson
