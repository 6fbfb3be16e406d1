import Thompson.Automaton.Workbench
import Thompson.Proofs.Regex.Naming

/-!
Where the states of an automaton come from. An elementary step mentions no state but those of
its operands and those that it is given, and a composition adds the two names that it takes. So
whatever is made on a workbench mentions what was given to it and the names that the whole run
has taken. If these are all within the limit, so is every state.
-/

namespace Thompson

/-- A row of two tables laid over each other is one of either. -/
theorem Table.exists_row_of_join {t u : Table} {s : Nat} {row : Row}
    (h : (t.join u).get? s = some row) :
    (∃ row, t.get? s = some row) ∨ ∃ row, u.get? s = some row := by
  rw [Table.get?_join] at h
  cases hleft : t.get? s with
  | some row => exact Or.inl ⟨row, rfl⟩
  | none =>
      rw [hleft, Option.merge_none_left] at h
      exact Or.inr ⟨row, h⟩

namespace Automaton

section Steps

variable {a b : Automaton} {s t : Nat}

theorem mentions_ofStart (h : (ofStart t).Mentions s) : s = t := by
  rcases h with hs | hs | hs | ⟨row, hrow⟩ | ⟨e, he, -⟩
  · exact List.mem_singleton.mp hs
  · exact hs
  · exact absurd hs (OrdSet.not_mem_empty s)
  · cases hrow
  · exact absurd he List.not_mem_nil

theorem mentions_addEdge {e : Edge} (h : (a.addEdge e).Mentions s) :
    a.Mentions s ∨ s = e.source ∨ s = e.target := by
  rcases h with hs | hs | hs | ⟨row, hrow⟩ | ⟨f, hf, rfl⟩
  · exact Or.inl (Or.inl hs)
  · exact Or.inl (hs ▸ mentions_start a)
  · exact Or.inl (mentions_accept hs)
  · rcases Table.exists_row_of_join hrow with ⟨old, hold⟩ | ⟨new, hnew⟩
    · exact Or.inl (mentions_row hold)
    · rw [OrdMap.get?_single] at hnew
      split at hnew
      · next hsource => exact Or.inr (Or.inl hsource.symm)
      · cases hnew
  · rcases mem_edges_addEdge.mp hf with hold | rfl
    · exact Or.inl (mentions_target hold)
    · exact Or.inr (Or.inr rfl)

theorem mentions_addAccept (h : (a.addAccept t).Mentions s) : a.Mentions s ∨ s = t := by
  rcases h with hs | hs | hs | ⟨row, hrow⟩ | ⟨e, he, rfl⟩
  · exact (List.mem_append.mp hs).imp .inl List.mem_singleton.mp
  · exact Or.inl (hs ▸ mentions_start a)
  · exact (OrdSet.mem_insert.mp hs).symm.imp mentions_accept id
  · exact Or.inl (mentions_row hrow)
  · exact Or.inl (mentions_target he)

theorem mentions_reroute {targets : List Nat} (h : (a.reroute t targets).Mentions s) :
    a.Mentions s ∨ s = t ∨ s ∈ targets := by
  rcases h with hs | hs | hs | ⟨row, hrow⟩ | ⟨e, he, rfl⟩
  · exact Or.inl (Or.inl hs)
  · exact Or.inl (hs ▸ mentions_start a)
  · exact Or.inl (mentions_accept hs)
  · rw [reroute, OrdMap.get?_insert] at hrow
    split at hrow
    · next hsource => exact Or.inr (Or.inl hsource.symm)
    · exact Or.inl (mentions_row hrow)
  · rcases mem_edges_reroute.mp he with ⟨-, -, hnew⟩ | ⟨-, hold⟩
    · exact Or.inr (Or.inr hnew)
    · exact Or.inl (mentions_target hold)

theorem mentions_overlay (h : (a.overlay b).Mentions s) : a.Mentions s ∨ b.Mentions s := by
  rcases h with hs | hs | hs | ⟨row, hrow⟩ | ⟨e, he, rfl⟩
  · exact (List.mem_append.mp hs).imp .inl .inl
  · exact Or.inl (hs ▸ mentions_start a)
  · exact Or.inl (mentions_accept hs)
  · exact (Table.exists_row_of_join hrow).imp
      (fun ⟨_, hleft⟩ => mentions_row hleft) (fun ⟨_, hright⟩ => mentions_row hright)
  · exact (mem_edges_overlay.mp he).imp mentions_target mentions_target

theorem mentions_bridge {sources : List Nat} (h : (a.bridge sources t).Mentions s) :
    a.Mentions s ∨ s ∈ sources ∨ s = t := by
  induction sources generalizing a with
  | nil => exact Or.inl h
  | cons source rest ih =>
      rw [List.mem_cons]
      rcases ih h with hs | hs
      · rcases mentions_addEdge hs with hold | hsource | htarget
        · exact Or.inl hold
        · exact Or.inr (Or.inl (Or.inl hsource))
        · exact Or.inr (Or.inr htarget)
      · exact Or.inr (hs.imp_left .inr)

theorem mentions_rerouteAll {sources targets : List Nat}
    (h : (a.rerouteAll sources targets).Mentions s) :
    a.Mentions s ∨ s ∈ sources ∨ s ∈ targets := by
  induction sources generalizing a with
  | nil => exact Or.inl h
  | cons source rest ih =>
      rw [List.mem_cons]
      rcases ih h with hs | hs
      · exact (mentions_reroute hs).imp_right fun hnew => hnew.imp_left .inl
      · exact Or.inr (hs.imp_left .inr)

end Steps

section Compose

variable {first second body : Automaton} {names : Names} {s : Nat}

theorem mentions_single {symbol : Symbol} (h : (single symbol names).1.Mentions s) :
    s = names.next ∨ s = names.next + 1 := by
  rcases mentions_addAccept h with hedge | hfinish
  · rcases mentions_addEdge hedge with hstart | hends
    · exact Or.inl (mentions_ofStart hstart)
    · exact hends
  · exact Or.inr hfinish

theorem mentions_chain (h : (first.chain second).Mentions s) :
    first.Mentions s ∨ second.Mentions s := by
  have hwired : ((first.overlay second).bridge first.accept.toList second.start).Mentions s →
      first.Mentions s ∨ second.Mentions s := by
    intro hs
    rcases mentions_bridge hs with hparts | hexit | hstart
    · exact mentions_overlay hparts
    · exact Or.inl (mentions_accept (OrdSet.mem_toList.mp hexit))
    · exact Or.inr (hstart ▸ mentions_start second)
  -- The chain differs from its wired parts in the accepting states only.
  rcases h with hs | hs | hs | hs | hs
  · exact hwired (Or.inl hs)
  · exact hwired (Or.inr (Or.inl hs))
  · exact Or.inr (mentions_accept hs)
  · exact hwired (Or.inr (Or.inr (Or.inr (Or.inl hs))))
  · exact hwired (Or.inr (Or.inr (Or.inr (Or.inr hs))))

/-- The new start of a choice or a loop, with the two ways that begin there. -/
private theorem mentions_fork {start left right : Nat}
    (h : (((ofStart start).addEdge ⟨start, .epsilon, left⟩).addEdge
      ⟨start, .epsilon, right⟩).Mentions s) : s = start ∨ s = left ∨ s = right := by
  rcases mentions_addEdge h with hs | hstart | hright
  · rcases mentions_addEdge hs with hnew | hstart | hleft
    · exact Or.inl (mentions_ofStart hnew)
    · exact Or.inl hstart
    · exact Or.inr (Or.inl hleft)
  · exact Or.inl hstart
  · exact Or.inr (Or.inr hright)

theorem mentions_choice (h : (first.choice second names).1.Mentions s) :
    first.Mentions s ∨ second.Mentions s ∨ s = names.next ∨ s = names.next + 1 := by
  rcases mentions_addAccept h with hs | hfinish
  · rcases mentions_rerouteAll hs with hs | hexit | htarget
    · rcases mentions_overlay hs with hs | hsecond
      · rcases mentions_overlay hs with hfork | hfirst
        · rcases mentions_fork hfork with hstart | hleft | hright
          · exact Or.inr (Or.inr (Or.inl hstart))
          · exact Or.inl (hleft ▸ mentions_start first)
          · exact Or.inr (Or.inl (hright ▸ mentions_start second))
        · exact Or.inl hfirst
      · exact Or.inr (Or.inl hsecond)
    · rcases List.mem_append.mp hexit with hleft | hright
      · exact Or.inl (mentions_accept (OrdSet.mem_toList.mp hleft))
      · exact Or.inr (Or.inl (mentions_accept (OrdSet.mem_toList.mp hright)))
    · exact Or.inr (Or.inr (Or.inr (List.mem_singleton.mp htarget)))
  · exact Or.inr (Or.inr (Or.inr hfinish))

theorem mentions_loop (h : (body.loop names).1.Mentions s) :
    body.Mentions s ∨ s = names.next ∨ s = names.next + 1 := by
  rcases mentions_addAccept h with hs | hfinish
  · rcases mentions_rerouteAll hs with hs | hexit | htarget
    · rcases mentions_overlay hs with hfork | hbody
      · rcases mentions_fork hfork with hstart | hback | hend
        · exact Or.inr (Or.inl hstart)
        · exact Or.inl (hback ▸ mentions_start body)
        · exact Or.inr (Or.inr hend)
      · exact Or.inl hbody
    · exact Or.inl (mentions_accept (OrdSet.mem_toList.mp hexit))
    · rcases List.mem_cons.mp htarget with hback | hend
      · exact Or.inl (hback ▸ mentions_start body)
      · exact Or.inr (Or.inr (List.mem_singleton.mp hend))
  · exact Or.inr (Or.inr hfinish)

/-- Compositions of automata whose states have names in a word have such names as well, if two
more fit. -/
theorem compositions_within_limit (hfirst : ∀ s, first.Mentions s → s < Names.limit)
    (hsecond : ∀ s, second.Mentions s → s < Names.limit) (hfits : names.Fits 2) :
    (∀ s, (first.chain second).Mentions s → s < Names.limit) ∧
      (∀ s, (first.choice second names).1.Mentions s → s < Names.limit) ∧
      ∀ s, (first.loop names).1.Mentions s → s < Names.limit := by
  have hnew : ∀ s, s = names.next ∨ s = names.next + 1 → s < Names.limit := by
    intro s hs
    change names.next + 2 < Names.limit at hfits
    omega
  refine ⟨?_, ?_, ?_⟩
  · intro s hs
    exact (mentions_chain hs).elim (hfirst s) (hsecond s)
  · intro s hs
    rcases mentions_choice hs with hs | hs | hs
    · exact hfirst s hs
    · exact hsecond s hs
    · exact hnew s hs
  · intro s hs
    exact (mentions_loop hs).elim (hfirst s) (hnew s)

end Compose

end Automaton

open Automaton

namespace Workbench

variable {bench last : Workbench} {operation : Operation} {operations : List Operation}
  {a : Automaton} {names : Names}

theorem names_of_result? (h : bench.result? operation = some (a, names)) :
    names = ⟨bench.names.next + operation.taken⟩ := by
  cases operation with
  | ofStart s =>
      cases h
      rfl
  | addEdge i e | addAccept i t | reroute i t targets | loop i =>
      obtain ⟨b, -, hmade⟩ := Option.bind_eq_some_iff.mp h
      cases hmade
      rfl
  | overlay i j | chain i j | choice i j =>
      obtain ⟨b, -, hrest⟩ := Option.bind_eq_some_iff.mp h
      obtain ⟨c, -, hmade⟩ := Option.bind_eq_some_iff.mp hrest
      cases hmade
      rfl
  | single symbol =>
      cases h
      rfl
  | build r =>
      have hmade : r.build bench.names = (a, names) := Option.some.inj h
      have hnames := r.build_names bench.names
      rwa [hmade] at hnames

/-- One step: a state of what is made is one of a part, or given, or taken from the supply. -/
theorem origin_of_result? (h : bench.result? operation = some (a, names)) {s : Nat}
    (hs : a.Mentions s) :
    (∃ b ∈ bench.made, b.Mentions s) ∨ s ∈ operation.given ∨
      bench.names.next ≤ s ∧ s < bench.names.next + operation.taken := by
  have hpart {i : Nat} {b : Automaton} (hb : bench.made[i]? = some b) (hs : b.Mentions s) :
      ∃ b ∈ bench.made, b.Mentions s := ⟨b, List.mem_of_getElem? hb, hs⟩
  have hnew (hs : s = bench.names.next ∨ s = bench.names.next + 1) :
      bench.names.next ≤ s ∧ s < bench.names.next + 2 := by omega
  cases operation with
  | ofStart t =>
      cases h
      exact Or.inr (Or.inl (List.mem_singleton.mpr (mentions_ofStart hs)))
  | addEdge i e =>
      obtain ⟨b, hb, hmade⟩ := Option.bind_eq_some_iff.mp h
      cases hmade
      refine (mentions_addEdge hs).imp (hpart hb) fun hends => Or.inl ?_
      simpa [Operation.given] using hends
  | addAccept i t =>
      obtain ⟨b, hb, hmade⟩ := Option.bind_eq_some_iff.mp h
      cases hmade
      exact (mentions_addAccept hs).imp (hpart hb) fun ht => Or.inl (List.mem_singleton.mpr ht)
  | reroute i t targets =>
      obtain ⟨b, hb, hmade⟩ := Option.bind_eq_some_iff.mp h
      cases hmade
      exact (mentions_reroute hs).imp (hpart hb) fun ht => Or.inl (List.mem_cons.mpr ht)
  | overlay i j =>
      obtain ⟨b, hb, hrest⟩ := Option.bind_eq_some_iff.mp h
      obtain ⟨c, hc, hmade⟩ := Option.bind_eq_some_iff.mp hrest
      cases hmade
      exact Or.inl ((mentions_overlay hs).elim (hpart hb) (hpart hc))
  | single symbol =>
      cases h
      exact Or.inr (Or.inr (hnew (mentions_single hs)))
  | build r =>
      have hmade : r.build bench.names = (a, names) := Option.some.inj h
      obtain ⟨exit, hr⟩ := r.exists_segment bench.names
      rw [hmade] at hr
      exact Or.inr (Or.inr (hr.mem_states_iff.mp (hr.mentions_iff.mp hs)))
  | chain i j =>
      obtain ⟨b, hb, hrest⟩ := Option.bind_eq_some_iff.mp h
      obtain ⟨c, hc, hmade⟩ := Option.bind_eq_some_iff.mp hrest
      cases hmade
      exact Or.inl ((mentions_chain hs).elim (hpart hb) (hpart hc))
  | choice i j =>
      obtain ⟨b, hb, hrest⟩ := Option.bind_eq_some_iff.mp h
      obtain ⟨c, hc, hmade⟩ := Option.bind_eq_some_iff.mp hrest
      cases hmade
      rcases mentions_choice hs with hs | hs | hs
      · exact Or.inl (hpart hb hs)
      · exact Or.inl (hpart hc hs)
      · exact Or.inr (Or.inr (hnew hs))
  | loop i =>
      obtain ⟨b, hb, hmade⟩ := Option.bind_eq_some_iff.mp h
      cases hmade
      exact (mentions_loop hs).imp (hpart hb) fun hs => Or.inr (hnew hs)

/-- A run takes the names that its steps take. -/
theorem names_of_run? (h : bench.run? operations = some last) :
    last.names = ⟨bench.names.next + Operation.takenByAll operations⟩ := by
  induction operations generalizing bench with
  | nil =>
      cases h
      rfl
  | cons operation rest ih =>
      obtain ⟨next, hnext, hrest⟩ := Option.bind_eq_some_iff.mp h
      obtain ⟨⟨a, names⟩, hresult, rfl⟩ := Option.map_eq_some_iff.mp hnext
      rw [ih hrest, names_of_result? hresult, Operation.takenByAll, ← Nat.add_assoc]

/-- A whole run: no state comes from elsewhere than from the bench, from a step, or from the
names that the run has taken. -/
theorem origin_of_run? (h : bench.run? operations = some last) (ha : a ∈ last.made) {s : Nat}
    (hs : a.Mentions s) :
    (∃ b ∈ bench.made, b.Mentions s) ∨ (∃ operation ∈ operations, s ∈ operation.given) ∨
      bench.names.next ≤ s ∧ s < bench.names.next + Operation.takenByAll operations := by
  induction operations generalizing bench with
  | nil =>
      cases h
      exact Or.inl ⟨a, ha, hs⟩
  | cons operation rest ih =>
      obtain ⟨next, hnext, hrest⟩ := Option.bind_eq_some_iff.mp h
      obtain ⟨⟨new, names⟩, hresult, rfl⟩ := Option.map_eq_some_iff.mp hnext
      rw [Operation.takenByAll]
      rcases ih hrest with ⟨b, hb, hs⟩ | ⟨later, hlater, hs⟩ | ⟨hlow, hhigh⟩
      · rcases List.mem_append.mp hb with hold | hnew
        · exact Or.inl ⟨b, hold, hs⟩
        · rw [List.mem_singleton.mp hnew] at hs
          rcases origin_of_result? hresult hs with hpart | hgiven | ⟨hlow, hhigh⟩
          · exact Or.inl hpart
          · exact Or.inr (Or.inl ⟨operation, List.mem_cons_self, hgiven⟩)
          · exact Or.inr (Or.inr ⟨hlow, by omega⟩)
      · exact Or.inr (Or.inl ⟨later, List.mem_cons_of_mem _ hlater, hs⟩)
      · rw [names_of_result? hresult] at hlow hhigh
        exact Or.inr (Or.inr ⟨by dsimp only at hlow; omega, by dsimp only at hhigh; omega⟩)

/-- On a bench that was empty at first, all states are within the limit as long as the names
that the run takes fit and no step brings a state beyond it. -/
theorem made_within_limit (hrun : Workbench.run? ⟨[], names⟩ operations = some last)
    (hfits : names.Fits (Operation.takenByAll operations))
    (hgiven : ∀ operation ∈ operations, ∀ s ∈ operation.given, s < Names.limit) :
    last.names.Fits 0 ∧ ∀ a ∈ last.made, ∀ s, a.Mentions s → s < Names.limit := by
  constructor
  · rw [names_of_run? hrun]
    exact hfits
  · intro a ha s hs
    rcases origin_of_run? hrun ha hs with ⟨b, hb, -⟩ | ⟨operation, hmem, hs⟩ | ⟨-, hhigh⟩
    · exact absurd hb List.not_mem_nil
    · exact hgiven operation hmem s hs
    · exact Nat.lt_trans hhigh hfits

end Workbench

end Thompson
