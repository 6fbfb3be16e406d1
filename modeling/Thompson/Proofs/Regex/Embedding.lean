import Thompson.Proofs.Automaton.Embedding
import Thompson.Proofs.Regex.Trim

/-!
The parts of a regular expression in the automaton that is built for the whole. Every part
lies in it as it was built on its own, at whatever depth, and no state that is wired up
has a row that could be dropped or extended.
-/

namespace Thompson

namespace Regex

open Automaton

/-- The composition that finishes the node wires up bare states only: no state has a row
when its bridge is added or when it is rerouted. -/
def WiresBare : Regex → Names → Prop
  | .char _, _ | .any, _ => True
  | .cat l r, names =>
      let (first, names) := l.build names
      let (second, _) := r.build names
      let joined := first.overlay second
      let exits := first.accept.toList
      first.chain second = { joined.bridge exits second.start with accept := second.accept } ∧
        joined.BridgesBare exits second.start
  | .alt l r, names =>
      let (first, names) := l.build names
      let (second, names) := r.build names
      let finish := names.next + 1
      let joined := ((fork names.next first.start second.start).overlay first).overlay second
      let exits := first.accept.toList ++ second.accept.toList
      (first.choice second names).1 = (joined.rerouteAll exits [finish]).addAccept finish ∧
        joined.ReroutesBare exits [finish]
  | .star r, names =>
      let (body, names) := r.build names
      let finish := names.next + 1
      let joined := (fork names.next body.start finish).overlay body
      let exits := body.accept.toList
      (body.loop names).1 = (joined.rerouteAll exits [body.start, finish]).addAccept finish ∧
        joined.ReroutesBare exits [body.start, finish]

theorem wiresBare (r : Regex) (names : Names) : r.WiresBare names := by
  cases r with
  | char c => trivial
  | any => trivial
  | cat l r =>
      obtain ⟨exit, hl⟩ := l.exists_segment names
      obtain ⟨finish, hr⟩ := exists_segment_second l r names
      exact ⟨rfl, bare_chain hl hr⟩
  | alt l r =>
      obtain ⟨exit, hl⟩ := l.exists_segment names
      obtain ⟨finish, hr⟩ := exists_segment_second l r names
      exact ⟨rfl, bare_choice hl hr (next_build_twice l r names)⟩
  | star r =>
      obtain ⟨exit, hbody⟩ := r.exists_segment names
      exact ⟨rfl, bare_loop hbody (next_build r names)⟩

theorem bare_of_accept (r : Regex) (names : Names) :
    ∀ s ∈ (r.build names).1.accept, (r.build names).1.table.get? s = none := by
  obtain ⟨exit, hr⟩ := r.exists_segment names
  intro s hs
  rw [hr.mem_accept_iff.mp hs]
  exact hr.exit_row

theorem embedsIn_self (r : Regex) (names : Names) :
    (r.build names).1.EmbedsIn (r.build names).1 := by
  obtain ⟨exit, hr⟩ := r.exists_segment names
  exact EmbedsIn.refl hr (r.trim_build names)

/-- The operands lie in the automaton of a node, and so do the parts inside them. -/
theorem embedsIn_build (r : Regex) (names : Names) :
    ∀ part ∈ r.parts names, (part.1.build part.2).1.EmbedsIn (r.build names).1 := by
  induction r generalizing names with
  | char c =>
      intro part hpart
      rw [List.mem_singleton.mp hpart]
      exact embedsIn_self (.char c) names
  | any =>
      intro part hpart
      rw [List.mem_singleton.mp hpart]
      exact embedsIn_self .any names
  | cat l r ihl ihr =>
      obtain ⟨exit, hl⟩ := l.exists_segment names
      obtain ⟨finish, hr⟩ := exists_segment_second l r names
      have hend := (Regex.cat l r).bare_of_accept names
      intro part hpart
      rw [parts, List.mem_append, List.mem_append, List.mem_singleton] at hpart
      rcases hpart with (hpart | hpart) | rfl
      · have hinside := embedsIn_chain_left hl hr (l.trim_build names)
        exact (ihl names part hpart).trans hinside hend
      · have hinside := embedsIn_chain_right hl hr (r.trim_build _)
        exact (ihr _ part hpart).trans hinside hend
      · exact embedsIn_self (.cat l r) names
  | alt l r ihl ihr =>
      obtain ⟨exit, hl⟩ := l.exists_segment names
      obtain ⟨finish, hr⟩ := exists_segment_second l r names
      have hnames := next_build_twice l r names
      have hend := (Regex.alt l r).bare_of_accept names
      intro part hpart
      rw [parts, List.mem_append, List.mem_append, List.mem_singleton] at hpart
      rcases hpart with (hpart | hpart) | rfl
      · have hinside := embedsIn_choice_left hl hr hnames (l.trim_build names)
        exact (ihl names part hpart).trans hinside hend
      · have hinside := embedsIn_choice_right hl hr hnames (r.trim_build _)
        exact (ihr _ part hpart).trans hinside hend
      · exact embedsIn_self (.alt l r) names
  | star r ih =>
      obtain ⟨exit, hbody⟩ := r.exists_segment names
      have hend := (Regex.star r).bare_of_accept names
      intro part hpart
      rw [parts, List.mem_append, List.mem_singleton] at hpart
      rcases hpart with hpart | rfl
      · have hinside := embedsIn_loop hbody (next_build r names) (r.trim_build names)
        exact (ih names part hpart).trans hinside hend
      · exact embedsIn_self (.star r) names

/-- Every part of an expression lies unchanged in the automaton of the whole: states other
than the one end of the part have kept their rows, and the end has no row unless it has
been wired up by silent edges. No step of the construction has found a row at a state that
it wired up, so none was dropped or extended. -/
theorem parts_lie_unchanged (r : Regex) (names : Names) (u : Regex) (supply : Names)
    (hpart : (u, supply) ∈ r.parts names) :
    (∃ exit, (u.build supply).1.accept = {exit}) ∧
      (u.build supply).1.EmbedsIn (r.build names).1 ∧ u.WiresBare supply := by
  obtain ⟨exit, hu⟩ := u.exists_segment supply
  exact ⟨⟨exit, hu.accept_eq⟩, embedsIn_build r names _ hpart, u.wiresBare supply⟩

/-- The loop inside the second alternative of a loop. -/
theorem inner_loop_lies_unchanged :
    let whole : Regex := .star (.alt (.cat (.char 'a') (.char 'b')) (.star .any))
    (.star .any, ⟨4⟩) ∈ whole.parts ⟨0⟩ ∧
      (∃ exit, ((Regex.star .any).build ⟨4⟩).1.accept = {exit}) ∧
      ((Regex.star .any).build ⟨4⟩).1.EmbedsIn (whole.build ⟨0⟩).1 ∧
      (Regex.star .any).WiresBare ⟨4⟩ := by
  intro whole
  have hpart : (.star .any, ⟨4⟩) ∈ whole.parts ⟨0⟩ := by decide
  exact ⟨hpart, parts_lie_unchanged whole ⟨0⟩ (.star .any) ⟨4⟩ hpart⟩

end Regex

end Thompson
