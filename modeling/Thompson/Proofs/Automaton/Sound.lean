import Thompson.Automaton.Workbench
import Thompson.Proofs.Automaton.Trim

/-!
What every automaton keeps to, however it was made: the start and the accepting states are
among the states, and what is read on an edge is in the alphabet. Each of the elementary
steps keeps this for any operands. The compositions are made of such steps, so they keep it
too, and so does a run of any length on a workbench.
-/

namespace Thompson

namespace Automaton

/-- Rows may be left over, and edges may lead out of the list of states. -/
structure Sound (a : Automaton) : Prop where
  start_mem : a.start ∈ a.states
  accept_mem : ∀ s ∈ a.accept, s ∈ a.states
  symbol_mem : ∀ symbol, a.Reads symbol → symbol ∈ a.alphabet

theorem sound_ofStart (s : Nat) : (ofStart s).Sound where
  start_mem := List.mem_cons_self
  accept_mem _ hs := absurd hs (OrdSet.not_mem_empty _)
  symbol_mem := by
    rintro symbol ⟨e, he, -⟩
    exact absurd he List.not_mem_nil

namespace Sound

variable {a b : Automaton}

theorem addEdge (ha : a.Sound) (e : Edge) : (a.addEdge e).Sound where
  start_mem := ha.start_mem
  accept_mem := ha.accept_mem
  symbol_mem := by
    rintro symbol ⟨f, hf, hlabel⟩
    change symbol ∈ a.alphabet ∪ e.label.symbols
    rw [OrdSet.mem_union]
    rcases mem_edges_addEdge.mp hf with hold | rfl
    · exact Or.inl (ha.symbol_mem symbol ⟨f, hold, hlabel⟩)
    · rw [hlabel]
      exact Or.inr (OrdSet.mem_singleton.mpr rfl)

theorem addAccept (ha : a.Sound) (s : Nat) : (a.addAccept s).Sound where
  start_mem := List.mem_append_left _ ha.start_mem
  accept_mem := by
    intro t ht
    rcases OrdSet.mem_insert.mp ht with rfl | hold
    · exact List.mem_append_right _ List.mem_cons_self
    · exact List.mem_append_left _ (ha.accept_mem t hold)
  symbol_mem := ha.symbol_mem

/-- A rerouted row is silent, so its symbols are missed by none. -/
theorem reroute (ha : a.Sound) (s : Nat) (targets : List Nat) : (a.reroute s targets).Sound where
  start_mem := ha.start_mem
  accept_mem := ha.accept_mem
  symbol_mem := by
    rintro symbol ⟨e, he, hlabel⟩
    rcases mem_edges_reroute.mp he with ⟨-, hsilent, -⟩ | ⟨-, hold⟩
    · rw [hlabel] at hsilent
      contradiction
    · exact ha.symbol_mem symbol ⟨e, hold, hlabel⟩

theorem overlay (ha : a.Sound) (hb : b.Sound) : (a.overlay b).Sound where
  start_mem := List.mem_append_left _ ha.start_mem
  accept_mem s hs := List.mem_append_left _ (ha.accept_mem s hs)
  symbol_mem := by
    rintro symbol ⟨e, he, hlabel⟩
    change symbol ∈ a.alphabet ∪ b.alphabet
    rw [OrdSet.mem_union]
    rcases mem_edges_overlay.mp he with hleft | hright
    · exact Or.inl (ha.symbol_mem symbol ⟨e, hleft, hlabel⟩)
    · exact Or.inr (hb.symbol_mem symbol ⟨e, hright, hlabel⟩)

theorem bridge (ha : a.Sound) (sources : List Nat) (target : Nat) :
    (a.bridge sources target).Sound := by
  apply List.foldlRecOn sources _ ha
  intro other hother source _
  exact hother.addEdge _

theorem rerouteAll (ha : a.Sound) (sources targets : List Nat) :
    (a.rerouteAll sources targets).Sound := by
  apply List.foldlRecOn sources _ ha
  intro other hother source _
  exact hother.reroute _ _

/-- The accepting states are those of the second part, whose states are all there. -/
theorem chain (ha : a.Sound) (hb : b.Sound) : (a.chain b).Sound where
  start_mem := ((ha.overlay hb).bridge a.accept.toList b.start).start_mem
  accept_mem := by
    intro s hs
    rw [chain_eq] at hs ⊢
    exact List.mem_append_right _ (hb.accept_mem s hs)
  symbol_mem := ((ha.overlay hb).bridge a.accept.toList b.start).symbol_mem

theorem choice (ha : a.Sound) (hb : b.Sound) (names : Names) : (a.choice b names).1.Sound := by
  have hfork := ((sound_ofStart names.next).addEdge ⟨names.next, .epsilon, a.start⟩).addEdge
    ⟨names.next, .epsilon, b.start⟩
  exact (((hfork.overlay ha).overlay hb).rerouteAll _ _).addAccept _

theorem loop (ha : a.Sound) (names : Names) : (a.loop names).1.Sound := by
  have hfork := ((sound_ofStart names.next).addEdge ⟨names.next, .epsilon, a.start⟩).addEdge
    ⟨names.next, .epsilon, names.next + 1⟩
  exact ((hfork.overlay ha).rerouteAll _ _).addAccept _

end Sound

theorem sound_single (symbol : Symbol) (names : Names) : (single symbol names).1.Sound :=
  ((sound_ofStart names.next).addEdge ⟨names.next, .symbol symbol, names.next + 1⟩).addAccept _

end Automaton

open Automaton

theorem Regex.sound_build (r : Regex) (names : Names) : (r.build names).1.Sound := by
  induction r generalizing names with
  | char c => exact sound_single (.char c) names
  | any => exact sound_single .any names
  | cat l r ihl ihr => exact (ihl names).chain (ihr _)
  | alt l r ihl ihr => exact (ihl names).choice (ihr _) _
  | star r ih => exact (ih names).loop _

namespace Workbench

/-- One step: what is made of sound automata is sound. -/
theorem sound_of_result? {bench : Workbench} {operation : Operation} {a : Automaton}
    {names : Names} (hbench : ∀ b ∈ bench.made, b.Sound)
    (hresult : bench.result? operation = some (a, names)) : a.Sound := by
  have hpart {i : Nat} {b : Automaton} (hb : bench.made[i]? = some b) : b.Sound :=
    hbench b (List.mem_of_getElem? hb)
  cases operation with
  | ofStart s =>
      cases hresult
      exact sound_ofStart s
  | addEdge i e =>
      obtain ⟨b, hb, hmade⟩ := Option.bind_eq_some_iff.mp hresult
      cases hmade
      exact (hpart hb).addEdge e
  | addAccept i s =>
      obtain ⟨b, hb, hmade⟩ := Option.bind_eq_some_iff.mp hresult
      cases hmade
      exact (hpart hb).addAccept s
  | reroute i s targets =>
      obtain ⟨b, hb, hmade⟩ := Option.bind_eq_some_iff.mp hresult
      cases hmade
      exact (hpart hb).reroute s targets
  | overlay i j =>
      obtain ⟨b, hb, hrest⟩ := Option.bind_eq_some_iff.mp hresult
      obtain ⟨c, hc, hmade⟩ := Option.bind_eq_some_iff.mp hrest
      cases hmade
      exact (hpart hb).overlay (hpart hc)
  | single symbol =>
      cases hresult
      exact sound_single symbol bench.names
  | build r =>
      have hmade : r.build bench.names = (a, names) := Option.some.inj hresult
      have hsound := r.sound_build bench.names
      rwa [hmade] at hsound
  | chain i j =>
      obtain ⟨b, hb, hrest⟩ := Option.bind_eq_some_iff.mp hresult
      obtain ⟨c, hc, hmade⟩ := Option.bind_eq_some_iff.mp hrest
      cases hmade
      exact (hpart hb).chain (hpart hc)
  | choice i j =>
      obtain ⟨b, hb, hrest⟩ := Option.bind_eq_some_iff.mp hresult
      obtain ⟨c, hc, hmade⟩ := Option.bind_eq_some_iff.mp hrest
      cases hmade
      exact (hpart hb).choice (hpart hc) bench.names
  | loop i =>
      obtain ⟨b, hb, hmade⟩ := Option.bind_eq_some_iff.mp hresult
      cases hmade
      exact (hpart hb).loop bench.names

theorem sound_of_perform? {bench next : Workbench} {operation : Operation}
    (hbench : ∀ b ∈ bench.made, b.Sound) (hnext : bench.perform? operation = some next) :
    ∀ b ∈ next.made, b.Sound := by
  obtain ⟨⟨a, names⟩, hresult, rfl⟩ := Option.map_eq_some_iff.mp hnext
  intro b hb
  rcases List.mem_append.mp hb with hold | hnew
  · exact hbench b hold
  · rw [List.mem_singleton.mp hnew]
    exact sound_of_result? hbench hresult

theorem sound_of_run? {bench last : Workbench} {operations : List Operation}
    (hbench : ∀ b ∈ bench.made, b.Sound) (hrun : bench.run? operations = some last) :
    ∀ b ∈ last.made, b.Sound := by
  induction operations generalizing bench with
  | nil =>
      cases hrun
      exact hbench
  | cons operation rest ih =>
      obtain ⟨next, hnext, hrest⟩ := Option.bind_eq_some_iff.mp hrun
      exact ih (sound_of_perform? hbench hnext) hrest

/-- Whatever is made on a bench that was empty at first has its start and its accepting states
among its states, and the symbols on its edges in its alphabet. The supply is a counter of 64
bits for as long as the names that the run takes fit: see `made_within_limit`. -/
theorem made_sound {names : Names} {operations : List Operation} {last : Workbench}
    (hrun : Workbench.run? ⟨[], names⟩ operations = some last) {a : Automaton}
    (ha : a ∈ last.made) : a.Sound :=
  sound_of_run? (fun _ hb => absurd hb List.not_mem_nil) hrun a ha

/-- An edge leaves a state that is not there, the row that reads is dropped, and the parts of
the choice and of the overlay have names in common. -/
def tangle : List Operation :=
  [.single (.char 'a'), .ofStart 1, .addEdge 1 ⟨12, .symbol .any, 1⟩, .addAccept 2 1, .chain 0 3,
    .reroute 4 0 [], .choice 5 4, .overlay 3 6, .build (.star .any), .loop 7]

theorem tangled_loop_sound :
    ∃ last, Workbench.run? ⟨[], ⟨0⟩⟩ tangle = some last ∧
      ∃ a, last.made[9]? = some a ∧ ¬ a.Closed ∧ a.Sound := by
  obtain ⟨last, hrun, a, ha, hopen⟩ :
      ∃ last, Workbench.run? ⟨[], ⟨0⟩⟩ tangle = some last ∧
        ∃ a, last.made[9]? = some a ∧ ¬ a.Closed := ⟨_, rfl, _, rfl, by decide⟩
  exact ⟨last, hrun, a, ha, hopen, made_sound hrun (List.mem_of_getElem? ha)⟩

end Workbench

end Thompson
