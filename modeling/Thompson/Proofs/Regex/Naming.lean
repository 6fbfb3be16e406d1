import Thompson.Proofs.Automaton.Segment
import Thompson.Regex.Automaton

/-!
Which names the automaton of a regular expression takes from its supply. They are
an interval with two names for each node that is not a concatenation, so what one
supply builds next has other names.
-/

namespace Thompson

namespace Regex

theorem next_build (r : Regex) (names : Names) :
    (r.build names).2.next = names.next + 2 * r.weight := by
  rw [build_names]

/-- Every automaton that is built is a segment of the names that it takes. -/
theorem exists_segment (r : Regex) (names : Names) :
    ∃ exit, (r.build names).1.Segment names.next (2 * r.weight) exit := by
  induction r generalizing names with
  | char c => exact ⟨_, Automaton.segment_single (.char c) names⟩
  | any => exact ⟨_, Automaton.segment_single .any names⟩
  | cat l r ihl ihr =>
      obtain ⟨exit, hl⟩ := ihl names
      obtain ⟨finish, hr⟩ := ihr (l.build names).2
      rw [next_build] at hr
      have hsize : 2 * (Regex.cat l r).weight = 2 * l.weight + 2 * r.weight := Nat.mul_add _ _ _
      rw [hsize]
      exact ⟨finish, Automaton.segment_chain hl hr⟩
  | alt l r ihl ihr =>
      obtain ⟨exit, hl⟩ := ihl names
      obtain ⟨finish, hr⟩ := ihr (l.build names).2
      rw [next_build] at hr
      have hsize : 2 * (Regex.alt l r).weight = 2 * l.weight + 2 * r.weight + 2 := by
        rw [weight]
        omega
      have hnames : (r.build (l.build names).2).2.next =
          names.next + 2 * l.weight + 2 * r.weight := by
        rw [next_build, next_build]
      rw [hsize]
      exact ⟨_, Automaton.segment_choice hl hr hnames⟩
  | star r ih =>
      obtain ⟨exit, hbody⟩ := ih names
      have hsize : 2 * (Regex.star r).weight = 2 * r.weight + 2 := by
        rw [weight]
        omega
      rw [hsize]
      exact ⟨_, Automaton.segment_loop hbody (next_build r names)⟩

section Twice

variable (l r : Regex) (names : Names)

theorem next_build_twice :
    (r.build (l.build names).2).2.next = names.next + 2 * l.weight + 2 * r.weight := by
  rw [next_build, next_build]

/-- What is built second takes the names that follow those of the first. -/
theorem exists_segment_second :
    ∃ exit, (r.build (l.build names).2).1.Segment
      (names.next + 2 * l.weight) (2 * r.weight) exit := by
  have hsecond := r.exists_segment (l.build names).2
  rw [next_build] at hsecond
  exact hsecond

end Twice

/-- A property that single automata have and that compositions of segments keep is one of all
that is built. -/
theorem build_induction {P : Automaton → Prop}
    (hsingle : ∀ symbol names, P (Automaton.single symbol names).1)
    (hchain : ∀ {a b : Automaton} {first size more exit finish : Nat},
      a.Segment first size exit → b.Segment (first + size) more finish →
        P a → P b → P (a.chain b))
    (hchoice : ∀ {a b : Automaton} {names : Names} {first size more exit finish : Nat},
      a.Segment first size exit → b.Segment (first + size) more finish →
        names.next = first + size + more → P a → P b → P (a.choice b names).1)
    (hloop : ∀ {a : Automaton} {names : Names} {first size exit : Nat},
      a.Segment first size exit → names.next = first + size → P a → P (a.loop names).1)
    (r : Regex) (names : Names) : P (r.build names).1 := by
  induction r generalizing names with
  | char c => exact hsingle (.char c) names
  | any => exact hsingle .any names
  | cat l r ihl ihr =>
      obtain ⟨exit, hl⟩ := l.exists_segment names
      obtain ⟨finish, hr⟩ := exists_segment_second l r names
      exact hchain hl hr (ihl names) (ihr _)
  | alt l r ihl ihr =>
      obtain ⟨exit, hl⟩ := l.exists_segment names
      obtain ⟨finish, hr⟩ := exists_segment_second l r names
      exact hchoice hl hr (next_build_twice l r names) (ihl names) (ihr _)
  | star r ih =>
      obtain ⟨exit, hbody⟩ := r.exists_segment names
      exact hloop hbody (next_build r names) (ih names)

/-- Builds one automaton after the other from a single supply. -/
def buildAll : List Regex → Names → List Automaton × Names
  | [], names => ([], names)
  | r :: rest, names =>
      let (a, names) := r.build names
      let (others, names) := buildAll rest names
      (a :: others, names)

theorem le_of_mentions_buildAll (rs : List Regex) (names : Names) :
    ∀ a ∈ (buildAll rs names).1, ∀ s, a.Mentions s → names.next ≤ s := by
  induction rs generalizing names with
  | nil =>
      intro a ha
      exact absurd ha List.not_mem_nil
  | cons r rest ih =>
      intro a ha s hs
      rcases List.mem_cons.mp ha with rfl | hrest
      · obtain ⟨exit, hr⟩ := r.exists_segment names
        exact (hr.mem_states_iff.mp (hr.mentions_iff.mp hs)).1
      · have hlater := ih (r.build names).2 a hrest s hs
        rw [next_build] at hlater
        omega

/-- Automata that come from one supply have no state in common. -/
theorem pairwise_buildAll (rs : List Regex) (names : Names) :
    (buildAll rs names).1.Pairwise fun a b => ∀ s, a.Mentions s → ¬ b.Mentions s := by
  induction rs generalizing names with
  | nil => exact List.Pairwise.nil
  | cons r rest ih =>
      refine List.Pairwise.cons ?_ (ih (r.build names).2)
      intro b hb s hs hs'
      obtain ⟨exit, hr⟩ := r.exists_segment names
      have hbelow := (hr.mem_states_iff.mp (hr.mentions_iff.mp hs)).2
      have habove := le_of_mentions_buildAll rest (r.build names).2 b hb s hs'
      rw [next_build] at habove
      omega

/-- An automaton that is built has the names of an interval for its states, each
once, with the start first and the one accepting state last. All that it mentions
is among them, and the automata that the same supply gives afterwards share none. -/
theorem build_takes_interval (r : Regex) (names : Names) :
    (r.build names).2 = ⟨names.next + 2 * r.weight⟩ ∧
      (r.build names).1.states.Nodup ∧
      (r.build names).1.states.Perm (List.range' names.next (2 * r.weight)) ∧
      (r.build names).1.states.head? = some (r.build names).1.start ∧
      (∃ exit, (r.build names).1.states.getLast? = some exit ∧
        (r.build names).1.accept.toList = [exit]) ∧
      (r.build names).1.Closed ∧
      ∀ rest : List Regex, (buildAll (r :: rest) names).1.Pairwise fun a b =>
        ∀ s, a.Mentions s → ¬ b.Mentions s := by
  obtain ⟨exit, hr⟩ := r.exists_segment names
  refine ⟨build_names r names, hr.nodup_states, hr.states_perm, hr.head_states,
    ⟨exit, hr.getLast_states, ?_⟩, hr.closed, ?_⟩
  · rw [hr.accept_eq, OrdSet.toList_singleton]
  · intro rest
    exact pairwise_buildAll (r :: rest) names

end Regex

end Thompson
