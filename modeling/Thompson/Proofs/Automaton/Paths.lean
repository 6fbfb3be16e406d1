import Thompson.Automaton.Run
import Thompson.Proofs.Automaton.Rows

/-!
Paths of composed automata, cut into paths of the parts. The parts may be any
automata, with several accepting states, edges that leave them and edges into
the start. They only have to keep their names apart, from each other and from
the new names.

A choice and a loop replace the edges of accepting states. What is left of a
part is its `clip`, in which every path ends at the first accepting state.
-/

namespace Thompson

/-- What a step along an edge with the label reads. -/
def Label.Spells : Label → List Char → Prop
  | .epsilon, v => v = []
  | .symbol s, v => ∃ c, v = [c] ∧ s.reads c = true

namespace Automaton

/-- The automaton without the rows of its accepting states. -/
def clip (a : Automaton) : Automaton :=
  { a with table := a.table.filter fun s => s ∉ a.accept }

theorem mem_edges_clip {a : Automaton} {e : Edge} :
    e ∈ a.clip.edges ↔ e ∈ a.edges ∧ e.source ∉ a.accept := by
  simp only [mem_edges_iff_leads, clip, OrdMap.get?_filter]
  by_cases hs : e.source ∈ a.accept <;> simp [hs]

/-- With one accepting state, a word is accepted on a path to that state. -/
theorem accepts_iff_path {a : Automaton} {finish : Nat} (haccept : a.accept = {finish})
    {w : List Char} : a.Accepts w ↔ a.Path a.start w finish := by
  rw [Accepts, haccept]
  constructor
  · rintro ⟨s, hs, path⟩
    rwa [OrdSet.mem_singleton.mp hs] at path
  · intro path
    exact ⟨finish, OrdSet.mem_singleton.mpr rfl, path⟩

namespace Path

theorem step {a : Automaton} {e : Edge} {v w : List Char} {t : Nat} (he : e ∈ a.edges)
    (hv : e.label.Spells v) (path : a.Path e.target w t) : a.Path e.source (v ++ w) t := by
  obtain ⟨source, label, target⟩ := e
  cases label with
  | epsilon =>
      obtain rfl : v = [] := hv
      exact .silent he path
  | symbol s =>
      obtain ⟨c, rfl, hread⟩ := hv
      exact .read he hread path

/-- Induction along the edges of a path, whatever their labels. -/
@[elab_as_elim]
theorem edge_induction {a : Automaton} {t : Nat}
    {motive : (s : Nat) → (w : List Char) → a.Path s w t → Prop}
    (refl : motive t [] (.refl t))
    (step : ∀ (e : Edge) (v w : List Char) (he : e ∈ a.edges) (hv : e.label.Spells v)
      (path : a.Path e.target w t), motive e.target w path →
        motive e.source (v ++ w) (path.step he hv))
    {s : Nat} {w : List Char} (path : a.Path s w t) : motive s w path := by
  induction path with
  | refl s => exact refl
  | silent edge path ih => exact step _ [] _ edge rfl path (ih refl step)
  | read edge hread path ih => exact step _ [_] _ edge ⟨_, rfl, hread⟩ path (ih refl step)

theorem head {a : Automaton} {s t : Nat} {w : List Char} (path : a.Path s w t) (hne : s ≠ t) :
    ∃ e ∈ a.edges, e.source = s ∧
      ∃ u v, w = u ++ v ∧ e.label.Spells u ∧ a.Path e.target v t := by
  cases path with
  | refl => exact absurd rfl hne
  | silent edge path => exact ⟨_, edge, rfl, [], _, rfl, rfl, path⟩
  | read edge hread path => exact ⟨_, edge, rfl, [_], _, rfl, ⟨_, rfl, hread⟩, path⟩

/-- Where no edge leaves, a path ends at once. -/
theorem eq_of_stuck {a : Automaton} {s t : Nat} {w : List Char}
    (hstuck : ∀ e ∈ a.edges, e.source ≠ s) (path : a.Path s w t) : w = [] ∧ t = s := by
  cases path with
  | refl => exact ⟨rfl, rfl⟩
  | silent edge _ => exact absurd rfl (hstuck _ edge)
  | read edge _ _ => exact absurd rfl (hstuck _ edge)

end Path

section Chain

variable {first second : Automaton} (hapart : ∀ s, first.Mentions s → ¬ second.Mentions s)
include hapart

/-- A concatenation has no way back from its second part into the first. -/
theorem path_chain_second {s t : Nat} {w : List Char} (path : (first.chain second).Path s w t)
    (hs : second.Mentions s) : second.Path s w t := by
  induction path using Path.edge_induction with
  | refl => exact .refl t
  | step e v w he hv path ih =>
      rcases mem_edges_chain.mp he with hleft | hright | ⟨haccept, _, _⟩
      · exact absurd hs (hapart _ (mentions_source hleft))
      · exact (ih (mentions_target hright)).step hright hv
      · exact absurd hs (hapart _ (mentions_accept haccept))

theorem path_chain_first {s t : Nat} {w : List Char} (path : (first.chain second).Path s w t)
    (hs : first.Mentions s) (ht : second.Mentions t) :
    ∃ u v, w = u ++ v ∧ (∃ q ∈ first.accept, first.Path s u q) ∧
      second.Path second.start v t := by
  induction path using Path.edge_induction with
  | refl => exact absurd ht (hapart _ hs)
  | step e v w he hv path ih =>
      rcases mem_edges_chain.mp he with hleft | hright | ⟨haccept, hsilent, hstart⟩
      · obtain ⟨u, u', rfl, ⟨q, hq, hpath⟩, htail⟩ := ih (mentions_target hleft)
        exact ⟨v ++ u, u', (List.append_assoc v u u').symm, ⟨q, hq, hpath.step hleft hv⟩, htail⟩
      · exact absurd (mentions_source hright) (hapart _ hs)
      · rw [hsilent] at hv
        rw [hstart] at path
        obtain rfl : v = [] := hv
        exact ⟨[], w, rfl, ⟨e.source, haccept, .refl _⟩,
          path_chain_second hapart path (mentions_start second)⟩

/-- From the first part into the second a path takes exactly one bridge. -/
theorem path_chain_iff {s t : Nat} {w : List Char} (hs : first.Mentions s)
    (ht : second.Mentions t) :
    (first.chain second).Path s w t ↔
      ∃ u v, w = u ++ v ∧ (∃ q ∈ first.accept, first.Path s u q) ∧
        second.Path second.start v t := by
  constructor
  · intro path
    exact path_chain_first hapart path hs ht
  · rintro ⟨u, v, rfl, ⟨q, hq, hleft⟩, hright⟩
    have hbridge : ⟨q, .epsilon, second.start⟩ ∈ (first.chain second).edges :=
      mem_edges_chain.mpr (Or.inr (Or.inr ⟨hq, rfl, rfl⟩))
    have hfirst : (first.chain second).Path s u q :=
      hleft.mono fun e he => mem_edges_chain.mpr (Or.inl he)
    have hsecond : (first.chain second).Path second.start v t :=
      hright.mono fun e he => mem_edges_chain.mpr (Or.inr (Or.inl he))
    exact hfirst.trans (.silent hbridge hsecond)

theorem accepts_chain_iff {w : List Char} :
    (first.chain second).Accepts w ↔
      ∃ u v, w = u ++ v ∧ first.Accepts u ∧ second.Accepts v := by
  have hends : (first.chain second).Accepts w ↔
      ∃ t ∈ second.accept, (first.chain second).Path first.start w t := by
    rw [Accepts, chain_eq]
  rw [hends]
  constructor
  · rintro ⟨t, ht, path⟩
    obtain ⟨u, v, rfl, hu, hv⟩ :=
      (path_chain_iff hapart (mentions_start first) (mentions_accept ht)).mp path
    exact ⟨u, v, rfl, hu, t, ht, hv⟩
  · rintro ⟨u, v, rfl, hu, t, ht, hv⟩
    exact ⟨t, ht, (path_chain_iff hapart (mentions_start first) (mentions_accept ht)).mpr
      ⟨u, v, rfl, hu, hv⟩⟩

end Chain

section Choice

/-- The way through a part of a choice: to its first accepting state, and out. -/
private theorem path_out_iff {whole part : Automaton} {finish : Nat}
    (hedge : ∀ e, part.Mentions e.source → (e ∈ whole.edges ↔
      e.source ∈ part.accept ∧ e.label = .epsilon ∧ e.target = finish ∨
        e.source ∉ part.accept ∧ e ∈ part.edges))
    (hfinish : ¬ part.Mentions finish) (hstuck : ∀ e ∈ whole.edges, e.source ≠ finish)
    {s : Nat} {w : List Char} (hs : part.Mentions s) :
    whole.Path s w finish ↔ ∃ q ∈ part.accept, part.clip.Path s w q := by
  constructor
  · intro path
    induction path using Path.edge_induction with
    | refl => exact absurd hs hfinish
    | step e v w he hv path ih =>
        rcases (hedge e hs).mp he with ⟨haccept, hsilent, hend⟩ | ⟨haccept, hpart⟩
        · rw [hsilent] at hv
          rw [hend] at path
          obtain rfl : v = [] := hv
          obtain ⟨rfl, _⟩ := path.eq_of_stuck hstuck
          exact ⟨e.source, haccept, .refl _⟩
        · obtain ⟨q, hq, hpath⟩ := ih (mentions_target hpart)
          exact ⟨q, hq, hpath.step (mem_edges_clip.mpr ⟨hpart, haccept⟩) hv⟩
  · rintro ⟨q, hq, hpath⟩
    have hinside : whole.Path s w q := by
      apply hpath.mono
      intro e he
      obtain ⟨hpart, haccept⟩ := mem_edges_clip.mp he
      exact (hedge e (mentions_source hpart)).mpr (Or.inr ⟨haccept, hpart⟩)
    have hexit : ⟨q, .epsilon, finish⟩ ∈ whole.edges :=
      (hedge _ (mentions_accept hq)).mpr (Or.inl ⟨hq, rfl, rfl⟩)
    have hout := hinside.trans (.silent hexit (.refl finish))
    rwa [List.append_nil] at hout

variable {first second : Automaton} {names : Names}
  (hapart : ∀ s, first.Mentions s → ¬ second.Mentions s)
  (hfirst : ¬ first.Mentions names.next ∧ ¬ first.Mentions (names.next + 1))
  (hsecond : ¬ second.Mentions names.next ∧ ¬ second.Mentions (names.next + 1))

include hapart hfirst in
private theorem mem_edges_choice_first {e : Edge} (hs : first.Mentions e.source) :
    e ∈ (first.choice second names).1.edges ↔
      e.source ∈ first.accept ∧ e.label = .epsilon ∧ e.target = names.next + 1 ∨
        e.source ∉ first.accept ∧ e ∈ first.edges := by
  have hother : ¬ second.Mentions e.source := hapart _ hs
  have haccept : e.source ∉ second.accept := mt mentions_accept hother
  have hedge : e ∉ second.edges := mt mentions_source hother
  have hstart : names.next ≠ e.source := fun h => hfirst.1 (h ▸ hs)
  simp [mem_edges_choice, haccept, hedge, hstart]

include hapart hsecond in
private theorem mem_edges_choice_second {e : Edge} (hs : second.Mentions e.source) :
    e ∈ (first.choice second names).1.edges ↔
      e.source ∈ second.accept ∧ e.label = .epsilon ∧ e.target = names.next + 1 ∨
        e.source ∉ second.accept ∧ e ∈ second.edges := by
  have hother : ¬ first.Mentions e.source := fun h => hapart _ h hs
  have haccept : e.source ∉ first.accept := mt mentions_accept hother
  have hedge : e ∉ first.edges := mt mentions_source hother
  have hstart : names.next ≠ e.source := fun h => hsecond.1 (h ▸ hs)
  simp [mem_edges_choice, haccept, hedge, hstart]

include hfirst hsecond in
private theorem mem_edges_choice_start {e : Edge} (hs : names.next = e.source) :
    e ∈ (first.choice second names).1.edges ↔
      e.label = .epsilon ∧ (e.target = first.start ∨ e.target = second.start) := by
  rw [hs] at hfirst hsecond
  have hleft : e.source ∉ first.accept := mt mentions_accept hfirst.1
  have hright : e.source ∉ second.accept := mt mentions_accept hsecond.1
  have hfirstEdge : e ∉ first.edges := mt mentions_source hfirst.1
  have hsecondEdge : e ∉ second.edges := mt mentions_source hsecond.1
  simp [mem_edges_choice, hleft, hright, hfirstEdge, hsecondEdge, hs]

include hfirst hsecond in
private theorem choice_stuck : ∀ e ∈ (first.choice second names).1.edges,
    e.source ≠ names.next + 1 := by
  intro e he hs
  rcases mem_edges_choice.mp he with ⟨haccept | haccept, _⟩ | ⟨_, ⟨hstart, _⟩ | he | he⟩
  · exact hfirst.2 (hs ▸ mentions_accept haccept)
  · exact hsecond.2 (hs ▸ mentions_accept haccept)
  · omega
  · exact hfirst.2 (hs ▸ mentions_source he)
  · exact hsecond.2 (hs ▸ mentions_source he)

include hapart hfirst hsecond in
/-- A path from the new start to the new end runs through one of the parts. -/
theorem path_choice_iff {w : List Char} :
    (first.choice second names).1.Path names.next w (names.next + 1) ↔
      first.clip.Accepts w ∨ second.clip.Accepts w := by
  have hstuck := choice_stuck hfirst hsecond
  have hthroughFirst := path_out_iff (w := w)
    (fun e => mem_edges_choice_first hapart hfirst (e := e)) hfirst.2 hstuck
    (mentions_start first)
  have hthroughSecond := path_out_iff (w := w)
    (fun e => mem_edges_choice_second hapart hsecond (e := e)) hsecond.2 hstuck
    (mentions_start second)
  constructor
  · intro path
    obtain ⟨e, he, hs, u, v, rfl, hu, hpath⟩ := path.head (Nat.ne_of_lt (Nat.lt_succ_self _))
    obtain ⟨hsilent, htarget⟩ := (mem_edges_choice_start hfirst hsecond hs.symm).mp he
    rw [hsilent] at hu
    obtain rfl : u = [] := hu
    rcases htarget with htarget | htarget
    · rw [htarget] at hpath
      exact Or.inl (hthroughFirst.mp hpath)
    · rw [htarget] at hpath
      exact Or.inr (hthroughSecond.mp hpath)
  · rintro (haccepts | haccepts)
    · have hfork : ⟨names.next, .epsilon, first.start⟩ ∈ (first.choice second names).1.edges :=
        (mem_edges_choice_start hfirst hsecond rfl).mpr ⟨rfl, Or.inl rfl⟩
      exact .silent hfork (hthroughFirst.mpr haccepts)
    · have hfork : ⟨names.next, .epsilon, second.start⟩ ∈ (first.choice second names).1.edges :=
        (mem_edges_choice_start hfirst hsecond rfl).mpr ⟨rfl, Or.inr rfl⟩
      exact .silent hfork (hthroughSecond.mpr haccepts)

include hapart hfirst hsecond in
theorem accepts_choice_iff {w : List Char} :
    (first.choice second names).1.Accepts w ↔
      first.clip.Accepts w ∨ second.clip.Accepts w := by
  have hstart : (first.choice second names).1.start = names.next := by rw [choice_eq]
  have haccept : (first.choice second names).1.accept = {names.next + 1} := by rw [choice_eq]
  rw [accepts_iff_path haccept, hstart, path_choice_iff hapart hfirst hsecond]

end Choice

section Loop

variable {body : Automaton} {names : Names}
  (hbody : ¬ body.Mentions names.next ∧ ¬ body.Mentions (names.next + 1))
include hbody

private theorem mem_edges_loop_body {e : Edge} (hs : body.Mentions e.source) :
    e ∈ (body.loop names).1.edges ↔
      e.source ∈ body.accept ∧ e.label = .epsilon ∧
          (e.target = body.start ∨ e.target = names.next + 1) ∨
        e.source ∉ body.accept ∧ e ∈ body.edges := by
  have hstart : names.next ≠ e.source := fun h => hbody.1 (h ▸ hs)
  simp [mem_edges_loop, hstart]

private theorem mem_edges_loop_start {e : Edge} (hs : names.next = e.source) :
    e ∈ (body.loop names).1.edges ↔
      e.label = .epsilon ∧ (e.target = body.start ∨ e.target = names.next + 1) := by
  rw [hs] at hbody
  have haccept : e.source ∉ body.accept := mt mentions_accept hbody.1
  have hedge : e ∉ body.edges := mt mentions_source hbody.1
  simp [mem_edges_loop, haccept, hedge, hs]

private theorem loop_stuck : ∀ e ∈ (body.loop names).1.edges, e.source ≠ names.next + 1 := by
  intro e he hs
  rcases mem_edges_loop.mp he with ⟨haccept, _⟩ | ⟨_, ⟨hstart, _⟩ | he⟩
  · exact hbody.2 (hs ▸ mentions_accept haccept)
  · omega
  · exact hbody.2 (hs ▸ mentions_source he)

private theorem rounds_of_path {s : Nat} {w : List Char}
    (path : (body.loop names).1.Path s w (names.next + 1)) (hs : body.Mentions s) :
    ∃ u rounds, w = u ++ List.flatten rounds ∧ (∃ q ∈ body.accept, body.clip.Path s u q) ∧
      ∀ v ∈ rounds, body.clip.Accepts v := by
  induction path using Path.edge_induction with
  | refl => exact absurd hs hbody.2
  | step e v w he hv path ih =>
      rcases (mem_edges_loop_body hbody hs).mp he with
        ⟨haccept, hsilent, htarget⟩ | ⟨haccept, hedge⟩
      · rw [hsilent] at hv
        obtain rfl : v = [] := hv
        rcases htarget with hback | hend
        · have hstart : body.Mentions e.target := hback ▸ mentions_start body
          obtain ⟨u, rounds, rfl, hround, hrounds⟩ := ih hstart
          rw [hback] at hround
          exact ⟨[], u :: rounds, rfl, ⟨e.source, haccept, .refl _⟩,
            List.forall_mem_cons.mpr ⟨hround, hrounds⟩⟩
        · rw [hend] at path
          obtain ⟨rfl, _⟩ := path.eq_of_stuck (loop_stuck hbody)
          exact ⟨[], [], rfl, ⟨e.source, haccept, .refl _⟩, by simp⟩
      · obtain ⟨u, rounds, rfl, ⟨q, hq, hpath⟩, hrounds⟩ := ih (mentions_target hedge)
        exact ⟨v ++ u, rounds, (List.append_assoc _ _ _).symm,
          ⟨q, hq, hpath.step (mem_edges_clip.mpr ⟨hedge, haccept⟩) hv⟩, hrounds⟩

private theorem path_of_round {u : List Char} (hu : body.clip.Accepts u) :
    ∃ q ∈ body.accept, (body.loop names).1.Path body.start u q := by
  obtain ⟨q, hq, hpath⟩ := hu
  refine ⟨q, hq, hpath.mono ?_⟩
  intro e he
  obtain ⟨hedge, haccept⟩ := mem_edges_clip.mp he
  exact (mem_edges_loop_body hbody (mentions_source hedge)).mpr (Or.inr ⟨haccept, hedge⟩)

private theorem path_of_rounds {rounds : List (List Char)}
    (hrounds : ∀ v ∈ rounds, body.clip.Accepts v) {u : List Char} (hu : body.clip.Accepts u) :
    (body.loop names).1.Path body.start (u ++ rounds.flatten) (names.next + 1) := by
  have hexit {q t : Nat} (hq : q ∈ body.accept) (ht : t = body.start ∨ t = names.next + 1) :
      ⟨q, .epsilon, t⟩ ∈ (body.loop names).1.edges :=
    (mem_edges_loop_body hbody (mentions_accept hq)).mpr (Or.inl ⟨hq, rfl, ht⟩)
  induction rounds generalizing u with
  | nil =>
      obtain ⟨q, hq, hpath⟩ := path_of_round hbody hu
      exact hpath.trans (.silent (hexit hq (Or.inr rfl)) (.refl _))
  | cons v rest ih =>
      obtain ⟨hv, hrest⟩ := List.forall_mem_cons.mp hrounds
      obtain ⟨q, hq, hpath⟩ := path_of_round hbody hu
      exact hpath.trans (.silent (hexit hq (Or.inl rfl)) (ih hrest hv))

/-- A path from the new start to the new end goes round any number of times, and
each round ends at the first accepting state of the body that it meets. -/
theorem path_loop_iff {w : List Char} :
    (body.loop names).1.Path names.next w (names.next + 1) ↔
      ∃ rounds, w = List.flatten rounds ∧ ∀ v ∈ rounds, body.clip.Accepts v := by
  constructor
  · intro path
    obtain ⟨e, he, hs, u, v, rfl, hu, hpath⟩ := path.head (Nat.ne_of_lt (Nat.lt_succ_self _))
    obtain ⟨hsilent, htarget⟩ := (mem_edges_loop_start hbody hs.symm).mp he
    rw [hsilent] at hu
    obtain rfl : u = [] := hu
    rcases htarget with htarget | htarget
    · rw [htarget] at hpath
      obtain ⟨u, rounds, rfl, hround, hrounds⟩ :=
        rounds_of_path hbody hpath (mentions_start body)
      exact ⟨u :: rounds, rfl, List.forall_mem_cons.mpr ⟨hround, hrounds⟩⟩
    · rw [htarget] at hpath
      obtain ⟨rfl, _⟩ := hpath.eq_of_stuck (loop_stuck hbody)
      exact ⟨[], rfl, by simp⟩
  · rintro ⟨rounds, rfl, hrounds⟩
    cases rounds with
    | nil =>
        have hskip : ⟨names.next, .epsilon, names.next + 1⟩ ∈ (body.loop names).1.edges :=
          (mem_edges_loop_start hbody rfl).mpr ⟨rfl, Or.inr rfl⟩
        exact .silent hskip (.refl _)
    | cons u rest =>
        have hfork : ⟨names.next, .epsilon, body.start⟩ ∈ (body.loop names).1.edges :=
          (mem_edges_loop_start hbody rfl).mpr ⟨rfl, Or.inl rfl⟩
        obtain ⟨hu, hrest⟩ := List.forall_mem_cons.mp hrounds
        exact .silent hfork (path_of_rounds hbody hrest hu)

theorem accepts_loop_iff {w : List Char} :
    (body.loop names).1.Accepts w ↔
      ∃ rounds, w = List.flatten rounds ∧ ∀ v ∈ rounds, body.clip.Accepts v := by
  have hstart : (body.loop names).1.start = names.next := by rw [loop_eq]
  have haccept : (body.loop names).1.accept = {names.next + 1} := by rw [loop_eq]
  rw [accepts_iff_path haccept, hstart, path_loop_iff hbody]

end Loop

end Automaton

end Thompson
