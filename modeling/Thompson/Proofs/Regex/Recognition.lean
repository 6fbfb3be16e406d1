import Thompson.Proofs.Automaton.Paths
import Thompson.Proofs.Regex.Naming
import Thompson.Regex.Language

/-!
The automaton of a regular expression accepts the words that the expression
stands for. In what is built, an accepting state has no edges until it is wired
up, so no part is clipped, and each form of expression gives one equation between
the words of the whole and those of the parts.
-/

namespace Thompson

namespace Automaton

variable {a b : Automaton} {names : Names} {first size more exit finish : Nat}

theorem Segment.clip_eq (h : a.Segment first size exit) : a.clip = a := by
  have htable : a.table.filter (fun s => s ∉ a.accept) = a.table := by
    apply OrdMap.ext
    intro s
    rw [OrdMap.get?_filter]
    by_cases hs : s ∈ a.accept
    · rw [h.mem_accept_iff.mp hs, h.exit_row]
      exact ite_self none
    · simp [hs]
  rw [clip, htable]

theorem accepts_single_iff {symbol : Symbol} {w : List Char} :
    (single symbol names).1.Accepts w ↔ ∃ c, w = [c] ∧ symbol.reads c = true := by
  have hseg := segment_single symbol names
  have hedge : ⟨names.next, .symbol symbol, names.next + 1⟩ ∈ (single symbol names).1.edges :=
    mem_edges_single.mpr rfl
  have hstuck : ∀ e ∈ (single symbol names).1.edges, e.source ≠ names.next + 1 :=
    fun e he => hseg.source_ne_exit he
  rw [accepts_iff_path hseg.accept_eq]
  constructor
  · intro path
    obtain ⟨e, he, _, u, v, rfl, hu, hpath⟩ := path.head (Nat.ne_of_lt (Nat.lt_succ_self _))
    obtain rfl := mem_edges_single.mp he
    obtain ⟨c, rfl, hread⟩ := hu
    obtain ⟨rfl, _⟩ := hpath.eq_of_stuck hstuck
    exact ⟨c, rfl, hread⟩
  · rintro ⟨c, rfl, hread⟩
    exact .read hedge hread (.refl _)

theorem Segment.accepts_chain_iff (ha : a.Segment first size exit)
    (hb : b.Segment (first + size) more finish) {w : List Char} :
    (a.chain b).Accepts w ↔ ∃ u v, w = u ++ v ∧ a.Accepts u ∧ b.Accepts v :=
  Automaton.accepts_chain_iff (ha.mentions_apart hb)

theorem Segment.accepts_choice_iff (ha : a.Segment first size exit)
    (hb : b.Segment (first + size) more finish) (hnames : names.next = first + size + more)
    {w : List Char} : (a.choice b names).1.Accepts w ↔ a.Accepts w ∨ b.Accepts w := by
  have hfirst : ¬ a.Mentions names.next ∧ ¬ a.Mentions (names.next + 1) :=
    ⟨ha.not_mentions_of_le (by omega), ha.not_mentions_of_le (by omega)⟩
  have hsecond : ¬ b.Mentions names.next ∧ ¬ b.Mentions (names.next + 1) :=
    ⟨hb.not_mentions_of_le (by omega), hb.not_mentions_of_le (by omega)⟩
  rw [Automaton.accepts_choice_iff (ha.mentions_apart hb) hfirst hsecond, ha.clip_eq, hb.clip_eq]

theorem Segment.accepts_loop_iff (ha : a.Segment first size exit)
    (hnames : names.next = first + size) {w : List Char} :
    (a.loop names).1.Accepts w ↔
      ∃ rounds, w = List.flatten rounds ∧ ∀ v ∈ rounds, a.Accepts v := by
  have hbody : ¬ a.Mentions names.next ∧ ¬ a.Mentions (names.next + 1) :=
    ⟨ha.not_mentions_of_le (by omega), ha.not_mentions_of_le (by omega)⟩
  rw [Automaton.accepts_loop_iff hbody, ha.clip_eq]

end Automaton

namespace Regex

theorem matches_cat_iff {l r : Regex} {w : List Char} :
    (Regex.cat l r).Matches w ↔ ∃ u v, w = u ++ v ∧ l.Matches u ∧ r.Matches v := by
  constructor
  · intro h
    cases h with
    | cat hl hr => exact ⟨_, _, rfl, hl, hr⟩
  · rintro ⟨u, v, rfl, hl, hr⟩
    exact .cat hl hr

theorem matches_alt_iff {l r : Regex} {w : List Char} :
    (Regex.alt l r).Matches w ↔ l.Matches w ∨ r.Matches w := by
  constructor
  · intro h
    cases h with
    | altLeft hl => exact Or.inl hl
    | altRight hr => exact Or.inr hr
  · rintro (hl | hr)
    · exact .altLeft hl
    · exact .altRight hr

theorem matches_star_iff {r : Regex} {w : List Char} :
    (Regex.star r).Matches w ↔ ∃ rounds, w = List.flatten rounds ∧ ∀ v ∈ rounds, r.Matches v := by
  constructor
  · intro h
    generalize hstar : Regex.star r = s at h
    induction h with
    | starNil => exact ⟨[], rfl, by simp⟩
    | starCons hu hv _ ih =>
        cases hstar
        obtain ⟨rounds, rfl, hrounds⟩ := ih rfl
        exact ⟨_ :: rounds, rfl, List.forall_mem_cons.mpr ⟨hu, hrounds⟩⟩
    | _ => cases hstar
  · rintro ⟨rounds, rfl, hrounds⟩
    induction rounds with
    | nil => exact .starNil
    | cons v rest ih =>
        obtain ⟨hv, hrest⟩ := List.forall_mem_cons.mp hrounds
        exact .starCons hv (ih hrest)

theorem accepts_build_iff (r : Regex) (names : Names) (w : List Char) :
    (r.build names).1.Accepts w ↔ r.Matches w := by
  induction r generalizing names w with
  | char c =>
      rw [build, Automaton.accepts_single_iff]
      constructor
      · rintro ⟨d, rfl, hread⟩
        obtain rfl : c = d := of_decide_eq_true hread
        exact .char c
      · intro h
        cases h with
        | char => exact ⟨c, rfl, decide_eq_true rfl⟩
  | any =>
      rw [build, Automaton.accepts_single_iff]
      constructor
      · rintro ⟨c, rfl, _⟩
        exact .any c
      · intro h
        cases h with
        | any d => exact ⟨d, rfl, rfl⟩
  | cat l r ihl ihr =>
      obtain ⟨exit, hl⟩ := l.exists_segment names
      obtain ⟨finish, hr⟩ := exists_segment_second l r names
      rw [build, hl.accepts_chain_iff hr, matches_cat_iff]
      simp only [ihl, ihr]
  | alt l r ihl ihr =>
      obtain ⟨exit, hl⟩ := l.exists_segment names
      obtain ⟨finish, hr⟩ := exists_segment_second l r names
      have hnames := next_build_twice l r names
      rw [build, hl.accepts_choice_iff hr hnames, matches_alt_iff, ihl, ihr]
  | star r ih =>
      obtain ⟨exit, hbody⟩ := r.exists_segment names
      rw [build, hbody.accepts_loop_iff (next_build r names), matches_star_iff]
      simp only [ih]

/-- Whatever names the states take, the automaton that is built for a regular
expression accepts exactly the words that the expression stands for. -/
theorem build_recognizes (r : Regex) :
    (∀ names w, (r.build names).1.Accepts w ↔ r.Matches w) ∧
      ∀ w, r.automaton.Accepts w ↔ r.Matches w := by
  constructor
  · intro names w
    exact accepts_build_iff r names w
  · intro w
    exact accepts_build_iff r (.ofStart 0) w

end Regex

end Thompson
